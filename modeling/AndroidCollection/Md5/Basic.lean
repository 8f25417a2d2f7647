import AndroidCollection.Lib.Overwrite
import AndroidCollection.Lib.Rfc1321

/-!
# The C++ class `MD5`

The member functions work on the fields of the object, so each of them is
modelled as a function from the object before the call to the object after it.
`update` counts bytes in a 32-bit variable which it compares with the length of
its input; where that variable wraps the call never returns, which `update`
gives as `none`. An object which has not been constructed yet holds arbitrary
bytes in its buffers.
-/

namespace AndroidCollection.Md5

open Overwrite Rfc1321

def S11 : UInt32 := 7

def S12 : UInt32 := 12

def S13 : UInt32 := 17

def S14 : UInt32 := 22

def S21 : UInt32 := 5

def S22 : UInt32 := 9

def S23 : UInt32 := 14

def S24 : UInt32 := 20

def S31 : UInt32 := 4

def S32 : UInt32 := 11

def S33 : UInt32 := 16

def S34 : UInt32 := 23

def S41 : UInt32 := 6

def S42 : UInt32 := 10

def S43 : UInt32 := 15

def S44 : UInt32 := 21

def F (x y z : UInt32) : UInt32 :=
  (x &&& y) ||| (~~~x &&& z)

def G (x y z : UInt32) : UInt32 :=
  (x &&& z) ||| (y &&& ~~~z)

def H (x y z : UInt32) : UInt32 :=
  x ^^^ y ^^^ z

def I (x y z : UInt32) : UInt32 :=
  y ^^^ (x ||| ~~~z)

def ROTATE_LEFT (x n : UInt32) : UInt32 :=
  (x <<< n) ||| (x >>> (32 - n))

/-- The new value of `a` in the macros of the four rounds, which differ in `f` only. -/
def transformation (f : UInt32 → UInt32 → UInt32 → UInt32) (a b c d x s ac : UInt32) : UInt32 :=
  let a := a + (f b c d + x + ac)
  let a := ROTATE_LEFT a s
  a + b

def FF : UInt32 → UInt32 → UInt32 → UInt32 → UInt32 → UInt32 → UInt32 → UInt32 :=
  transformation F

def GG : UInt32 → UInt32 → UInt32 → UInt32 → UInt32 → UInt32 → UInt32 → UInt32 :=
  transformation G

def HH : UInt32 → UInt32 → UInt32 → UInt32 → UInt32 → UInt32 → UInt32 → UInt32 :=
  transformation H

def II : UInt32 → UInt32 → UInt32 → UInt32 → UInt32 → UInt32 → UInt32 → UInt32 :=
  transformation I

/-- `encode`: the bytes of words, low-order byte first. -/
def encode (input : List UInt32) : List UInt8 :=
  input.flatMap fun (value : UInt32) =>
    [(value &&& 0xff).toUInt8, ((value >>> 8) &&& 0xff).toUInt8,
      ((value >>> 16) &&& 0xff).toUInt8, ((value >>> 24) &&& 0xff).toUInt8]

theorem length_encode (input : List UInt32) : (encode input).length = 4 * input.length := by
  induction input with
  | nil => rfl
  | cons value input ih =>
      rw [encode, List.flatMap_cons, List.length_append, ← encode, ih]
      simp only [List.length_cons, List.length_nil]
      omega

/-- `decode`: the words of bytes, low-order byte first. -/
def decode : List UInt8 → List UInt32
  | first :: second :: third :: fourth :: input =>
      (first.toUInt32 ||| (second.toUInt32 <<< 8) ||| (third.toUInt32 <<< 16) |||
        (fourth.toUInt32 <<< 24)) :: decode input
  | _ => []

/-! ## The transformation of a block -/

def round1 (x : ℕ → UInt32) : MDBuffer → MDBuffer
  | ⟨a, b, c, d⟩ =>
      let a := FF a b c d (x 0) S11 0xd76aa478
      let d := FF d a b c (x 1) S12 0xe8c7b756
      let c := FF c d a b (x 2) S13 0x242070db
      let b := FF b c d a (x 3) S14 0xc1bdceee
      let a := FF a b c d (x 4) S11 0xf57c0faf
      let d := FF d a b c (x 5) S12 0x4787c62a
      let c := FF c d a b (x 6) S13 0xa8304613
      let b := FF b c d a (x 7) S14 0xfd469501
      let a := FF a b c d (x 8) S11 0x698098d8
      let d := FF d a b c (x 9) S12 0x8b44f7af
      let c := FF c d a b (x 10) S13 0xffff5bb1
      let b := FF b c d a (x 11) S14 0x895cd7be
      let a := FF a b c d (x 12) S11 0x6b901122
      let d := FF d a b c (x 13) S12 0xfd987193
      let c := FF c d a b (x 14) S13 0xa679438e
      let b := FF b c d a (x 15) S14 0x49b40821
      ⟨a, b, c, d⟩

def round2 (x : ℕ → UInt32) : MDBuffer → MDBuffer
  | ⟨a, b, c, d⟩ =>
      let a := GG a b c d (x 1) S21 0xf61e2562
      let d := GG d a b c (x 6) S22 0xc040b340
      let c := GG c d a b (x 11) S23 0x265e5a51
      let b := GG b c d a (x 0) S24 0xe9b6c7aa
      let a := GG a b c d (x 5) S21 0xd62f105d
      let d := GG d a b c (x 10) S22 0x2441453
      let c := GG c d a b (x 15) S23 0xd8a1e681
      let b := GG b c d a (x 4) S24 0xe7d3fbc8
      let a := GG a b c d (x 9) S21 0x21e1cde6
      let d := GG d a b c (x 14) S22 0xc33707d6
      let c := GG c d a b (x 3) S23 0xf4d50d87
      let b := GG b c d a (x 8) S24 0x455a14ed
      let a := GG a b c d (x 13) S21 0xa9e3e905
      let d := GG d a b c (x 2) S22 0xfcefa3f8
      let c := GG c d a b (x 7) S23 0x676f02d9
      let b := GG b c d a (x 12) S24 0x8d2a4c8a
      ⟨a, b, c, d⟩

def round3 (x : ℕ → UInt32) : MDBuffer → MDBuffer
  | ⟨a, b, c, d⟩ =>
      let a := HH a b c d (x 5) S31 0xfffa3942
      let d := HH d a b c (x 8) S32 0x8771f681
      let c := HH c d a b (x 11) S33 0x6d9d6122
      let b := HH b c d a (x 14) S34 0xfde5380c
      let a := HH a b c d (x 1) S31 0xa4beea44
      let d := HH d a b c (x 4) S32 0x4bdecfa9
      let c := HH c d a b (x 7) S33 0xf6bb4b60
      let b := HH b c d a (x 10) S34 0xbebfbc70
      let a := HH a b c d (x 13) S31 0x289b7ec6
      let d := HH d a b c (x 0) S32 0xeaa127fa
      let c := HH c d a b (x 3) S33 0xd4ef3085
      let b := HH b c d a (x 6) S34 0x4881d05
      let a := HH a b c d (x 9) S31 0xd9d4d039
      let d := HH d a b c (x 12) S32 0xe6db99e5
      let c := HH c d a b (x 15) S33 0x1fa27cf8
      let b := HH b c d a (x 2) S34 0xc4ac5665
      ⟨a, b, c, d⟩

def round4 (x : ℕ → UInt32) : MDBuffer → MDBuffer
  | ⟨a, b, c, d⟩ =>
      let a := II a b c d (x 0) S41 0xf4292244
      let d := II d a b c (x 7) S42 0x432aff97
      let c := II c d a b (x 14) S43 0xab9423a7
      let b := II b c d a (x 5) S44 0xfc93a039
      let a := II a b c d (x 12) S41 0x655b59c3
      let d := II d a b c (x 3) S42 0x8f0ccc92
      let c := II c d a b (x 10) S43 0xffeff47d
      let b := II b c d a (x 1) S44 0x85845dd1
      let a := II a b c d (x 8) S41 0x6fa87e4f
      let d := II d a b c (x 15) S42 0xfe2ce6e0
      let c := II c d a b (x 6) S43 0xa3014314
      let b := II b c d a (x 13) S44 0x4e0811a1
      let a := II a b c d (x 4) S41 0xf7537e82
      let d := II d a b c (x 11) S42 0xbd3af235
      let c := II c d a b (x 2) S43 0x2ad7d2bb
      let b := II b c d a (x 9) S44 0xeb86d391
      ⟨a, b, c, d⟩

/-- `transform` acts on `_state` only: the four rounds on the words of a block, added to the old
words. -/
def transform (state : MDBuffer) (block : List UInt8) : MDBuffer :=
  let words := decode block
  let x := fun k => words.getD k 0
  let result := round4 x (round3 x (round2 x (round1 x state)))
  ⟨state.a + result.a, state.b + result.b, state.c + result.c, state.d + result.d⟩

/-! ## The object -/

def PADDING : List UInt8 :=
  0x80 :: List.replicate 63 0

def HEX : List Char :=
  ['0', '1', '2', '3',
   '4', '5', '6', '7',
   '8', '9', 'a', 'b',
   'c', 'd', 'e', 'f']

def BUFFER_SIZE : ℕ := 1024

/-- The fields of an object; the four words of `_state` are named by their letters. -/
structure MD5 where
  _state : MDBuffer
  _count : UInt32 × UInt32
  _buffer : List UInt8
  length_buffer : _buffer.length = 64
  _digest : List UInt8
  length_digest : _digest.length = 16
  _finished : Bool

/-- An input file stream: the bytes which have not been read, the state bits, and whether the
file is open. -/
structure IFStream where
  rest : List UInt8
  eofbit : Bool
  failbit : Bool
  badbit : Bool
  is_open : Bool

namespace IFStream

def opened (content : List UInt8) : IFStream :=
  ⟨content, false, false, false, true⟩

/-- `read` of up to `n` bytes, together with the bytes which `gcount` counts. -/
def read (stream : IFStream) (n : ℕ) : List UInt8 × IFStream :=
  if stream.eofbit || stream.failbit || stream.badbit then
    ([], { stream with failbit := true })
  else if n ≤ stream.rest.length then
    (stream.rest.take n, { stream with rest := stream.rest.drop n })
  else
    (stream.rest, { stream with rest := [], eofbit := true, failbit := true })

def close (stream : IFStream) : IFStream :=
  { stream with is_open := false }

end IFStream

namespace MD5

def copyToBuffer (m : MD5) (index : UInt32) (source : List UInt8) : MD5 :=
  { m with
    _buffer := overwrite m._buffer index.toNat source
    length_buffer := (length_overwrite _ _ _).trans m.length_buffer }

def reset (m : MD5) : MD5 :=
  { m with
    _finished := false
    _count := (0, 0)
    _state := ⟨0x67452301, 0xefcdab89, 0x98badcfe, 0x10325476⟩ }

/-- The index of the next byte in the buffer, as `update` and `final` compute it. -/
def index (m : MD5) : UInt32 :=
  (m._count.1 >>> 3) &&& 0x3f

def addCount (m : MD5) (length : ℕ) : MD5 :=
  let low := m._count.1 + (UInt32.ofNat length <<< 3)
  let high := if low < UInt32.ofNat length <<< 3 then m._count.2 + 1 else m._count.2
  { m with _count := (low, high + (UInt32.ofNat length >>> 29)) }

/-- The loop of `update` over whole blocks of the input; `none` if it has not come to its end
after `fuel` rounds. -/
def transformBlocks (input : List UInt8) : ℕ → UInt32 → MDBuffer → Option (UInt32 × MDBuffer)
  | 0, _, _ => none
  | fuel + 1, i, state =>
      if (i + 63).toNat < input.length then
        transformBlocks input fuel (i + 64)
          (transform state ((input.drop i.toNat).take 64))
      else
        some (i, state)

/-- `update` with the bytes of an input buffer or of a string. -/
def update (m : MD5) (input : List UInt8) : Option MD5 :=
  let index := m.index
  let m := { m with _finished := false }
  let m := m.addCount input.length
  let partLen := 64 - index
  if partLen.toNat ≤ input.length then
    let m := m.copyToBuffer index (input.take partLen.toNat)
    let state := transform m._state m._buffer
    (transformBlocks input (input.length / 64 + 1) partLen state).map fun (i, state) =>
      { m with _state := state }.copyToBuffer 0 (input.drop i.toNat)
  else
    some (m.copyToBuffer index input)

/-- The loop of `update` over the reads from a stream. -/
def updateReads : ℕ → MD5 → IFStream → Option (MD5 × IFStream)
  | 0, _, _ => none
  | fuel + 1, m, stream =>
      if stream.eofbit then some (m, stream)
      else
        let (buffer, stream) := stream.read BUFFER_SIZE
        if 0 < buffer.length then
          (m.update buffer).bind fun m => updateReads fuel m stream
        else updateReads fuel m stream

def updateStream (m : MD5) (stream : IFStream) : Option (MD5 × IFStream) :=
  if stream.failbit || stream.badbit then some (m, stream)
  else
    (updateReads (stream.rest.length / BUFFER_SIZE + 2) m stream).map fun (m, stream) =>
      (m, stream.close)

def final (m : MD5) : Option MD5 :=
  let oldState := m._state
  let oldCount := m._count
  let bits := encode [m._count.1, m._count.2]
  let padLen := if m.index < 56 then 56 - m.index else 120 - m.index
  (m.update (PADDING.take padLen.toNat)).bind fun m =>
    (m.update bits).map fun m =>
      { m with
        _digest := encode [m._state.a, m._state.b, m._state.c, m._state.d]
        length_digest := length_encode _
        _state := oldState
        _count := oldCount }

/-- `digest`: the object afterwards and the bytes of the digest. -/
def digest (m : MD5) : Option (MD5 × List UInt8) :=
  if !m._finished then
    (final { m with _finished := true }).map fun m => (m, m._digest)
  else some (m, m._digest)

def bytesToHexString (input : List UInt8) : List Char :=
  input.flatMap fun t => [HEX.getD (t.toNat / 16) '0', HEX.getD (t.toNat % 16) '0']

def toString (m : MD5) : Option (MD5 × List Char) :=
  m.digest.map fun (m, digest) => (m, bytesToHexString digest)

/-! ### Constructors

A constructor runs on memory with arbitrary contents. -/

def new (memory : MD5) : MD5 :=
  memory.reset

/-- The constructors from an input buffer and from a string. -/
def newOfBytes (memory : MD5) (input : List UInt8) : Option MD5 :=
  memory.reset.update input

def newOfStream (memory : MD5) (stream : IFStream) : Option (MD5 × IFStream) :=
  memory.reset.updateStream stream

end MD5

end AndroidCollection.Md5
