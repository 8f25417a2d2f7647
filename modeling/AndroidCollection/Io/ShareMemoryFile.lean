import AndroidCollection.Java.Basic
import AndroidCollection.Lib.Machine
import Mathlib.Data.List.Induction

/-!
# Memory shared through a mapped file

`ShareMemoryFile` maps a file of at least `mFileLen` bytes and lets its users
write and read ranges of it. A `write` checks the position and the length
against the size of the file, in 32-bit arithmetic, and then stores the whole
buffer; whatever the channel or the mapped buffer throws is caught and answered
with 0. The position of the mapped buffer is set before every transfer, so it
is not part of the state.
-/

namespace AndroidCollection.Io

open Overwrite

/-- The exceptions caught by `write` and `read`. -/
inductive TransferException where
  | illegalArgumentException
  | nullPointerException
  | bufferOverflowException
  | indexOutOfBoundsException
deriving DecidableEq, Repr

def mFileLen : ℕ :=
  1024 * 1204 * 4

/-- An open file: the mapped buffer has the recorded size, which is an `int`. -/
structure ShareMemoryFile where
  mFileSize : ℕ
  mapBuf : List UInt8
  length_mapBuf : mapBuf.length = mFileSize
  mFileSize_lt : mFileSize < 2147483648

namespace ShareMemoryFile

/-- The constructor on a file with the given contents: a short file is filled with zeros. -/
def create (contents : List UInt8) (addressable : contents.length < 2147483648) :
    ShareMemoryFile where
  mFileSize := if contents.length < mFileLen then mFileLen else contents.length
  mapBuf := contents ++ List.replicate (mFileLen - contents.length) 0
  length_mapBuf := by
    rw [List.length_append, List.length_replicate]
    split <;> omega
  mFileSize_lt := by
    have : mFileLen < 2147483648 := by decide
    split <;> omega

variable (file : ShareMemoryFile)

/-- `FileChannel.lock`, which refuses a negative position or size. -/
def lock (position size : ℤ) : Except TransferException Unit :=
  if position < 0 ∨ size < 0 then .error .illegalArgumentException else .ok ()

/-- `mapBuf.position(position)`. -/
def position (position : ℤ) : Except TransferException ℕ :=
  if position < 0 ∨ file.mFileSize < position then .error .illegalArgumentException
  else .ok position.toNat

/-- `ByteBuffer.wrap`. -/
def wrap (buff : Option (List UInt8)) : Except TransferException (List UInt8) :=
  match buff with
  | none => .error .nullPointerException
  | some bytes => .ok bytes

/-- `mapBuf.put` of a whole buffer. -/
def put (position : ℕ) (bytes : List UInt8) : Except TransferException ShareMemoryFile :=
  if file.mFileSize - position < bytes.length then
    .error .bufferOverflowException
  else
    .ok { file with
      mapBuf := overwrite file.mapBuf position bytes
      length_mapBuf := by rw [length_overwrite, file.length_mapBuf] }

/-- `mapBuf.get(buff, 0, len)`: the buffer of the caller afterwards. -/
def get (position : ℕ) (buff : Option (List UInt8)) (len : ℕ) :
    Except TransferException (List UInt8) :=
  match buff with
  | none => .error .nullPointerException
  | some bytes =>
      if bytes.length < len then .error .indexOutOfBoundsException
      else .ok (overwrite bytes 0 ((file.mapBuf.drop position).take len))

/-- The file after a `write` and the returned number. -/
def write (ps len : Int32) (buff : Option (List UInt8)) : ShareMemoryFile × Int32 :=
  if file.mFileSize ≤ ps.toInt ∨ file.mFileSize ≤ (ps + len).toInt then
    (file, 0)
  else
    let attempt : Except TransferException (ShareMemoryFile × Int32) := do
      lock ps.toInt len.toInt
      let start ← file.position ps.toInt
      let byteBuffer ← wrap buff
      let stored ← file.put start byteBuffer
      pure (stored, len)
    match attempt with
    | .ok result => result
    | .error _ => (file, 0)

/-- The returned number and the buffer of the caller after a `read`. -/
def read (ps len : Int32) (buff : Option (List UInt8)) : Int32 × Option (List UInt8) :=
  if file.mFileSize ≤ ps.toInt then
    (0, buff)
  else
    let attempt : Except TransferException (Int32 × Option (List UInt8)) := do
      lock ps.toInt len.toInt
      let start ← file.position ps.toInt
      let remaining := file.mFileSize - start
      let count := if remaining < len.toInt then Int32.ofNat remaining else len
      if 0 < count.toInt then
        let filled ← file.get start buff count.toInt.toNat
        pure (count, some filled)
      else
        pure (count, buff)
    match attempt with
    | .ok result => result
    | .error _ => (0, buff)

/-! ## Runs -/

inductive Request where
  | write (ps len : Int32) (buff : Option (List UInt8))
  | read (ps len : Int32) (buff : Option (List UInt8))

/-- What the caller has after a call: the returned number and its own buffer. -/
structure Reply where
  returned : Int32
  buff : Option (List UInt8)

def react (file : ShareMemoryFile) : Request → ShareMemoryFile × Reply
  | .write ps len buff => ((file.write ps len buff).1, ⟨(file.write ps len buff).2, buff⟩)
  | .read ps len buff => (file, ⟨(file.read ps len buff).1, (file.read ps len buff).2⟩)

/-! ## A bounded byte memory -/

/-- The range lies within the memory and the buffer is long enough for it. -/
def InBounds (size : ℕ) (ps len : Int32) (bytes : List UInt8) : Prop :=
  0 ≤ ps.toInt ∧ 0 ≤ len.toInt ∧ len.toInt ≤ bytes.length ∧ ps.toInt + len.toInt ≤ size

instance (size : ℕ) (ps len : Int32) (bytes : List UInt8) :
    Decidable (InBounds size ps len bytes) :=
  inferInstanceAs (Decidable (_ ∧ _))

/-- The store which a bounded memory makes for a request, if any. -/
def acceptedStore (size : ℕ) : Request → List (ℕ × List UInt8)
  | .write ps len (some bytes) =>
      if InBounds size ps len bytes then [(ps.toInt.toNat, bytes.take len.toInt.toNat)] else []
  | .write _ _ none => []
  | .read _ _ _ => []

/-- The contents of the memory when the stores of the requests have been made in order. -/
def memoryAfter (contents : List UInt8) (done : List Request) : List UInt8 :=
  overwriteAll contents (done.flatMap (acceptedStore contents.length))

/-- The answer of a bounded memory with the given contents. A read out of bounds may be answered
in any way. -/
def Answers (contents : List UInt8) : Request → Reply → Prop
  | .write ps len (some bytes), reply =>
      reply.returned = if InBounds contents.length ps len bytes then len else 0
  | .write _ _ none, reply => reply.returned = 0
  | .read ps len (some bytes), reply =>
      InBounds contents.length ps len bytes →
        reply.returned = len ∧
          reply.buff =
            some (overwrite bytes 0
              ((contents.drop ps.toInt.toNat).take len.toInt.toNat))
  | .read _ _ none, _ => True

/-- Every request of the run is answered as by a bounded memory, and leaves the file with the
contents of that memory. -/
def BehavesAsMemory (file : ShareMemoryFile) (requests : List Request) : Prop :=
  ∀ done request rest, requests = done ++ request :: rest →
    Answers (memoryAfter file.mapBuf done) request
        (react (Machine.after react file done) request).2 ∧
      (Machine.after react file (done ++ [request])).mapBuf =
        memoryAfter file.mapBuf (done ++ [request])

end ShareMemoryFile

end AndroidCollection.Io
