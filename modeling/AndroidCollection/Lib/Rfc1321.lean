import AndroidCollection.Lib.BlockStream
import Mathlib.Data.Nat.Digits.Defs

/-!
# The MD5 message-digest algorithm

The algorithm of RFC 1321 for messages of whole bytes. A message is padded to a
multiple of 64 bytes, absorbed block by block into a buffer of four words, and
the buffer is the digest. The 64 operations on a block are given by their index:
the round selects the auxiliary function and the order in which the words of the
block are used, and after each operation the four words of the buffer exchange
their roles.
-/

namespace Rfc1321

structure MDBuffer where
  a : UInt32
  b : UInt32
  c : UInt32
  d : UInt32
deriving DecidableEq

def init : MDBuffer :=
  ⟨0x67452301, 0xefcdab89, 0x98badcfe, 0x10325476⟩

/-- A word from its bytes, low-order byte first. -/
def word (bytes : List UInt8) : UInt32 :=
  UInt32.ofNat (Nat.ofDigits 256 (bytes.map UInt8.toNat))

/-- The low-order bytes of a number, low-order byte first. -/
def littleEndian (count value : ℕ) : List UInt8 :=
  (List.range count).map fun k => UInt8.ofNat (value / 256 ^ k)

def blockWord (block : List UInt8) (k : ℕ) : UInt32 :=
  word ((block.drop (4 * k)).take 4)

def rotateLeft (x : UInt32) (s : ℕ) : UInt32 :=
  ⟨x.toBitVec.rotateLeft s⟩

def auxiliary (round : ℕ) (x y z : UInt32) : UInt32 :=
  match round with
  | 0 => (x &&& y) ||| (~~~x &&& z)
  | 1 => (x &&& z) ||| (y &&& ~~~z)
  | 2 => x ^^^ y ^^^ z
  | _ => y ^^^ (x ||| ~~~z)

/-- The word of the block which operation `i` uses. -/
def wordIndex (i : ℕ) : ℕ :=
  match i / 16 with
  | 0 => i
  | 1 => (5 * i + 1) % 16
  | 2 => (3 * i + 5) % 16
  | _ => 7 * i % 16

theorem wordIndex_lt (i : ℕ) : wordIndex i < 16 := by
  unfold wordIndex
  split <;> omega

/-- The shift amounts of a round, which repeat after four operations. -/
def shiftAmounts (round : ℕ) : List ℕ :=
  match round with
  | 0 => [7, 12, 17, 22]
  | 1 => [5, 9, 14, 20]
  | 2 => [4, 11, 16, 23]
  | _ => [6, 10, 15, 21]

theorem shiftAmounts_bounded {round amount : ℕ} (listed : amount ∈ shiftAmounts round) :
    0 < amount ∧ amount < 32 := by
  unfold shiftAmounts at listed
  split at listed <;> (simp at listed; omega)

/-- The integer parts of `4294967296 * |sin (i + 1)|`. -/
def T : List UInt32 :=
  [0xd76aa478, 0xe8c7b756, 0x242070db, 0xc1bdceee,
   0xf57c0faf, 0x4787c62a, 0xa8304613, 0xfd469501,
   0x698098d8, 0x8b44f7af, 0xffff5bb1, 0x895cd7be,
   0x6b901122, 0xfd987193, 0xa679438e, 0x49b40821,
   0xf61e2562, 0xc040b340, 0x265e5a51, 0xe9b6c7aa,
   0xd62f105d, 0x02441453, 0xd8a1e681, 0xe7d3fbc8,
   0x21e1cde6, 0xc33707d6, 0xf4d50d87, 0x455a14ed,
   0xa9e3e905, 0xfcefa3f8, 0x676f02d9, 0x8d2a4c8a,
   0xfffa3942, 0x8771f681, 0x6d9d6122, 0xfde5380c,
   0xa4beea44, 0x4bdecfa9, 0xf6bb4b60, 0xbebfbc70,
   0x289b7ec6, 0xeaa127fa, 0xd4ef3085, 0x04881d05,
   0xd9d4d039, 0xe6db99e5, 0x1fa27cf8, 0xc4ac5665,
   0xf4292244, 0x432aff97, 0xab9423a7, 0xfc93a039,
   0x655b59c3, 0x8f0ccc92, 0xffeff47d, 0x85845dd1,
   0x6fa87e4f, 0xfe2ce6e0, 0xa3014314, 0x4e0811a1,
   0xf7537e82, 0xbd3af235, 0x2ad7d2bb, 0xeb86d391]

/-- Operation `i` on the buffer, whose words then exchange their roles. -/
def operation (words : ℕ → UInt32) (buffer : MDBuffer) (i : ℕ) : MDBuffer where
  a := buffer.d
  b := buffer.b + rotateLeft
    (buffer.a + auxiliary (i / 16) buffer.b buffer.c buffer.d + words (wordIndex i) + T.getD i 0)
    ((shiftAmounts (i / 16)).getD (i % 4) 0)
  c := buffer.b
  d := buffer.c

def compress (buffer : MDBuffer) (block : List UInt8) : MDBuffer :=
  let result := (List.range 64).foldl (operation (blockWord block)) buffer
  ⟨buffer.a + result.a, buffer.b + result.b, buffer.c + result.c, buffer.d + result.d⟩

/-- The padding of a message of `length` bytes: a one bit, zeros up to 56 modulo 64, and the
number of bits in eight bytes. -/
def padding (length : ℕ) : List UInt8 :=
  0x80 :: List.replicate ((119 - length % 64) % 64) 0 ++ littleEndian 8 (8 * length)

def output (buffer : MDBuffer) : List UInt8 :=
  littleEndian 4 buffer.a.toNat ++ littleEndian 4 buffer.b.toNat ++
    littleEndian 4 buffer.c.toNat ++ littleEndian 4 buffer.d.toNat

def md5 (message : List UInt8) : List UInt8 :=
  output (BlockStream.absorb 64 compress init (message ++ padding message.length)).1

/-- Lower-case hexadecimal digits of bytes. -/
def hex (bytes : List UInt8) : List Char :=
  bytes.flatMap fun byte => [Nat.digitChar (byte.toNat / 16), Nat.digitChar (byte.toNat % 16)]

example : hex (md5 [0x61, 0x62, 0x63]) = "900150983cd24fb0d6963f7d28e17f72".toList := by
  decide +kernel

end Rfc1321
