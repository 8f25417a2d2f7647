import Mathlib.Algebra.Group.Nat.Defs
import Mathlib.Tactic.Common

/-!
# The Base64 encoding

The encoding of RFC 4648, section 4. Three bytes are a group of 24 bits which is
cut into four digits of six bits. A last group of one or two bytes is filled up
with zero bits to whole digits, and the text with padding characters to four.
-/

namespace Rfc4648

def digit (value : ℕ) : Char :=
  if value < 26 then Char.ofNat ('A'.toNat + value)
  else if value < 52 then Char.ofNat ('a'.toNat + (value - 26))
  else if value < 62 then Char.ofNat ('0'.toNat + (value - 52))
  else if value = 62 then '+'
  else '/'

def pad : Char :=
  '='

/-- The 24 bits of a group of three bytes. -/
def group (first second third : UInt8) : ℕ :=
  first.toNat * 65536 + second.toNat * 256 + third.toNat

def digits (count value : ℕ) : List Char :=
  (List.range count).map fun k => digit (value / 64 ^ (3 - k) % 64)

/-- The Base64 text of bytes. -/
def encode : List UInt8 → List Char
  | [] => []
  | [first] => digits 2 (group first 0 0) ++ [pad, pad]
  | [first, second] => digits 3 (group first second 0) ++ [pad]
  | first :: second :: third :: bytes => digits 4 (group first second third) ++ encode bytes

example : encode [0x66, 0x6F, 0x6F, 0x62] = ['Z', 'm', '9', 'v', 'Y', 'g', '=', '='] := by
  decide

end Rfc4648
