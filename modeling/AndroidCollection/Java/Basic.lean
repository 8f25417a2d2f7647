import AndroidCollection.Lib.Overwrite
import Mathlib.Tactic.NormNum

/-!
# Java values

Bytes are eight-bit words. Java's `byte` is signed, so a byte used in `int`
arithmetic is widened with its sign; `byteToInt` is that widening.
`arraycopy` is `System.arraycopy` between two different arrays: it checks every
bound before it copies anything, so a copy which throws changes nothing.
-/

namespace AndroidCollection.Java

/-- The exceptions which the modelled code can raise. -/
inductive Throwable where
  | nullPointerException
  | arrayIndexOutOfBoundsException
deriving DecidableEq, Repr

/-- The identity of an object which is only stored and passed on. -/
abbrev Ref := ℕ

section Throwing

variable {ε α β : Type}

@[simp]
theorem ok_bind (value : α) (next : α → Except ε β) : (Except.ok value >>= next) = next value :=
  rfl

@[simp]
theorem error_bind (exception : ε) (next : α → Except ε β) :
    (Except.error exception >>= next) = .error exception :=
  rfl

end Throwing

def byteToInt (byte : UInt8) : ℤ :=
  byte.toInt8.toInt

theorem byteToInt_eq (byte : UInt8) :
    byteToInt byte = if byte.toNat < 128 then (byte.toNat : ℤ) else byte.toNat - 256 := by
  change byte.toBitVec.toInt = _
  rw [BitVec.toInt_eq_toNat_cond]
  change (if 2 * byte.toNat < 256 then (byte.toNat : ℤ) else byte.toNat - 256) = _
  split <;> split <;> omega

/-- `System.arraycopy` from one array into another. -/
def arraycopy {α : Type} (src : List α) (srcPos : ℤ) (dest : List α) (destPos length : ℤ) :
    Except Throwable (List α) :=
  if srcPos < 0 ∨ destPos < 0 ∨ length < 0 ∨ src.length < srcPos + length ∨
      dest.length < destPos + length then
    .error .arrayIndexOutOfBoundsException
  else
    .ok (Overwrite.overwrite dest destPos.toNat ((src.drop srcPos.toNat).take length.toNat))

theorem length_of_arraycopy {α : Type} {src dest result : List α} {srcPos destPos length : ℤ}
    (copied : arraycopy src srcPos dest destPos length = .ok result) :
    result.length = dest.length := by
  unfold arraycopy at copied
  split at copied
  · cases copied
  · cases copied
    exact Overwrite.length_overwrite _ _ _

/-! ## Exact results of `int` arithmetic -/

section Exact

variable {first second : Int32}

theorem bmod_of_inRange {value : ℤ} (low : -2147483648 ≤ value) (high : value < 2147483648) :
    value.bmod (2 ^ 32) = value := by
  rw [Int.bmod_def]
  split <;> omega

theorem toInt_add_exact (low : -2147483648 ≤ first.toInt + second.toInt)
    (high : first.toInt + second.toInt < 2147483648) :
    (first + second).toInt = first.toInt + second.toInt := by
  rw [Int32.toInt_add, bmod_of_inRange low high]

theorem toInt_sub_exact (low : -2147483648 ≤ first.toInt - second.toInt)
    (high : first.toInt - second.toInt < 2147483648) :
    (first - second).toInt = first.toInt - second.toInt := by
  rw [Int32.toInt_sub, bmod_of_inRange low high]

theorem toInt_mul_exact (low : -2147483648 ≤ first.toInt * second.toInt)
    (high : first.toInt * second.toInt < 2147483648) :
    (first * second).toInt = first.toInt * second.toInt := by
  rw [Int32.toInt_mul, bmod_of_inRange low high]

/-- An `int` below the largest one can be incremented. -/
theorem toInt_add_one (below : first.toInt < 2147483647) :
    (first + 1).toInt = first.toInt + 1 := by
  have bound := first.le_toInt
  have one : (1 : Int32).toInt = 1 := rfl
  rw [toInt_add_exact (by omega) (by omega), one]

theorem toInt_sub_one (above : -2147483648 < first.toInt) :
    (first - 1).toInt = first.toInt - 1 := by
  have bound := first.toInt_lt
  have one : (1 : Int32).toInt = 1 := rfl
  rw [toInt_sub_exact (by omega) (by omega), one]

end Exact

/-! ## Words and their bytes -/

section Words

theorem append_bytes (bits : BitVec 32) :
    bits.extractLsb' 24 8 ++ bits.extractLsb' 16 8 ++ bits.extractLsb' 8 8 ++
      bits.extractLsb' 0 8 = bits := by
  have upper : bits.extractLsb' 24 8 ++ bits.extractLsb' 16 8 = bits.extractLsb' 16 16 :=
    BitVec.extractLsb'_append_extractLsb'_eq_extractLsb' rfl
  have rest : bits.extractLsb' 16 16 ++ bits.extractLsb' 8 8 = bits.extractLsb' 8 24 :=
    BitVec.extractLsb'_append_extractLsb'_eq_extractLsb' rfl
  rw [upper, rest]
  exact BitVec.extractLsb'_append_extractLsb'

variable (a b c d : BitVec 8)

theorem first_byte : (a ++ b ++ c ++ d).extractLsb' 24 8 = a := by
  calc (a ++ b ++ c ++ d).extractLsb' 24 8
    _ = (a ++ b ++ c).extractLsb' 16 8 := BitVec.extractLsb'_append_eq_of_le (by decide)
    _ = (a ++ b).extractLsb' 8 8 := BitVec.extractLsb'_append_eq_of_le (by decide)
    _ = a := BitVec.extractLsb'_append_eq_left

theorem second_byte : (a ++ b ++ c ++ d).extractLsb' 16 8 = b := by
  calc (a ++ b ++ c ++ d).extractLsb' 16 8
    _ = (a ++ b ++ c).extractLsb' 8 8 := BitVec.extractLsb'_append_eq_of_le (by decide)
    _ = (a ++ b).extractLsb' 0 8 := BitVec.extractLsb'_append_eq_of_le (by decide)
    _ = b := BitVec.extractLsb'_append_eq_right

theorem third_byte : (a ++ b ++ c ++ d).extractLsb' 8 8 = c := by
  calc (a ++ b ++ c ++ d).extractLsb' 8 8
    _ = (a ++ b ++ c).extractLsb' 0 8 := BitVec.extractLsb'_append_eq_of_le (by decide)
    _ = c := BitVec.extractLsb'_append_eq_right

theorem fourth_byte : (a ++ b ++ c ++ d).extractLsb' 0 8 = d :=
  BitVec.extractLsb'_append_eq_right

end Words

end AndroidCollection.Java
