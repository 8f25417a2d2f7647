import AndroidCollection.Java.Integer

/-!
# Bytes as hexadecimal text

`byte2hex` writes each byte with two digits, and the digits above nine are
lowercase letters. `hexStringToByte` looks its digits up among the uppercase
ones, so a lowercase letter is not found and counts as -1, all bits of which are
set. A pair of digits then comes back as its byte only if the letter in it stands
where those bits belong.
-/

namespace AndroidCollection.Ble

open Java

/-! ## Writing -/

/-- The two digits which the loop of `byte2hex` appends for a byte. -/
def twoDigits (byte : UInt8) : JString :=
  let temp := toHexString (byte.toInt8.toInt32 &&& 0xFF)
  if temp.length = 1 then 0x30 :: temp else temp

def byte2hex (buffer : List UInt8) : JString :=
  buffer.foldl (fun h byte => h ++ twoDigits byte) []

/-! ## Reading -/

def upperDigits : JString :=
  ascii ['0', '1', '2', '3', '4', '5', '6', '7', '8', '9', 'A', 'B', 'C', 'D', 'E', 'F']

/-- `String.indexOf(char)`. -/
def indexOf (text : JString) (unit : UInt16) : Int32 :=
  match text.idxOf? unit with
  | some index => Int32.ofNat index
  | none => -1

def toByte (c : UInt16) : UInt8 :=
  (indexOf upperDigits c).toInt8.toUInt8

/-- `(byte) (toByte(high) << 4 | toByte(low))`, where both bytes are widened with their signs. -/
def joinDigits (high low : UInt16) : UInt8 :=
  ((toByte high).toInt8.toInt32 <<< 4 ||| (toByte low).toInt8.toInt32).toInt8.toUInt8

def hexStringToByte (hex : JString) : List UInt8 :=
  List.ofFn fun i : Fin (hex.length / 2) =>
    joinDigits (hex.get ⟨i * 2, by omega⟩) (hex.get ⟨i * 2 + 1, by omega⟩)

/-! ## One byte -/

/-- Its digits are decimal ones, but for a high or for both digits of all set bits. -/
def Readable (byte : UInt8) : Prop :=
  byte.toNat % 16 ≤ 9 ∧ (byte.toNat / 16 ≤ 9 ∨ byte.toNat / 16 = 15) ∨ byte.toNat = 0xFF

instance : DecidablePred Readable :=
  fun _ => inferInstanceAs (Decidable (_ ∨ _))

theorem exists_twoDigits (byte : UInt8) :
    ∃ high low, twoDigits byte = [high, low] ∧ (joinDigits high low = byte ↔ Readable byte) := by
  revert byte
  apply forall_byte
  intro value
  refine ⟨(twoDigits (UInt8.ofNat value)).getD 0 0, (twoDigits (UInt8.ofNat value)).getD 1 0, ?_⟩
  revert value
  decide +kernel

/-! ## All bytes -/

theorem byte2hex_eq_flatMap (buffer : List UInt8) : byte2hex buffer = buffer.flatMap twoDigits := by
  have started : ∀ h, buffer.foldl (fun h byte => h ++ twoDigits byte) h =
      h ++ buffer.flatMap twoDigits := by
    induction buffer with
    | nil => simp
    | cons byte buffer ih => simp [ih]
  exact started []

theorem byte2hex_cons (byte : UInt8) (buffer : List UInt8) :
    byte2hex (byte :: buffer) = twoDigits byte ++ byte2hex buffer := by
  simp [byte2hex_eq_flatMap]

theorem hexStringToByte_cons_cons (high low : UInt16) (hex : JString) :
    hexStringToByte (high :: low :: hex) = joinDigits high low :: hexStringToByte hex := by
  apply List.ext_getElem
  · simp [hexStringToByte]
    omega
  · intro index left right
    cases index with
    | zero => simp [hexStringToByte]
    | succ index =>
        simp only [hexStringToByte, List.getElem_ofFn, List.getElem_cons_succ, List.get_eq_getElem]
        have even : (index + 1) * 2 = index * 2 + 1 + 1 := by omega
        simp only [even, List.getElem_cons_succ]

/-- Exactly the arrays of readable bytes are read back. -/
theorem hexStringToByte_byte2hex_iff (b : List UInt8) :
    hexStringToByte (byte2hex b) = b ↔ ∀ byte ∈ b, Readable byte := by
  induction b with
  | nil => exact iff_of_true rfl fun _ member => absurd member List.not_mem_nil
  | cons byte b ih =>
      rcases exists_twoDigits byte with ⟨high, low, digits, joined⟩
      rw [byte2hex_cons, digits, List.cons_append, List.cons_append, List.nil_append,
        hexStringToByte_cons_cons, List.cons.injEq, joined, ih, List.forall_mem_cons]

/-- The byte 0x0A is written as `0a`, and read as -1. -/
theorem hexStringToByte_byte2hex_ten : ¬∀ b : List UInt8, hexStringToByte (byte2hex b) = b := by
  intro all
  exact absurd (all [0x0A]) (by decide +kernel)

end AndroidCollection.Ble
