import AndroidCollection.Java.Text
import Mathlib.Data.List.DropRight

/-!
# Integers as text

`Integer.toString`, `Integer.parseInt`, `Integer.toHexString` and `String.trim`, on the code units
of a string. Parsing accepts a sign and the decimal digits of every script of
the basic plane, as `Character.digit` does; printing writes ASCII digits only,
and parsing inverts it.
-/

namespace AndroidCollection.Java

/-- The digit zero of each script whose decimal digits lie in the basic plane. -/
def zeroUnits : List ℕ :=
  [0x0030, 0x0660, 0x06F0, 0x07C0, 0x0966, 0x09E6, 0x0A66, 0x0AE6, 0x0B66, 0x0BE6, 0x0C66,
    0x0CE6, 0x0D66, 0x0DE6, 0x0E50, 0x0ED0, 0x0F20, 0x1040, 0x1090, 0x17E0, 0x1810, 0x1946,
    0x19D0, 0x1A80, 0x1A90, 0x1B50, 0x1BB0, 0x1C40, 0x1C50, 0xA620, 0xA8D0, 0xA900, 0xA9D0,
    0xA9F0, 0xAA50, 0xABF0, 0xFF10]

/-- `Character.digit(unit, 10)`; `none` stands for -1. -/
def digitValue (unit : UInt16) : Option ℕ :=
  (zeroUnits.find? fun base => base ≤ unit.toNat && unit.toNat < base + 10).map
    fun base => unit.toNat - base

/-- The value of a run of digits, `none` if some unit is not a digit. -/
def digitsValue (units : List UInt16) : Option ℕ :=
  units.foldlM (fun value unit => (digitValue unit).map (10 * value + ·)) 0

/-- `Integer.parseInt`; `none` stands for a `NumberFormatException`. -/
def parseInt (text : JString) : Option Int32 :=
  let negative := text.head? = some 0x2D
  let magnitude := if negative ∨ text.head? = some 0x2B then text.drop 1 else text
  if magnitude = [] then
    none
  else
    (digitsValue magnitude).bind fun value =>
      if negative then
        if value ≤ 2147483648 then some (Int32.ofInt (-value)) else none
      else
        if value < 2147483648 then some (Int32.ofNat value) else none

/-- The decimal digits of a number. -/
def decimal (value : ℕ) : JString :=
  ascii (Nat.toDigits 10 value)

/-- `Integer.toString`. -/
def intToString (value : Int32) : JString :=
  if value.toInt < 0 then 0x2D :: decimal (-value.toInt).toNat else decimal value.toInt.toNat

/-- `Integer.toHexString`: the digits of the value without its sign. -/
def toHexString (value : Int32) : JString :=
  ascii (Nat.toDigits 16 value.toUInt32.toNat)

/-- `String.trim`: the code units up to the space are dropped at both ends. -/
def trim (text : JString) : JString :=
  (text.dropWhile fun unit => unit.toNat ≤ 0x20).rdropWhile fun unit => unit.toNat ≤ 0x20

/-- The ASCII digit of a number below ten. -/
def digitUnit (digit : ℕ) : UInt16 :=
  UInt16.ofNat (0x30 + digit)

theorem toNat_digitUnit {digit : ℕ} (small : digit < 10) :
    (digitUnit digit).toNat = 0x30 + digit := by
  rw [digitUnit, UInt16.toNat_ofNat']
  omega

theorem ascii_digitChar {digit : ℕ} (small : digit < 10) :
    ascii [digit.digitChar] = [digitUnit digit] := by
  revert digit
  decide

theorem decimal_of_lt_ten {value : ℕ} (small : value < 10) : decimal value = [digitUnit value] := by
  rw [decimal, Nat.toDigits_of_lt_base small, ascii_digitChar small]

theorem decimal_of_ten_le {value : ℕ} (large : 10 ≤ value) :
    decimal value = decimal (value / 10) ++ [digitUnit (value % 10)] := by
  rw [← ascii_digitChar (Nat.mod_lt value (by omega)), decimal,
    Nat.toDigits_of_base_le (by omega) large]
  exact List.map_append

theorem decimal_ne_nil (value : ℕ) : decimal value ≠ [] := by
  rcases Nat.lt_or_ge value 10 with small | large
  · simp [decimal_of_lt_ten small]
  · simp [decimal_of_ten_le large]

/-- Printing writes nothing but ASCII digits. -/
theorem mem_decimal {value : ℕ} {unit : UInt16} (written : unit ∈ decimal value) :
    ∃ digit < 10, unit = digitUnit digit := by
  induction value using Nat.strongRecOn with
  | _ value ih =>
      rcases Nat.lt_or_ge value 10 with small | large
      · rw [decimal_of_lt_ten small, List.mem_singleton] at written
        exact ⟨value, small, written⟩
      · rw [decimal_of_ten_le large, List.mem_append, List.mem_singleton] at written
        rcases written with earlier | rfl
        · exact ih (value / 10) (by omega) earlier
        · exact ⟨value % 10, by omega, rfl⟩

theorem digitValue_digitUnit {digit : ℕ} (small : digit < 10) :
    digitValue (digitUnit digit) = some digit := by
  have found : (zeroUnits.find? fun base =>
      base ≤ (digitUnit digit).toNat && (digitUnit digit).toNat < base + 10) = some 0x30 := by
    apply List.find?_cons_of_pos
    rw [toNat_digitUnit small]
    simp
    omega
  rw [digitValue, found, Option.map_some, toNat_digitUnit small, Nat.add_sub_cancel_left]

theorem digitsValue_append_singleton (units : List UInt16) (unit : UInt16) :
    digitsValue (units ++ [unit]) =
      (digitsValue units).bind fun value => (digitValue unit).map (10 * value + ·) := by
  simp only [digitsValue, List.foldlM_append]
  cases List.foldlM (fun value unit => (digitValue unit).map (10 * value + ·)) 0 units with
  | none => rfl
  | some value =>
      cases read : digitValue unit <;> simp [read]

theorem digitsValue_decimal (value : ℕ) : digitsValue (decimal value) = some value := by
  induction value using Nat.strongRecOn with
  | _ value ih =>
      rcases Nat.lt_or_ge value 10 with small | large
      · rw [decimal_of_lt_ten small]
        simp [digitsValue, digitValue_digitUnit small]
      · rw [decimal_of_ten_le large, digitsValue_append_singleton, ih (value / 10) (by omega),
          digitValue_digitUnit (Nat.mod_lt value (by omega))]
        simp only [Option.bind_some, Option.map_some, Option.some.injEq]
        omega

/-- A text with a unit which is neither a digit nor a sign is no number. -/
theorem digitsValue_eq_none {units : List UInt16} {unit : UInt16} (unitMem : unit ∈ units)
    (noDigit : digitValue unit = none) : digitsValue units = none := by
  rcases List.append_of_mem unitMem with ⟨before, after, rfl⟩
  simp only [digitsValue, List.foldlM_append, List.foldlM_cons, noDigit]
  cases List.foldlM (fun value unit => (digitValue unit).map (10 * value + ·)) 0 before <;> rfl

theorem parseInt_eq_none {text : JString} {unit : UInt16} (unitMem : unit ∈ text)
    (noDigit : digitValue unit = none) (noMinus : unit ≠ 0x2D) (noPlus : unit ≠ 0x2B) :
    parseInt text = none := by
  have behind : text.head? = some 0x2D ∨ text.head? = some 0x2B → unit ∈ text.drop 1 := by
    intro signed
    cases text with
    | nil => simp at unitMem
    | cons first rest =>
        rcases List.mem_cons.mp unitMem with rfl | later
        · simp only [List.head?_cons, Option.some.injEq] at signed
          exact absurd signed (by simp [noMinus, noPlus])
        · exact later
  have noValue : ∀ magnitude : List UInt16, unit ∈ magnitude → digitsValue magnitude = none :=
    fun _ magnitudeMem => digitsValue_eq_none magnitudeMem noDigit
  simp only [parseInt]
  by_cases signed : text.head? = some 0x2D ∨ text.head? = some 0x2B
  · rw [if_pos signed, noValue _ (behind signed), Option.bind_none, ite_self]
  · rw [if_neg signed, noValue _ unitMem, Option.bind_none, ite_self]

/-- Parsing inverts printing. -/
theorem parseInt_decimal {value : ℕ} (bounded : value < 2147483648) :
    parseInt (decimal value) = some (Int32.ofNat value) := by
  have unsigned : ∀ sign : UInt16, sign.toNat < 0x30 → (decimal value).head? ≠ some sign := by
    intro sign low head
    rcases mem_decimal (List.mem_of_mem_head? head) with ⟨digit, small, rfl⟩
    rw [toNat_digitUnit small] at low
    omega
  have noMinus := unsigned 0x2D (by decide)
  have noPlus := unsigned 0x2B (by decide)
  simp only [parseInt, noMinus, noPlus, or_self, if_false, decimal_ne_nil, digitsValue_decimal,
    Option.bind_some, if_pos bounded]

/-- No unit up to the space is a digit. -/
theorem digitValue_of_le_space {unit : UInt16} (blank : unit.toNat ≤ 0x20) :
    digitValue unit = none := by
  have printable : ∀ base ∈ zeroUnits, 0x30 ≤ base := by decide
  rw [digitValue, Option.map_eq_none_iff, List.find?_eq_none]
  intro base baseMem
  have := printable base baseMem
  simp
  omega

/-- A text which trimming changes has a unit up to the space. -/
theorem exists_blank_of_trim_ne {text : JString} (changed : trim text ≠ text) :
    ∃ unit ∈ text, unit.toNat ≤ 0x20 := by
  by_contra printable
  simp only [not_exists, not_and, not_le] at printable
  have front : (text.dropWhile fun unit => decide (unit.toNat ≤ 0x20)) = text := by
    rw [List.dropWhile_eq_self_iff]
    intro nonempty
    simpa using printable _ (List.getElem_mem nonempty)
  have back : (text.rdropWhile fun unit => decide (unit.toNat ≤ 0x20)) = text := by
    rw [List.rdropWhile_eq_self_iff]
    intro nonempty
    simpa using printable _ (List.getLast_mem nonempty)
  exact changed (by rw [trim, front, back])

/-! ## Hexadecimal digits -/

theorem hexDigits_injective : ∀ first < 16, ∀ second < 16,
    ascii [Nat.digitChar first] = ascii [Nat.digitChar second] → first = second := by
  decide

theorem hexadecimal_of_le {value : ℕ} (large : 16 ≤ value) :
    ascii (Nat.toDigits 16 value) =
      ascii (Nat.toDigits 16 (value / 16)) ++ ascii [Nat.digitChar (value % 16)] := by
  rw [Nat.toDigits_of_base_le (by omega) large]
  exact List.map_append

theorem hexadecimal_ne_nil (value : ℕ) : ascii (Nat.toDigits 16 value) ≠ [] := by
  simp [ascii]

/-- A number has one hexadecimal notation. -/
theorem hexadecimal_injective : Function.Injective fun value => ascii (Nat.toDigits 16 value) := by
  intro first second same
  -- a number below the base has one digit, and any other one has more
  have differs {small large : ℕ} (below : small < 16) (beyond : 16 ≤ large) :
      ascii (Nat.toDigits 16 small) ≠ ascii (Nat.toDigits 16 large) := by
    intro alike
    have lengths := congrArg List.length alike
    have more := List.length_pos_of_ne_nil (hexadecimal_ne_nil (large / 16))
    rw [hexadecimal_of_le beyond, Nat.toDigits_of_lt_base below, List.length_append] at lengths
    simp only [ascii, List.length_map, List.length_singleton] at lengths more
    omega
  dsimp only at same
  induction first using Nat.strongRecOn generalizing second with
  | _ first ih =>
      rcases Nat.lt_or_ge first 16 with firstSmall | firstLarge
      · rcases Nat.lt_or_ge second 16 with secondSmall | secondLarge
        · rw [Nat.toDigits_of_lt_base firstSmall, Nat.toDigits_of_lt_base secondSmall] at same
          exact hexDigits_injective first firstSmall second secondSmall same
        · exact absurd same (differs firstSmall secondLarge)
      · rcases Nat.lt_or_ge second 16 with secondSmall | secondLarge
        · exact absurd same.symm (differs secondSmall firstLarge)
        · rw [hexadecimal_of_le firstLarge, hexadecimal_of_le secondLarge] at same
          rcases List.append_inj' same rfl with ⟨front, last⟩
          have quotients := ih (first / 16) (by omega) front
          have remainders := hexDigits_injective _ (Nat.mod_lt _ (by omega)) _
            (Nat.mod_lt _ (by omega)) last
          omega

theorem toHexString_injective : Function.Injective toHexString := by
  intro first second same
  apply Int32.toBitVec_inj.1
  exact BitVec.eq_of_toNat_eq (hexadecimal_injective same)

end AndroidCollection.Java
