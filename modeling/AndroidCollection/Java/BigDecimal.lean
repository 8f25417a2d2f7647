import AndroidCollection.Java.Integer

/-!
# Decimal numbers as text

`new BigDecimal(String)` and `BigDecimal.toString` as they are documented. A number is
an unscaled value and a scale, the number of digits behind the point; it is written
without an exponent if the scale is not negative and the number has no more than five
zeros behind the point before its first digit.
-/

namespace AndroidCollection.Java

structure BigDecimal where
  unscaledValue : ℤ
  scale : ℤ
deriving DecidableEq, Repr

namespace BigDecimal

def minusUnit : UInt16 :=
  0x2D

def plusUnit : UInt16 :=
  0x2B

def pointUnit : UInt16 :=
  0x2E

def zeroUnit : UInt16 :=
  0x30

/-- The letter which is written before an exponent. -/
def exponentUnit : UInt16 :=
  0x45

def isExponentUnit (unit : UInt16) : Bool :=
  unit = 0x65 || unit = exponentUnit

/-! ## Reading -/

/-- Whether there is a minus sign, and what follows an optional sign. -/
def unsigned : JString → Bool × JString
  | [] => (false, [])
  | unit :: rest =>
      if unit = minusUnit then (true, rest)
      else if unit = plusUnit then (false, rest)
      else (false, unit :: rest)

def withSign (negative : Bool) (value : ℕ) : ℤ :=
  if negative then -value else value

/-- The exponent behind its letter, which is in the range of an `int` without the lowest one. -/
def readExponent (text : JString) : Option ℤ :=
  let signed := unsigned text
  if signed.2 = [] then none
  else
    (digitsValue signed.2).bind fun value =>
      if value ≤ 2147483647 then some (withSign signed.1 value) else none

/-- `new BigDecimal(text)`; nothing stands for a `NumberFormatException`. Without an exponent the
scale is less than the length of the text, which is an `int`. -/
def ofString (text : JString) : Option BigDecimal :=
  let signed := unsigned text
  let significand := signed.2.takeWhile fun unit => !isExponentUnit unit
  let integer := significand.takeWhile fun unit => unit ≠ pointUnit
  let fraction := (significand.dropWhile fun unit => unit ≠ pointUnit).drop 1
  if integer = [] ∧ fraction = [] then none
  else
    (digitsValue (integer ++ fraction)).bind fun value =>
      match signed.2.dropWhile fun unit => !isExponentUnit unit with
      | [] => some ⟨withSign signed.1 value, fraction.length⟩
      | _ :: exponent =>
          (readExponent exponent).bind fun exponent =>
            let scale := fraction.length - exponent
            if -2147483648 ≤ scale ∧ scale ≤ 2147483647 then
              some ⟨withSign signed.1 value, scale⟩
            else none

/-! ## Writing -/

/-- The digits of the unscaled value without its sign. -/
def digits (number : BigDecimal) : JString :=
  decimal number.unscaledValue.natAbs

def adjustedExponent (number : BigDecimal) : ℤ :=
  -number.scale + (number.digits.length - 1)

/-- The number is written without an exponent. -/
def isPlain (number : BigDecimal) : Bool :=
  0 ≤ number.scale && -6 ≤ number.adjustedExponent

/-- The point stands before so many digits; there is at least one before it. -/
def insertPoint (digits : JString) (scale : ℕ) : JString :=
  if scale = 0 then digits
  else
    let padded := List.replicate (scale + 1 - digits.length) zeroUnit ++ digits
    padded.take (padded.length - scale) ++ pointUnit :: padded.drop (padded.length - scale)

/-- The first digit, the others behind a point, and the exponent with its sign. -/
def scientific (digits : JString) (exponent : ℤ) : JString :=
  digits.take 1 ++ (if 1 < digits.length then pointUnit :: digits.drop 1 else []) ++
    exponentUnit :: (if exponent < 0 then minusUnit else plusUnit) :: decimal exponent.natAbs

def toString (number : BigDecimal) : JString :=
  let magnitude :=
    if number.isPlain then insertPoint number.digits number.scale.toNat
    else scientific number.digits number.adjustedExponent
  if number.unscaledValue < 0 then minusUnit :: magnitude else magnitude

example : (ofString (ascii ['-', '0', '1', '.', '5', 'e', '3'])).map toString =
    some (ascii ['-', '1', '.', '5', 'E', '+', '3']) := by
  decide

/-! ## The documented grammar -/

def Digits (text : JString) : Prop :=
  ∀ unit ∈ text, (digitValue unit).isSome = true

def OptionalSign (text : JString) : Prop :=
  text = [] ∨ text = [minusUnit] ∨ text = [plusUnit]

/-- Digits with an optional point among them. -/
def Significand (text : JString) : Prop :=
  ∃ integer fraction, Digits integer ∧ Digits fraction ∧ (integer ≠ [] ∨ fraction ≠ []) ∧
    (text = integer ++ pointUnit :: fraction ∨ (fraction = [] ∧ text = integer))

def OptionalExponent (text : JString) : Prop :=
  text = [] ∨ ∃ letter sign exponent, isExponentUnit letter = true ∧ OptionalSign sign ∧
    exponent ≠ [] ∧ Digits exponent ∧ text = letter :: (sign ++ exponent)

/-- A decimal number in the notations which the class takes. -/
def Decimal (text : JString) : Prop :=
  ∃ sign significand exponent, OptionalSign sign ∧ Significand significand ∧
    OptionalExponent exponent ∧ text = sign ++ (significand ++ exponent)

theorem digits_of_digitsValue {text : JString} {value : ℕ} (read : digitsValue text = some value) :
    Digits text := by
  intro unit unitMem
  by_contra noDigit
  rw [Option.not_isSome_iff_eq_none] at noDigit
  rw [digitsValue_eq_none unitMem noDigit] at read
  cases read

theorem exists_sign (text : JString) :
    ∃ sign, OptionalSign sign ∧ text = sign ++ (unsigned text).2 := by
  rcases text with _ | ⟨unit, rest⟩
  · exact ⟨[], Or.inl rfl, rfl⟩
  · simp only [unsigned]
    split_ifs with minus plus
    · exact ⟨[minusUnit], Or.inr (Or.inl rfl), by simp [minus]⟩
    · exact ⟨[plusUnit], Or.inr (Or.inr rfl), by simp [plus]⟩
    · exact ⟨[], Or.inl rfl, rfl⟩

theorem exists_of_readExponent {text : JString} {exponent : ℤ}
    (read : readExponent text = some exponent) :
    ∃ sign digits, OptionalSign sign ∧ digits ≠ [] ∧ Digits digits ∧ text = sign ++ digits := by
  rcases exists_sign text with ⟨sign, isSign, split⟩
  simp only [readExponent] at read
  split at read
  · cases read
  · next given =>
      rcases Option.bind_eq_some_iff.1 read with ⟨value, isValue, _⟩
      exact ⟨sign, _, isSign, given, digits_of_digitsValue isValue, split⟩

theorem eq_false_of_dropWhile {condition : UInt16 → Bool} {text rest : JString} {unit : UInt16}
    (dropped : text.dropWhile condition = unit :: rest) : condition unit = false := by
  have head := List.head?_dropWhile_not condition text
  rw [dropped] at head
  exact head

/-- The integer and the fraction as they are found around the point. -/
theorem significand_of_digits {text : JString}
    (given : ¬((text.takeWhile fun unit => decide (unit ≠ pointUnit)) = [] ∧
      (text.dropWhile fun unit => decide (unit ≠ pointUnit)).drop 1 = []))
    (allDigits : Digits ((text.takeWhile fun unit => decide (unit ≠ pointUnit)) ++
      (text.dropWhile fun unit => decide (unit ≠ pointUnit)).drop 1)) : Significand text := by
  have whole := List.takeWhile_append_dropWhile
    (p := fun unit => decide (unit ≠ pointUnit)) (l := text)
  rcases dropped : text.dropWhile fun unit => decide (unit ≠ pointUnit) with
    _ | ⟨unit, fraction⟩ <;>
    rw [dropped] at given allDigits whole
  · refine ⟨text.takeWhile fun unit => decide (unit ≠ pointUnit), [], ?_, by simp [Digits], ?_, ?_⟩
    · simpa [Digits] using allDigits
    · left
      simpa using given
    · right
      simpa using whole.symm
  · have isPoint : unit = pointUnit := by
      simpa using eq_false_of_dropWhile dropped
    rw [List.drop_succ_cons, List.drop_zero] at given allDigits
    refine ⟨_, fraction, ?_, ?_, ?_, Or.inl (by rw [← isPoint, whole])⟩
    · intro digit member
      exact allDigits digit (List.mem_append_left _ member)
    · intro digit member
      exact allDigits digit (List.mem_append_right _ member)
    · rwa [← not_and_or]

/-- Only decimal numbers are read. -/
theorem decimal_of_ofString {text : JString} {number : BigDecimal}
    (read : ofString text = some number) : Decimal text := by
  rcases exists_sign text with ⟨sign, isSign, split⟩
  have whole := List.takeWhile_append_dropWhile
    (p := fun unit => !isExponentUnit unit) (l := (unsigned text).2)
  simp only [ofString] at read
  split at read
  · cases read
  · next given =>
      rcases Option.bind_eq_some_iff.1 read with ⟨value, isValue, rest⟩
      refine ⟨sign, _, _, isSign, significand_of_digits given (digits_of_digitsValue isValue), ?_,
        split.trans (congrArg _ whole.symm)⟩
      split at rest
      · next none => exact Or.inl none
      · next letter exponent dropped =>
          rcases Option.bind_eq_some_iff.1 rest with ⟨_, isExponent, _⟩
          rcases exists_of_readExponent isExponent with ⟨sign, digits, isSign, some, all, parts⟩
          have isLetter : isExponentUnit letter = true := by
            simpa using eq_false_of_dropWhile dropped
          exact Or.inr ⟨letter, sign, digits, isLetter, isSign, some, all, by rw [dropped, parts]⟩

end BigDecimal

end AndroidCollection.Java
