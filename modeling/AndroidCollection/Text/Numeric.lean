import AndroidCollection.Java.BigDecimal
import AndroidCollection.Lib.RegexClass

/-!
# Numerals

`TextUtil.isNumeric` does not look at its argument itself: it reads it as a
`BigDecimal`, and matches what that prints. A number which is printed with an exponent
does not match. So a numeral with many zeros behind the point is refused, while other
notations are taken if the number is printed without an exponent.
-/

namespace AndroidCollection.Text

open Java BigDecimal RegexClass RegularExpression

/-! ## `TextUtil.isNumeric` -/

def asciiDigits : List UInt16 :=
  (List.range 10).map digitUnit

/-- The pattern `-?[0-9]+\\.?[0-9]*`. -/
def NUMBER_REGEX : RegularExpression UInt16 :=
  (1 + .char minusUnit) * (oneOf asciiDigits * .star (oneOf asciiDigits)) *
    (1 + .char pointUnit) * .star (oneOf asciiDigits)

/-- Null and the empty text are not numeric. -/
def isNumeric (str : Option JString) : Bool :=
  match str with
  | none => false
  | some [] => false
  | some (unit :: units) =>
      match ofString (unit :: units) with
      | none => false
      | some number => NUMBER_REGEX.rmatch number.toString

/-! ## The property and its condition -/

def AsciiDigits (text : JString) : Prop :=
  ∀ unit ∈ text, ∃ digit < 10, unit = digitUnit digit

/-- An optional minus sign, digits, and optionally a point with digits. -/
structure IsNumeral (text : JString) (negative : Bool) (integer fraction : JString) : Prop where
  integer_digits : AsciiDigits integer
  fraction_digits : AsciiDigits fraction
  nonempty : integer ≠ []
  text_eq : text = (if negative then [minusUnit] else []) ++
    (integer ++ if fraction = [] then [] else pointUnit :: fraction)

/-- Numerals are numeric, and what is no decimal number is not. -/
def AcceptsNumerals (text : JString) : Prop :=
  (∀ negative integer fraction, IsNumeral text negative integer fraction →
      isNumeric (some text) = true) ∧
    (¬Decimal text → isNumeric (some text) = false)

/-- The number of digits without leading zeros, which is one for zero. -/
def precision (digits : JString) : ℕ :=
  max 1 (digits.dropWhile fun unit => unit = zeroUnit).length

/-! ## The pattern -/

theorem mem_asciiDigits {unit : UInt16} :
    unit ∈ asciiDigits ↔ ∃ digit < 10, unit = digitUnit digit := by
  simp only [asciiDigits, List.mem_map, List.mem_range]
  constructor
  · rintro ⟨digit, small, rfl⟩
    exact ⟨digit, small, rfl⟩
  · rintro ⟨digit, small, rfl⟩
    exact ⟨digit, small, rfl⟩

theorem asciiDigits_iff_subset (text : JString) : AsciiDigits text ↔ text ⊆ asciiDigits := by
  simp only [AsciiDigits, List.subset_def, mem_asciiDigits]

/-- What the pattern matches. -/
theorem mem_matches'_NUMBER_REGEX {word : JString} :
    word ∈ NUMBER_REGEX.matches' ↔ ∃ sign integer point fraction : JString,
      (sign = [] ∨ sign = [minusUnit]) ∧ integer ≠ [] ∧ AsciiDigits integer ∧
        (point = [] ∨ point = [pointUnit]) ∧ AsciiDigits fraction ∧
        word = sign ++ integer ++ point ++ fraction := by
  simp only [NUMBER_REGEX, mem_matches'_mul, mem_matches'_star_oneOf, mem_matches'_optional_char,
    mem_matches'_oneOf, mem_asciiDigits]
  constructor
  · rintro ⟨_, ⟨_, ⟨sign, isSign, _, ⟨_, ⟨first, isFirst, rfl⟩, rest, allRest, rfl⟩, rfl⟩, point,
      isPoint, rfl⟩, fraction, allFraction, rfl⟩
    refine ⟨sign, first :: rest, point, fraction, isSign, List.cons_ne_nil _ _, ?_, isPoint,
      allFraction, rfl⟩
    rw [AsciiDigits, List.forall_mem_cons]
    exact ⟨isFirst, allRest⟩
  · rintro ⟨sign, integer, point, fraction, isSign, given, allInteger, isPoint, allFraction, rfl⟩
    rcases integer with _ | ⟨first, rest⟩
    · exact absurd rfl given
    · rw [AsciiDigits, List.forall_mem_cons] at allInteger
      exact ⟨_, ⟨_, ⟨sign, isSign, _, ⟨_, ⟨first, allInteger.1, rfl⟩, rest, allInteger.2, rfl⟩,
        rfl⟩, point, isPoint, rfl⟩, fraction, allFraction, rfl⟩

/-! ## Printed numbers -/

theorem asciiDigits_append {first second : JString} :
    AsciiDigits (first ++ second) ↔ AsciiDigits first ∧ AsciiDigits second :=
  List.forall_mem_append

theorem asciiDigits_decimal (value : ℕ) : AsciiDigits (decimal value) :=
  fun _ => mem_decimal

theorem asciiDigits_zeros (count : ℕ) : AsciiDigits (List.replicate count zeroUnit) := by
  intro unit member
  exact ⟨0, by decide, List.eq_of_mem_replicate member⟩

/-- A number without an exponent. -/
theorem exists_insertPoint {digits : JString} (given : digits ≠ []) (all : AsciiDigits digits)
    (scale : ℕ) :
    ∃ integer point fraction : JString, integer ≠ [] ∧ AsciiDigits integer ∧
      (point = [] ∨ point = [pointUnit]) ∧ AsciiDigits fraction ∧
      insertPoint digits scale = integer ++ point ++ fraction := by
  by_cases whole : scale = 0
  · exact ⟨digits, [], [], given, all, Or.inl rfl, by simp [AsciiDigits],
      by simp [insertPoint, whole]⟩
  · have padded : AsciiDigits (List.replicate (scale + 1 - digits.length) zeroUnit ++ digits) :=
      asciiDigits_append.2 ⟨asciiDigits_zeros _, all⟩
    have long : scale < (List.replicate (scale + 1 - digits.length) zeroUnit ++ digits).length := by
      rw [List.length_append, List.length_replicate]
      omega
    revert padded long
    generalize shown : List.replicate (scale + 1 - digits.length) zeroUnit ++ digits = padded
    intro allPadded long
    refine ⟨padded.take (padded.length - scale), [pointUnit], padded.drop (padded.length - scale),
      ?_, fun unit member => allPadded unit (List.mem_of_mem_take member), Or.inr rfl,
      fun unit member => allPadded unit (List.mem_of_mem_drop member), ?_⟩
    · rw [← List.length_pos_iff, List.length_take]
      omega
    · simp [insertPoint, whole, shown]

theorem exponentUnit_notMem {word : JString} (matched : word ∈ NUMBER_REGEX.matches') :
    exponentUnit ∉ word := by
  have noDigit {text : JString} (all : AsciiDigits text) : exponentUnit ∉ text := by
    intro member
    rcases all _ member with ⟨digit, small, same⟩
    have values := congrArg UInt16.toNat same
    rw [toNat_digitUnit small] at values
    have letter : exponentUnit.toNat = 0x45 := rfl
    omega
  rcases mem_matches'_NUMBER_REGEX.1 matched with
    ⟨sign, integer, point, fraction, isSign, _, allInteger, isPoint, allFraction, rfl⟩
  have noSign : exponentUnit ∉ sign := by
    rcases isSign with rfl | rfl <;> decide
  have noPoint : exponentUnit ∉ point := by
    rcases isPoint with rfl | rfl <;> decide
  simp [noSign, noPoint, noDigit allInteger, noDigit allFraction]

/-- A printed number matches if it has no exponent. -/
theorem rmatch_toString (number : BigDecimal) :
    NUMBER_REGEX.rmatch number.toString = number.isPlain := by
  rw [Bool.eq_iff_iff, rmatch_iff_matches']
  constructor
  · intro matched
    have noLetter := exponentUnit_notMem matched
    by_contra exponential
    apply noLetter
    simp only [BigDecimal.toString, if_neg exponential]
    split <;> simp [scientific]
  · intro plain
    rcases exists_insertPoint (decimal_ne_nil _) (asciiDigits_decimal number.unscaledValue.natAbs)
      number.scale.toNat with ⟨integer, point, fraction, given, all, isPoint, rest, shown⟩
    apply mem_matches'_NUMBER_REGEX.2
    simp only [BigDecimal.toString, if_pos plain, digits, shown]
    split
    · exact ⟨[minusUnit], integer, point, fraction, Or.inr rfl, given, all, isPoint, rest, rfl⟩
    · exact ⟨[], integer, point, fraction, Or.inl rfl, given, all, isPoint, rest, rfl⟩

theorem isNumeric_of_ofString {text : JString} {number : BigDecimal}
    (read : ofString text = some number) : isNumeric (some text) = number.isPlain := by
  cases text with
  | nil => cases read
  | cons unit units => simp only [isNumeric, read, rmatch_toString]

theorem isNumeric_of_not_decimal {text : JString} (other : ¬Decimal text) :
    isNumeric (some text) = false := by
  cases text with
  | nil => rfl
  | cons unit units =>
      rcases read : ofString (unit :: units) with _ | number
      · simp only [isNumeric, read]
      · exact absurd (decimal_of_ofString read) other

/-! ## Numerals -/

theorem digitUnit_eq_zeroUnit {digit : ℕ} (small : digit < 10) :
    digitUnit digit = zeroUnit ↔ digit = 0 := by
  revert digit
  decide

/-- What is left of digits without leading zeros is what is printed of their value. -/
theorem exists_digitsValue {digits : JString} (all : AsciiDigits digits) :
    ∃ value, digitsValue digits = some value ∧
      ((digits.dropWhile fun unit => unit = zeroUnit) = [] ∧ value = 0 ∨
        0 < value ∧ (digits.dropWhile fun unit => unit = zeroUnit) = decimal value) := by
  induction digits using List.reverseRecOn with
  | nil => exact ⟨0, rfl, Or.inl ⟨rfl, rfl⟩⟩
  | append_singleton front unit ih =>
      rw [asciiDigits_append] at all
      rcases all.2 unit (List.mem_singleton_self unit) with ⟨digit, small, rfl⟩
      rcases ih all.1 with ⟨value, read, zeros | significant⟩
      · have same : 10 * value + digit = digit := by omega
        refine ⟨digit, ?_, ?_⟩
        · simp [digitsValue_append_singleton, read, digitValue_digitUnit small, same]
        · rw [List.dropWhile_append, zeros.1, decimal_of_lt_ten small]
          by_cases zero : digit = 0
          · simp [zero, (digitUnit_eq_zeroUnit (show 0 < 10 by omega)).2 rfl]
          · have other : digitUnit digit ≠ zeroUnit := by
              rwa [Ne, digitUnit_eq_zeroUnit small]
            simp [other, Nat.pos_of_ne_zero zero]
      · refine ⟨10 * value + digit, ?_, Or.inr ⟨by omega, ?_⟩⟩
        · simp [digitsValue_append_singleton, read, digitValue_digitUnit small]
        · have large : 10 ≤ 10 * value + digit := by omega
          have quotient : (10 * value + digit) / 10 = value := by omega
          have remainder : (10 * value + digit) % 10 = digit := by omega
          rw [List.dropWhile_append, significant.2, decimal_of_ten_le large, quotient, remainder]
          simp [decimal_ne_nil]

theorem length_decimal_of_digitsValue {digits : JString} {value : ℕ} (all : AsciiDigits digits)
    (read : digitsValue digits = some value) : (decimal value).length = precision digits := by
  rcases exists_digitsValue all with ⟨_, same, cases⟩
  rw [read, Option.some.injEq] at same
  subst same
  rcases cases with ⟨stripped, rfl⟩ | ⟨_, stripped⟩
  · rw [precision, stripped]
    rfl
  · have given := List.length_pos_iff.2 (decimal_ne_nil value)
    rw [precision, stripped]
    omega

/-- A digit ends neither the integer nor the significand, and is no sign. -/
theorem asciiDigit_other {digit : ℕ} (small : digit < 10) :
    digitUnit digit ≠ pointUnit ∧ isExponentUnit (digitUnit digit) = false ∧
      digitUnit digit ≠ minusUnit ∧ digitUnit digit ≠ plusUnit := by
  revert digit
  decide

theorem unsigned_numeral {text : JString} {negative : Bool} {integer fraction : JString}
    (numeral : IsNumeral text negative integer fraction) :
    unsigned text = (negative, integer ++ if fraction = [] then [] else pointUnit :: fraction) := by
  rw [numeral.text_eq]
  cases negative with
  | true => rfl
  | false =>
      rcases integer with _ | ⟨unit, units⟩
      · exact absurd rfl numeral.nonempty
      · rcases numeral.integer_digits unit List.mem_cons_self with ⟨digit, small, rfl⟩
        have other := asciiDigit_other small
        simp [unsigned, other]

/-- A numeral is read as the value of its digits, with the length of the fraction as scale. -/
theorem ofString_numeral {text : JString} {negative : Bool} {integer fraction : JString} {value : ℕ}
    (numeral : IsNumeral text negative integer fraction)
    (read : digitsValue (integer ++ fraction) = some value) :
    ofString text = some ⟨withSign negative value, fraction.length⟩ := by
  have behind : ∀ unit ∈ integer ++ (if fraction = [] then [] else pointUnit :: fraction),
      (!isExponentUnit unit) = true := by
    have digits {run : JString} (all : AsciiDigits run) :
        ∀ unit ∈ run, (!isExponentUnit unit) = true := by
      intro unit member
      rcases all unit member with ⟨digit, small, rfl⟩
      simp [asciiDigit_other small]
    apply List.forall_mem_append.2 ⟨digits numeral.integer_digits, _⟩
    split
    · simp
    · exact List.forall_mem_cons.2 ⟨rfl, digits numeral.fraction_digits⟩
  have before : ∀ unit ∈ integer, decide (unit ≠ pointUnit) = true := by
    intro unit member
    rcases numeral.integer_digits unit member with ⟨digit, small, rfl⟩
    simp [asciiDigit_other small]
  have split : ((integer ++ if fraction = [] then [] else pointUnit :: fraction).takeWhile
      fun unit => decide (unit ≠ pointUnit)) = integer ∧
      ((integer ++ if fraction = [] then [] else pointUnit :: fraction).dropWhile
        fun unit => decide (unit ≠ pointUnit)).drop 1 = fraction := by
    rw [List.takeWhile_append_of_pos before, List.dropWhile_append_of_pos before]
    split_ifs with none
    · simp [none]
    · simp
  simp only [ofString, unsigned_numeral numeral, List.takeWhile_eq_self_iff.2 behind,
    List.dropWhile_eq_nil_iff.2 behind, split.1, split.2, numeral.nonempty, false_and, if_false,
    read, Option.bind_some]

theorem isPlain_numeral {negative : Bool} {value places length : ℕ}
    (counted : (decimal value).length = length) :
    isPlain ⟨withSign negative value, places⟩ = decide (places ≤ length + 5) := by
  have same : (withSign negative value).natAbs = value := by
    cases negative <;> simp [withSign]
  have shown : digits ⟨withSign negative value, places⟩ = decimal value := by
    rw [digits, same]
  rw [isPlain, adjustedExponent, shown, counted, Bool.eq_iff_iff, Bool.and_eq_true,
    decide_eq_true_iff, decide_eq_true_iff, decide_eq_true_iff]
  dsimp only
  omega

/-- A numeral is numeric if its fraction is not more than five digits longer than what is left of
its digits without leading zeros. -/
theorem isNumeric_numeral {text : JString} {negative : Bool} {integer fraction : JString}
    (numeral : IsNumeral text negative integer fraction) :
    isNumeric (some text) = decide (fraction.length ≤ precision (integer ++ fraction) + 5) := by
  have all := asciiDigits_append.2 ⟨numeral.integer_digits, numeral.fraction_digits⟩
  rcases exists_digitsValue all with ⟨value, read, _⟩
  rw [isNumeric_of_ofString (ofString_numeral numeral read),
    isPlain_numeral (length_decimal_of_digitsValue all read)]

theorem acceptsNumerals_iff (text : JString) :
    AcceptsNumerals text ↔ ∀ negative integer fraction,
      IsNumeral text negative integer fraction →
        fraction.length ≤ precision (integer ++ fraction) + 5 := by
  constructor
  · intro accepts negative integer fraction numeral
    simpa [isNumeric_numeral numeral] using accepts.1 negative integer fraction numeral
  · intro short
    refine ⟨?_, isNumeric_of_not_decimal⟩
    intro negative integer fraction numeral
    rw [isNumeric_numeral numeral]
    exact decide_eq_true (short negative integer fraction numeral)

/-- One part in ten million is printed as `1E-7`. -/
theorem not_acceptsNumerals_tenMillionth :
    ¬AcceptsNumerals (ascii ['0', '.', '0', '0', '0', '0', '0', '0', '1']) := by
  intro accepts
  have numeral : IsNumeral (ascii ['0', '.', '0', '0', '0', '0', '0', '0', '1']) false (ascii ['0'])
      (ascii ['0', '0', '0', '0', '0', '0', '1']) := by
    refine ⟨?_, ?_, by decide, by decide⟩ <;> rw [asciiDigits_iff_subset] <;> decide
  have refused := accepts.1 _ _ _ numeral
  revert refused
  decide +kernel

end AndroidCollection.Text
