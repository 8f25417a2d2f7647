import AndroidCollection.Net.IpV4
import Mathlib.Tactic.IntervalCases

/-!
# Dotted quads

A dotted quad is the text of four octets; its value is the concatenation of
their bits. The printer, the pattern and the reader agree with this description
and so with each other, as long as the text is the one which was matched:
`getIpV4Value` does not trim, and gives 0 for an address with surrounding
blanks which `ipV4Validate` accepts.
-/

namespace AndroidCollection.Net

open Java RegexClass RegularExpression

variable {word : List UInt16}

def quadText (a b c d : UInt8) : JString :=
  decimal a.toNat ++ dot :: decimal b.toNat ++ dot :: decimal c.toNat ++ dot :: decimal d.toNat

/-- The four octets from the most to the least significant. -/
def quadValue (a b c d : UInt8) : Int32 :=
  Int32.ofBitVec (a.toBitVec ++ b.toBitVec ++ c.toBitVec ++ d.toBitVec)

/-! ## The pattern -/

theorem mem_matches'_digitClass {low high : ℕ} :
    word ∈ (digitClass low high).matches' ↔
      ∃ digit, low ≤ digit ∧ digit ≤ high ∧ word = [digitUnit digit] := by
  simp only [digitClass, mem_matches'_oneOf, List.mem_map, List.mem_range'_1]
  constructor
  · rintro ⟨_, ⟨digit, bounds, rfl⟩, rfl⟩
    exact ⟨digit, by omega, by omega, rfl⟩
  · rintro ⟨digit, lower, upper, rfl⟩
    exact ⟨_, ⟨digit, by omega, rfl⟩, rfl⟩

theorem mem_matches'_digitClass_mul {low high : ℕ} {P : RegularExpression UInt16} :
    word ∈ (digitClass low high * P).matches' ↔
      ∃ digit, low ≤ digit ∧ digit ≤ high ∧
        ∃ rest ∈ P.matches', word = digitUnit digit :: rest := by
  simp only [digitClass, mem_matches'_oneOf_mul, List.mem_map, List.mem_range'_1]
  constructor
  · rintro ⟨_, ⟨digit, bounds, rfl⟩, rest, matched, rfl⟩
    exact ⟨digit, by omega, by omega, rest, matched, rfl⟩
  · rintro ⟨digit, lower, upper, rest, matched, rfl⟩
    exact ⟨_, ⟨digit, by omega, rfl⟩, rest, matched, rfl⟩

theorem mem_matches'_two_digits :
    word ∈ (digitClass 0 9 ^ 2).matches' ↔
      ∃ first ≤ 9, ∃ second ≤ 9, word = [digitUnit first, digitUnit second] := by
  rw [mem_matches'_pow_succ]
  constructor
  · rintro ⟨front, frontMatched, back, backMatched, rfl⟩
    rw [mem_matches'_pow_succ] at backMatched
    rcases backMatched with ⟨last, lastMatched, none, noneMatched, rfl⟩
    rw [mem_matches'_pow_zero] at noneMatched
    rcases mem_matches'_digitClass.mp frontMatched with ⟨first, -, firstSmall, rfl⟩
    rcases mem_matches'_digitClass.mp lastMatched with ⟨second, -, secondSmall, rfl⟩
    exact ⟨first, firstSmall, second, secondSmall, by rw [noneMatched]; rfl⟩
  · rintro ⟨first, firstSmall, second, secondSmall, rfl⟩
    refine ⟨_, mem_matches'_digitClass.mpr ⟨first, by omega, firstSmall, rfl⟩, [digitUnit second],
      mem_matches'_pow_succ.mpr ⟨_, mem_matches'_digitClass.mpr
        ⟨second, by omega, secondSmall, rfl⟩, [], mem_matches'_pow_zero.mpr rfl, rfl⟩, rfl⟩

/-- The five alternatives of the octet pattern. -/
theorem mem_matches'_octet :
    word ∈ OCTET_REGEX.matches' ↔
      (∃ a ≤ 9, word = [digitUnit a]) ∨
        (∃ a, 1 ≤ a ∧ a ≤ 9 ∧ ∃ b ≤ 9, word = [digitUnit a, digitUnit b]) ∨
        (∃ a ≤ 9, ∃ b ≤ 9, word = [digitUnit 1, digitUnit a, digitUnit b]) ∨
        (∃ a ≤ 4, ∃ b ≤ 9, word = [digitUnit 2, digitUnit a, digitUnit b]) ∨
        ∃ a ≤ 5, word = [digitUnit 2, digitUnit 5, digitUnit a] := by
  simp only [OCTET_REGEX, mem_matches'_add, mem_matches'_char_mul, mem_matches'_digitClass_mul,
    mem_matches'_two_digits, mem_matches'_digitClass]
  constructor
  · rintro ((((⟨a, -, small, rfl⟩ | ⟨a, lower, upper, _, ⟨b, -, small, rfl⟩, rfl⟩) |
      ⟨_, ⟨a, aSmall, b, bSmall, rfl⟩, rfl⟩) |
      ⟨_, ⟨a, -, aSmall, _, ⟨b, -, bSmall, rfl⟩, rfl⟩, rfl⟩) |
      ⟨_, ⟨_, ⟨a, -, small, rfl⟩, rfl⟩, rfl⟩)
    · exact Or.inl ⟨a, small, rfl⟩
    · exact Or.inr (Or.inl ⟨a, lower, upper, b, small, rfl⟩)
    · exact Or.inr (Or.inr (Or.inl ⟨a, aSmall, b, bSmall, rfl⟩))
    · exact Or.inr (Or.inr (Or.inr (Or.inl ⟨a, aSmall, b, bSmall, rfl⟩)))
    · exact Or.inr (Or.inr (Or.inr (Or.inr ⟨a, small, rfl⟩)))
  · rintro (⟨a, small, rfl⟩ | ⟨a, lower, upper, b, small, rfl⟩ | ⟨a, aSmall, b, bSmall, rfl⟩ |
      ⟨a, aSmall, b, bSmall, rfl⟩ | ⟨a, small, rfl⟩)
    · exact Or.inl (Or.inl (Or.inl (Or.inl ⟨a, by omega, small, rfl⟩)))
    · exact Or.inl (Or.inl (Or.inl (Or.inr
        ⟨a, lower, upper, _, ⟨b, by omega, small, rfl⟩, rfl⟩)))
    · exact Or.inl (Or.inl (Or.inr ⟨_, ⟨a, aSmall, b, bSmall, rfl⟩, rfl⟩))
    · exact Or.inl (Or.inr
        ⟨_, ⟨a, by omega, aSmall, _, ⟨b, by omega, bSmall, rfl⟩, rfl⟩, rfl⟩)
    · exact Or.inr ⟨_, ⟨_, ⟨a, by omega, small, rfl⟩, rfl⟩, rfl⟩

theorem decimal_two_digits {a b : ℕ} (positive : 1 ≤ a) (aSmall : a ≤ 9) (bSmall : b ≤ 9) :
    decimal (10 * a + b) = [digitUnit a, digitUnit b] := by
  have quotient : (10 * a + b) / 10 = a := by omega
  have remainder : (10 * a + b) % 10 = b := by omega
  rw [decimal_of_ten_le (by omega), quotient, remainder, decimal_of_lt_ten (by omega)]
  rfl

theorem decimal_three_digits {a b c : ℕ} (positive : 1 ≤ a) (aSmall : a ≤ 9) (bSmall : b ≤ 9)
    (cSmall : c ≤ 9) :
    decimal (100 * a + 10 * b + c) = [digitUnit a, digitUnit b, digitUnit c] := by
  have quotient : (100 * a + 10 * b + c) / 10 = 10 * a + b := by omega
  have remainder : (100 * a + 10 * b + c) % 10 = c := by omega
  rw [decimal_of_ten_le (by omega), quotient, remainder,
    decimal_two_digits positive aSmall bSmall]
  rfl

/-- The octet pattern matches the decimal texts of the numbers up to 255. -/
theorem mem_matches'_octet_iff :
    word ∈ OCTET_REGEX.matches' ↔ ∃ octet : UInt8, word = decimal octet.toNat := by
  have octet_of_lt : ∀ value < 256, (UInt8.ofNat value).toNat = value := by
    intro value small
    rw [UInt8.toNat_ofNat']
    omega
  rw [mem_matches'_octet]
  constructor
  · rintro (⟨a, small, rfl⟩ | ⟨a, lower, upper, b, small, rfl⟩ | ⟨a, aSmall, b, bSmall, rfl⟩ |
      ⟨a, aSmall, b, bSmall, rfl⟩ | ⟨a, small, rfl⟩)
    · refine ⟨UInt8.ofNat a, ?_⟩
      rw [octet_of_lt a (by omega), decimal_of_lt_ten (by omega)]
    · refine ⟨UInt8.ofNat (10 * a + b), ?_⟩
      rw [octet_of_lt _ (by omega), decimal_two_digits lower upper small]
    · refine ⟨UInt8.ofNat (100 * 1 + 10 * a + b), ?_⟩
      rw [octet_of_lt _ (by omega), decimal_three_digits (by omega) (by omega) aSmall bSmall]
    · refine ⟨UInt8.ofNat (100 * 2 + 10 * a + b), ?_⟩
      rw [octet_of_lt _ (by omega), decimal_three_digits (by omega) (by omega) (by omega) bSmall]
    · refine ⟨UInt8.ofNat (100 * 2 + 10 * 5 + a), ?_⟩
      rw [octet_of_lt _ (by omega),
        decimal_three_digits (by omega) (by omega) (by omega) (by omega)]
  · rintro ⟨octet, rfl⟩
    have bounded := octet.toNat_lt
    generalize octet.toNat = value at bounded
    rcases Nat.lt_or_ge value 10 with one | atLeastTen
    · exact Or.inl ⟨value, by omega, decimal_of_lt_ten one⟩
    · rcases Nat.lt_or_ge value 100 with two | atLeastHundred
      · obtain ⟨a, b, positive, aSmall, bSmall, rfl⟩ :
            ∃ a b, 1 ≤ a ∧ a ≤ 9 ∧ b ≤ 9 ∧ value = 10 * a + b :=
          ⟨value / 10, value % 10, by omega, by omega, by omega, by omega⟩
        exact Or.inr (Or.inl ⟨a, positive, aSmall, b, bSmall,
          decimal_two_digits positive aSmall bSmall⟩)
      · obtain ⟨a, b, c, positive, aSmall, bSmall, cSmall, rfl⟩ :
            ∃ a b c, 1 ≤ a ∧ a ≤ 9 ∧ b ≤ 9 ∧ c ≤ 9 ∧ value = 100 * a + 10 * b + c :=
          ⟨value / 100, value / 10 % 10, value % 10, by omega, by omega, by omega, by omega,
            by omega⟩
        rw [decimal_three_digits positive aSmall bSmall cSmall]
        rcases Nat.lt_or_ge a 2 with hundreds | twoHundreds
        · obtain rfl : a = 1 := by omega
          exact Or.inr (Or.inr (Or.inl ⟨b, bSmall, c, cSmall, rfl⟩))
        · obtain rfl : a = 2 := by omega
          rcases Nat.lt_or_ge b 5 with below | atLeast
          · exact Or.inr (Or.inr (Or.inr (Or.inl ⟨b, by omega, c, cSmall, rfl⟩)))
          · obtain rfl : b = 5 := by omega
            exact Or.inr (Or.inr (Or.inr (Or.inr ⟨c, by omega, rfl⟩)))

theorem mem_matches'_dot_octet :
    word ∈ (char dot * OCTET_REGEX).matches' ↔
      ∃ octet : UInt8, word = dot :: decimal octet.toNat := by
  simp only [mem_matches'_char_mul, mem_matches'_octet_iff]
  constructor
  · rintro ⟨_, ⟨octet, rfl⟩, rfl⟩
    exact ⟨octet, rfl⟩
  · rintro ⟨octet, rfl⟩
    exact ⟨_, ⟨octet, rfl⟩, rfl⟩

/-- The pattern matches exactly the dotted quads. -/
theorem mem_matches'_ipv4 :
    word ∈ IPV4_REGEX.matches' ↔ ∃ a b c d, word = quadText a b c d := by
  simp only [IPV4_REGEX, mem_matches'_mul (P := OCTET_REGEX), mem_matches'_pow_succ,
    mem_matches'_pow_zero, mem_matches'_octet_iff, mem_matches'_dot_octet, quadText]
  constructor
  · rintro ⟨_, ⟨a, rfl⟩, _, ⟨_, ⟨b, rfl⟩, _, ⟨_, ⟨c, rfl⟩, _, ⟨_, ⟨d, rfl⟩, _, rfl, rfl⟩, rfl⟩,
      rfl⟩, rfl⟩
    exact ⟨a, b, c, d, by simp⟩
  · rintro ⟨a, b, c, d, rfl⟩
    exact ⟨_, ⟨a, rfl⟩, _, ⟨_, ⟨b, rfl⟩, _, ⟨_, ⟨c, rfl⟩, _, ⟨_, ⟨d, rfl⟩, _, rfl, rfl⟩, rfl⟩,
      rfl⟩, by simp⟩

theorem ipV4Validate_iff_quadText (text : JString) :
    ipV4Validate (some text) = true ↔ ∃ a b c d, trim text = quadText a b c d := by
  rw [ipV4Validate, rmatch_iff_matches', mem_matches'_ipv4]

/-! ## Printing -/

theorem intToString_ofNat {value : ℕ} (bounded : value < 2147483648) :
    intToString (Int32.ofNat value) = decimal value := by
  have same : (Int32.ofNat value).toInt = value := Int32.toInt_ofNat_of_lt bounded
  rw [intToString, same, if_neg (by omega), Int.toNat_natCast]

theorem ofNat_octet (octet : UInt8) :
    Int32.ofNat octet.toNat = Int32.ofBitVec (octet.toBitVec.zeroExtend 32) := by
  apply Int32.toBitVec_inj.mp
  apply BitVec.eq_of_toNat_eq
  simp

/-- A shift and a mask select one octet. -/
theorem octet_of_quadValue (a b c d : UInt8) :
    (quadValue a b c d >>> 24) &&& 0xff = Int32.ofNat a.toNat ∧
      (quadValue a b c d >>> 16) &&& 0xff = Int32.ofNat b.toNat ∧
      (quadValue a b c d >>> 8) &&& 0xff = Int32.ofNat c.toNat ∧
      quadValue a b c d &&& 0xff = Int32.ofNat d.toNat := by
  simp only [ofNat_octet, ← Int32.toBitVec_inj, quadValue, Int32.toBitVec_and,
    Int32.toBitVec_shiftRight]
  generalize a.toBitVec = a, b.toBitVec = b, c.toBitVec = c, d.toBitVec = d
  change (a ++ b ++ c ++ d).sshiftRight 24 &&& 0xFF#32 = a.zeroExtend 32 ∧
    (a ++ b ++ c ++ d).sshiftRight 16 &&& 0xFF#32 = b.zeroExtend 32 ∧
    (a ++ b ++ c ++ d).sshiftRight 8 &&& 0xFF#32 = c.zeroExtend 32 ∧
    (a ++ b ++ c ++ d) &&& 0xFF#32 = d.zeroExtend 32
  refine ⟨?_, ?_, ?_, ?_⟩
  all_goals
    apply BitVec.eq_of_getLsbD_eq
    intro i bounded
    simp only [BitVec.getLsbD_and, BitVec.getLsbD_sshiftRight, BitVec.getLsbD_append]
    interval_cases i <;> simp

theorem trans2IpStr_quadValue (a b c d : UInt8) :
    trans2IpStr (quadValue a b c d) = quadText a b c d := by
  have bounded : ∀ octet : UInt8, octet.toNat < 2147483648 := fun octet =>
    Nat.lt_trans octet.toNat_lt (by decide)
  rcases octet_of_quadValue a b c d with ⟨first, second, third, fourth⟩
  simp only [trans2IpStr, first, second, third, fourth, intToString_ofNat (bounded _), quadText]

/-- Every `int` is the value of four octets. -/
theorem exists_quadValue (value : Int32) : ∃ a b c d, value = quadValue a b c d := by
  refine ⟨UInt8.ofBitVec (value.toBitVec.extractLsb' 24 8),
    UInt8.ofBitVec (value.toBitVec.extractLsb' 16 8),
    UInt8.ofBitVec (value.toBitVec.extractLsb' 8 8),
    UInt8.ofBitVec (value.toBitVec.extractLsb' 0 8), ?_⟩
  rw [← Int32.toBitVec_inj, quadValue]
  exact (append_bytes value.toBitVec).symm

/-! ## Reading -/

theorem partByte_decimal (octet : UInt8) : partByte (decimal octet.toNat) = some octet := by
  rw [partByte, parseInt_decimal (Nat.lt_trans octet.toNat_lt (by decide)), Option.map_some,
    ofNat_octet]
  congr 1
  apply UInt8.toBitVec_inj.mp
  change (octet.toBitVec.zeroExtend 32 &&& 0xFF#32).signExtend 8 = octet.toBitVec
  apply BitVec.eq_of_getLsbD_eq
  intro i bounded
  simp only [BitVec.getLsbD_signExtend, BitVec.getLsbD_and, BitVec.getLsbD_setWidth]
  interval_cases i <;> simp

theorem split_quadText (a b c d : UInt8) :
    split (quadText a b c d) =
      [decimal a.toNat, decimal b.toNat, decimal c.toNat, decimal d.toNat] := by
  have noDot : ∀ value, dot ∉ decimal value := by
    intro value written
    rcases mem_decimal written with ⟨digit, small, same⟩
    have := congrArg UInt16.toNat same
    rw [toNat_digitUnit small, dot] at this
    simp at this
    omega
  rw [split, if_pos (by simp [quadText])]
  simp only [quadText, List.append_assoc, List.cons_append,
    List.splitOn_append_cons_self_of_not_mem (noDot _), List.splitOn_eq_singleton (noDot _)]
  rw [List.rdropWhile_eq_self_iff]
  simp [decimal_ne_nil]

theorem getIpV4Bytes_quadText (a b c d : UInt8) :
    getIpV4Bytes (some (quadText a b c d)) = [a, b, c, d] := by
  simp [getIpV4Bytes, split_quadText, partByte_decimal]

/-- The masks and shifts of the reader put the octets together. -/
theorem getIpV4Value_of_bytes {ip : Option JString} {a b c d : UInt8} {rest : List UInt8}
    (bytes : getIpV4Bytes ip = a :: b :: c :: d :: rest) :
    getIpV4Value ip = .ok (quadValue a b c d) := by
  simp only [getIpV4Value, bytes, Except.ok.injEq, ← Int32.toBitVec_inj, quadValue,
    Int32.toBitVec_or, Int32.toBitVec_and, Int32.toBitVec_shiftLeft]
  change (d.toBitVec.signExtend 32 &&& 0xFF#32) |||
      (c.toBitVec.signExtend 32 <<< 8 &&& 0xFF00#32) |||
      (b.toBitVec.signExtend 32 <<< 16 &&& 0xFF0000#32) |||
      (a.toBitVec.signExtend 32 <<< 24 &&& 0xFF000000#32) =
    a.toBitVec ++ b.toBitVec ++ c.toBitVec ++ d.toBitVec
  generalize a.toBitVec = a, b.toBitVec = b, c.toBitVec = c, d.toBitVec = d
  apply BitVec.eq_of_getLsbD_eq
  intro i bounded
  simp only [BitVec.getLsbD_or, BitVec.getLsbD_and, BitVec.getLsbD_append,
    BitVec.getLsbD_shiftLeft, BitVec.getLsbD_signExtend]
  interval_cases i <;> simp

theorem getIpV4Value_quadText (a b c d : UInt8) :
    getIpV4Value (some (quadText a b c d)) = .ok (quadValue a b c d) :=
  getIpV4Value_of_bytes (getIpV4Bytes_quadText a b c d)

theorem quadText_inj {a b c d e f g h : UInt8} :
    quadText a b c d = quadText e f g h ↔ a = e ∧ b = f ∧ c = g ∧ d = h := by
  constructor
  · intro same
    have bytes := congrArg (fun text => getIpV4Bytes (some text)) same
    simpa [getIpV4Bytes_quadText] using bytes
  · rintro ⟨rfl, rfl, rfl, rfl⟩
    rfl

theorem quadValue_inj {a b c d e f g h : UInt8} :
    quadValue a b c d = quadValue e f g h ↔ a = e ∧ b = f ∧ c = g ∧ d = h := by
  constructor
  · intro same
    have texts := congrArg trans2IpStr same
    rwa [trans2IpStr_quadValue, trans2IpStr_quadValue, quadText_inj] at texts
  · rintro ⟨rfl, rfl, rfl, rfl⟩
    rfl

theorem trans2IpStr_injective {v w : Int32} (same : trans2IpStr v = trans2IpStr w) : v = w := by
  rcases exists_quadValue v with ⟨a, b, c, d, rfl⟩
  rcases exists_quadValue w with ⟨e, f, g, h, rfl⟩
  rw [trans2IpStr_quadValue, trans2IpStr_quadValue] at same
  have values := congrArg (fun text => getIpV4Value (some text)) same
  simpa only [getIpV4Value_quadText, Except.ok.injEq] using values

theorem ipV4Validate_iff (text : JString) :
    ipV4Validate (some text) = true ↔ ∃ v, trim text = trans2IpStr v := by
  rw [ipV4Validate_iff_quadText]
  constructor
  · rintro ⟨a, b, c, d, same⟩
    exact ⟨quadValue a b c d, by rw [same, trans2IpStr_quadValue]⟩
  · rintro ⟨v, same⟩
    rcases exists_quadValue v with ⟨a, b, c, d, rfl⟩
    exact ⟨a, b, c, d, by rw [same, trans2IpStr_quadValue]⟩

theorem getIpV4Value_trans2IpStr (v : Int32) : getIpV4Value (some (trans2IpStr v)) = .ok v := by
  rcases exists_quadValue v with ⟨a, b, c, d, rfl⟩
  rw [trans2IpStr_quadValue, getIpV4Value_quadText]

theorem exists_mem_of_mem_intercalate {separator unit : UInt16} {parts : List (List UInt16)}
    (unitMem : unit ∈ [separator].intercalate parts) (different : unit ≠ separator) :
    ∃ part ∈ parts, unit ∈ part := by
  induction parts with
  | nil => simp at unitMem
  | cons part parts ih =>
      cases parts with
      | nil => exact ⟨part, List.mem_singleton_self part, by simpa using unitMem⟩
      | cons next rest =>
          rw [List.intercalate_cons_cons, List.mem_append, List.mem_append,
            List.mem_singleton] at unitMem
          rcases unitMem with (inFirst | same) | inRest
          · exact ⟨part, List.mem_cons_self, inFirst⟩
          · exact absurd same different
          · rcases ih inRest with ⟨other, otherMem, inOther⟩
            exact ⟨other, List.mem_cons_of_mem _ otherMem, inOther⟩

/-- Splitting keeps every unit but the dots. -/
theorem exists_mem_split {text : JString} {unit : UInt16} (unitMem : unit ∈ text)
    (noDot : unit ≠ dot) : ∃ part ∈ split text, unit ∈ part := by
  rw [split]
  split
  · have joined : [dot].intercalate (text.splitOn dot) = text := List.intercalate_splitOn dot
    rw [← joined] at unitMem
    rcases exists_mem_of_mem_intercalate unitMem noDot with ⟨part, partMem, inPart⟩
    rw [← List.rdropWhile_append_rtakeWhile (p := fun part => decide (part = []))
        (l := text.splitOn dot),
      List.mem_append] at partMem
    rcases partMem with kept | removed
    · exact ⟨part, kept, inPart⟩
    · have empty := List.mem_rtakeWhile_imp removed
      simp only [decide_eq_true_eq] at empty
      simp [empty] at inPart
  · exact ⟨text, List.mem_singleton_self text, unitMem⟩

theorem mapM_eq_none {α β : Type} {f : α → Option β} {items : List α} {item : α}
    (itemMem : item ∈ items) (fails : f item = none) : items.mapM f = none := by
  induction items with
  | nil => simp at itemMem
  | cons first items ih =>
      rw [List.mapM_cons]
      rcases List.mem_cons.mp itemMem with rfl | later
      · rw [fails]
        rfl
      · rw [ih later]
        cases f first <;> rfl

/-- A unit which can stand in no number and is no dot makes the reader give up. -/
theorem getIpV4Bytes_of_mem {text : JString} {unit : UInt16} (unitMem : unit ∈ text)
    (blank : unit.toNat ≤ 0x20) : getIpV4Bytes (some text) = [0, 0, 0, 0] := by
  have noDot : unit ≠ dot := by
    rintro rfl
    simp [dot] at blank
  have noMinus : unit ≠ 0x2D := by
    rintro rfl
    simp at blank
  have noPlus : unit ≠ 0x2B := by
    rintro rfl
    simp at blank
  rcases exists_mem_split unitMem noDot with ⟨part, partMem, inPart⟩
  have bad : partByte part = none := by
    rw [partByte, parseInt_eq_none inPart (digitValue_of_le_space blank) noMinus noPlus,
      Option.map_none]
  have fails : (split text).mapM partByte = none := mapM_eq_none partMem bad
  rw [getIpV4Bytes, Option.bind_some, fails]

/-- An accepted text is read only if it needs no trimming. -/
theorem getIpV4Value_of_trim {text : JString} {v : Int32} (accepted : trim text = trans2IpStr v) :
    getIpV4Value (some text) = .ok (if trim text = text then v else 0) := by
  split
  · next trimmed => rw [← trimmed, accepted, getIpV4Value_trans2IpStr]
  · next changed =>
      rcases exists_blank_of_trim_ne changed with ⟨unit, unitMem, blank⟩
      rw [getIpV4Value, getIpV4Bytes_of_mem unitMem blank]
      rfl

/-- What the check is for: both texts are accepted and the masked values agree. -/
def SameSegment (ip1 ip2 : Option JString) (mask : Int32) : Prop :=
  ipV4Validate ip1 = true ∧ ipV4Validate ip2 = true ∧
    ∃ text1 text2 v1 v2, ip1 = some text1 ∧ ip2 = some text2 ∧ trim text1 = trans2IpStr v1 ∧
      trim text2 = trans2IpStr v2 ∧ mask &&& v1 = mask &&& v2

/-- The accepted pairs on which it does not matter that blanks make a value 0: both texts need no
trimming; or both do, and the masked values agree; or one does, and its masked value is zero or
the other is neither zero nor the same. -/
def BlanksHarmless (text1 text2 : JString) (v1 v2 mask : Int32) : Prop :=
  if trim text1 = text1 then
    trim text2 = text2 ∨ mask &&& v2 = 0 ∨ (mask &&& v1 ≠ 0 ∧ mask &&& v1 ≠ mask &&& v2)
  else if trim text2 = text2 then
    mask &&& v1 = 0 ∨ (mask &&& v2 ≠ 0 ∧ mask &&& v2 ≠ mask &&& v1)
  else
    mask &&& v1 = mask &&& v2

theorem checkSameSegment_of_accepted {text1 text2 : JString} {v1 v2 : Int32}
    (accepted1 : trim text1 = trans2IpStr v1) (accepted2 : trim text2 = trans2IpStr v2)
    (mask : Int32) :
    checkSameSegment (some text1) (some text2) mask =
      .ok (decide (mask &&& (if trim text1 = text1 then v1 else 0) =
        mask &&& (if trim text2 = text2 then v2 else 0))) := by
  have valid1 := (ipV4Validate_iff text1).mpr ⟨v1, accepted1⟩
  have valid2 := (ipV4Validate_iff text2).mpr ⟨v2, accepted2⟩
  simp only [checkSameSegment, valid1, valid2, Bool.not_true, Bool.false_eq_true, if_false,
    getIpV4Value_of_trim accepted1, getIpV4Value_of_trim accepted2, ok_bind]
  rfl

theorem sameSegment_iff_of_accepted {text1 text2 : JString} {v1 v2 : Int32}
    (accepted1 : trim text1 = trans2IpStr v1) (accepted2 : trim text2 = trans2IpStr v2)
    (mask : Int32) :
    SameSegment (some text1) (some text2) mask ↔ mask &&& v1 = mask &&& v2 := by
  constructor
  · rintro ⟨-, -, _, _, w1, w2, ⟨⟩, ⟨⟩, same1, same2, agree⟩
    rw [trans2IpStr_injective (accepted1.symm.trans same1),
      trans2IpStr_injective (accepted2.symm.trans same2), agree]
  · intro agree
    exact ⟨(ipV4Validate_iff text1).mpr ⟨v1, accepted1⟩,
      (ipV4Validate_iff text2).mpr ⟨v2, accepted2⟩, text1, text2, v1, v2, rfl, rfl, accepted1,
      accepted2, agree⟩

theorem blanksHarmless_iff (text1 text2 : JString) (v1 v2 mask : Int32) :
    (mask &&& (if trim text1 = text1 then v1 else 0) =
        mask &&& (if trim text2 = text2 then v2 else 0) ↔ mask &&& v1 = mask &&& v2) ↔
      BlanksHarmless text1 text2 v1 v2 mask := by
  have nothing : mask &&& 0 = 0 := Int32.and_zero
  rw [BlanksHarmless]
  by_cases trimmed1 : trim text1 = text1 <;> by_cases trimmed2 : trim text2 = text2
  · simp [trimmed1, trimmed2]
  · simp only [trimmed1, trimmed2, if_true, if_false, nothing]
    grind
  · simp only [trimmed1, trimmed2, if_true, if_false, nothing]
    grind
  · simp [trimmed1, trimmed2]

theorem not_accepted (ip1 ip2 : Option JString) (mask : Int32)
    (rejected : ¬(ipV4Validate ip1 = true ∧ ipV4Validate ip2 = true)) :
    checkSameSegment ip1 ip2 mask = .ok false := by
  simp only [checkSameSegment]
  cases valid1 : ipV4Validate ip1 with
  | false => rfl
  | true =>
      cases valid2 : ipV4Validate ip2 with
      | false => rfl
      | true => exact absurd ⟨valid1, valid2⟩ rejected

end AndroidCollection.Net
