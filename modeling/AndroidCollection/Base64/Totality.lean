import AndroidCollection.Base64.RoundTrip

/-!
# Texts on which `decode` throws

Every loop of `decode` reads a byte before it looks whether there is one. The
first loop of a group is entered only when something is left, the others are
not, so a text whose last character begins or continues a group and does not
complete it makes the next loop read behind the end. A character which is no
digit at the end of the text, or padding behind the second or third digit of a
group, ends the decoding before.
-/

namespace AndroidCollection.Base64

open Java

/-- The number of characters which stand for six bits. -/
def digits (text : JString) : ℕ :=
  text.countP fun unit => unit ∈ alphabet

/-- The text ends with a digit inside a group, and no padding ends the decoding before. -/
structure Truncated (text : JString) : Prop where
  last : ∃ unit, text.getLast? = some unit ∧ unit ∈ alphabet
  incomplete : digits text % 4 ≠ 0
  unpadded : ∀ before after, text = before ++ padChar :: after → digits before % 4 < 2

/-! ## The loops -/

def IsDigit (byte : UInt8) : Prop :=
  decodeChar byte ≠ .ok (-1)

instance (byte : UInt8) : Decidable (IsDigit byte) :=
  inferInstanceAs (Decidable (_ ≠ _))

/-- What is left of a text is cut off when `started` digits of a group have been read. -/
def Cut : ℕ → List UInt8 → Prop
  | started, [] => started ≠ 0
  | started, byte :: data =>
      if byte = 61 ∧ 2 ≤ started then False
      else if IsDigit byte then Cut ((started + 1) % 4) data
      else data ≠ [] ∧ Cut started data

theorem not_isDigit_pad : ¬IsDigit 61 := by
  decide

/-- An ASCII byte is read as a value or as -1. -/
theorem decodeChar_cases {byte : UInt8} (isAscii : byte.toNat < 128) :
    (∃ value, decodeChar byte = .ok value ∧ value ≠ -1 ∧ IsDigit byte) ∨
      decodeChar byte = .ok (-1) ∧ ¬IsDigit byte := by
  have inTable : byte.toNat < base64DecodeChars.length := isAscii
  have decoded : decodeChar byte = .ok base64DecodeChars[byte.toNat] := by
    rw [decodeChar, List.getElem?_eq_getElem inTable]
  by_cases noValue : base64DecodeChars[byte.toNat] = -1
  · rw [noValue] at decoded
    exact Or.inr ⟨decoded, not_not_intro decoded⟩
  · refine Or.inl ⟨_, decoded, noValue, fun isNone => ?_⟩
    rw [decoded] at isNone
    exact noValue (Except.ok.inj isNone)

section Loops

variable {data : List UInt8} {started : ℕ}

/-- The loop for the first or the second digit finds it, or finds nothing up to the end. -/
theorem scan_cut (isAscii : ∀ byte ∈ data, byte.toNat < 128) (nonempty : data ≠ [])
    (early : started < 2) :
    (∃ value rest, scan data = .ok (value, rest) ∧ value ≠ -1 ∧ rest.length < data.length ∧
        rest ⊆ data ∧ (Cut started data ↔ Cut (started + 1) rest)) ∨
      ∃ rest, scan data = .ok (-1, rest) ∧ ¬Cut started data := by
  induction data with
  | nil => exact absurd rfl nonempty
  | cons byte data ih =>
      have unpadded : ¬(byte = 61 ∧ 2 ≤ started) := by omega
      rw [scan, Cut, if_neg unpadded]
      rcases decodeChar_cases (isAscii byte List.mem_cons_self) with
        ⟨value, decoded, isValue, digit⟩ | ⟨decoded, noDigit⟩
      · left
        rw [decoded, if_pos digit, Nat.mod_eq_of_lt (by omega)]
        exact ⟨value, data, if_neg fun more => isValue more.2, isValue, by simp, by simp, Iff.rfl⟩
      · rw [decoded, if_neg noDigit]
        dsimp only
        by_cases last : data = []
        · right
          rw [if_neg fun more => more.1 last]
          exact ⟨data, rfl, fun more => more.1 last⟩
        · rw [if_pos ⟨last, rfl⟩, and_iff_right last]
          have later : ∀ byte ∈ data, byte.toNat < 128 := fun other otherMem =>
            isAscii other (List.mem_cons_of_mem _ otherMem)
          rcases ih later last with ⟨found, rest, scanned, isFound, shorter, sub, agree⟩ | nothing
          · left
            exact ⟨found, rest, scanned, isFound, shorter.trans (by simp),
              List.Subset.trans sub (List.subset_cons_self _ _), agree⟩
          · right
            exact nothing

/-- The loop for the third or the fourth digit also stops at padding. -/
theorem scanPadded_cut (isAscii : ∀ byte ∈ data, byte.toNat < 128) (nonempty : data ≠ [])
    (late : 2 ≤ started) :
    (∃ value rest, scanPadded data = .ok (some value, rest) ∧ value ≠ -1 ∧
        rest.length < data.length ∧ rest ⊆ data ∧
        (Cut started data ↔ Cut ((started + 1) % 4) rest)) ∨
      ∃ found rest, scanPadded data = .ok (found, rest) ∧ (found = none ∨ found = some (-1)) ∧
        ¬Cut started data := by
  induction data with
  | nil => exact absurd rfl nonempty
  | cons byte data ih =>
      rw [scanPadded, Cut]
      by_cases padded : byte = 61
      · right
        rw [if_pos padded, if_pos ⟨padded, late⟩]
        exact ⟨none, data, rfl, Or.inl rfl, not_false⟩
      · rw [if_neg padded, if_neg fun both => padded both.1]
        rcases decodeChar_cases (isAscii byte List.mem_cons_self) with
          ⟨value, decoded, isValue, digit⟩ | ⟨decoded, noDigit⟩
        · left
          rw [decoded, if_pos digit]
          exact ⟨value, data, if_neg fun more => isValue more.2, isValue, by simp, by simp, Iff.rfl⟩
        · rw [decoded, if_neg noDigit]
          dsimp only
          by_cases last : data = []
          · right
            rw [if_neg fun more => more.1 last]
            exact ⟨_, data, rfl, Or.inr rfl, fun more => more.1 last⟩
          · rw [if_pos ⟨last, rfl⟩, and_iff_right last]
            have later : ∀ byte ∈ data, byte.toNat < 128 := fun other otherMem =>
              isAscii other (List.mem_cons_of_mem _ otherMem)
            rcases ih later last with ⟨found, rest, scanned, isFound, shorter, sub, agree⟩ | nothing
            · left
              exact ⟨found, rest, scanned, isFound, shorter.trans (by simp),
                List.Subset.trans sub (List.subset_cons_self _ _), agree⟩
            · right
              exact nothing

end Loops

/-! ## The groups -/

section Groups

variable {data : List UInt8} {sb : JString} {started : ℕ}

/-- What is done after one of the first two loops of a group. -/
def afterScan (scanned : Except Throwable (ℤ × List UInt8)) (sb : JString)
    (next : ℤ → List UInt8 → Except Throwable JString) : Except Throwable JString :=
  match scanned with
  | .error thrown => .error thrown
  | .ok (b, data) => if b = -1 then .ok sb else next b data

/-- What is done after one of the last two loops of a group. -/
def afterScanPadded (scanned : Except Throwable (Option ℤ × List UInt8)) (sb : JString)
    (next : ℤ → List UInt8 → Except Throwable JString) : Except Throwable JString :=
  match scanned with
  | .error thrown => .error thrown
  | .ok (none, _) => .ok sb
  | .ok (some b, data) => if b = -1 then .ok sb else next b data

/-- A round of the loop over the groups as one step after the other. -/
theorem decodeGroups_succ {rounds : ℕ} (nonempty : data ≠ []) :
    decodeGroups (rounds + 1) data sb =
      afterScan (scan data) sb fun b1 data =>
        afterScan (scan data) sb fun b2 data =>
          let sb := sb ++ [toChar ((b1.toNat <<< 2) ||| ((b2.toNat &&& 0x30) >>> 4))]
          afterScanPadded (scanPadded data) sb fun b3 data =>
            let sb := sb ++ [toChar (((b2.toNat &&& 0x0F) <<< 4) ||| ((b3.toNat &&& 0x3C) >>> 2))]
            afterScanPadded (scanPadded data) sb fun b4 data =>
              decodeGroups rounds data
                (sb ++ [toChar (((b3.toNat &&& 0x03) <<< 6) ||| b4.toNat)]) := by
  rw [decodeGroups, if_neg nonempty]
  rfl

theorem exists_afterScan_iff {next : ℤ → List UInt8 → Except Throwable JString}
    (isAscii : ∀ byte ∈ data, byte.toNat < 128) (early : started < 2)
    (begun : data = [] → started ≠ 0)
    (later : ∀ b rest, rest.length < data.length → (∀ byte ∈ rest, byte.toNat < 128) →
      ((∃ decoded, next b rest = .ok decoded) ↔ ¬Cut (started + 1) rest)) :
    (∃ decoded, afterScan (scan data) sb next = .ok decoded) ↔ ¬Cut started data := by
  by_cases empty : data = []
  · subst empty
    have cutOff : Cut started [] := begun rfl
    refine iff_of_false ?_ (not_not_intro cutOff)
    rintro ⟨decoded, wrong⟩
    cases wrong
  · rcases scan_cut isAscii empty early with
      ⟨b, rest, scanned, isValue, shorter, sub, agree⟩ | ⟨rest, scanned, uncut⟩
    · rw [scanned, afterScan, if_neg isValue, agree]
      exact later b rest shorter fun byte byteMem => isAscii byte (sub byteMem)
    · rw [scanned]
      exact iff_of_true ⟨sb, rfl⟩ uncut

theorem exists_afterScanPadded_iff {next : ℤ → List UInt8 → Except Throwable JString}
    (isAscii : ∀ byte ∈ data, byte.toNat < 128) (late : 2 ≤ started)
    (later : ∀ b rest, rest.length < data.length → (∀ byte ∈ rest, byte.toNat < 128) →
      ((∃ decoded, next b rest = .ok decoded) ↔ ¬Cut ((started + 1) % 4) rest)) :
    (∃ decoded, afterScanPadded (scanPadded data) sb next = .ok decoded) ↔ ¬Cut started data := by
  by_cases empty : data = []
  · subst empty
    have cutOff : Cut started [] := show started ≠ 0 by omega
    refine iff_of_false ?_ (not_not_intro cutOff)
    rintro ⟨decoded, wrong⟩
    cases wrong
  · rcases scanPadded_cut isAscii empty late with
      ⟨b, rest, scanned, isValue, shorter, sub, agree⟩ | ⟨found, rest, scanned, ends, uncut⟩
    · rw [scanned, afterScanPadded, if_neg isValue, agree]
      exact later b rest shorter fun byte byteMem => isAscii byte (sub byteMem)
    · rw [scanned]
      rcases ends with rfl | rfl
      · exact iff_of_true ⟨sb, rfl⟩ uncut
      · exact iff_of_true ⟨sb, rfl⟩ uncut

/-- The loop over the groups throws exactly where what is left is cut off. -/
theorem exists_decodeGroups_iff {rounds : ℕ} (isAscii : ∀ byte ∈ data, byte.toNat < 128)
    (enough : data.length ≤ rounds) :
    (∃ decoded, decodeGroups rounds data sb = .ok decoded) ↔ ¬Cut 0 data := by
  have uncut : ¬Cut 0 [] := fun inside => inside rfl
  induction rounds generalizing data sb with
  | zero =>
      have empty : data = [] := List.length_eq_zero_iff.mp (by omega)
      rw [empty]
      exact iff_of_true ⟨sb, rfl⟩ uncut
  | succ rounds ih =>
      by_cases empty : data = []
      · rw [empty]
        exact iff_of_true ⟨sb, rfl⟩ uncut
      · rw [decodeGroups_succ empty]
        apply exists_afterScan_iff isAscii (by decide) fun isEmpty => absurd isEmpty empty
        intro b1 data₁ shorter₁ isAscii₁
        apply exists_afterScan_iff isAscii₁ (by decide) fun _ => one_ne_zero
        intro b2 data₂ shorter₂ isAscii₂
        apply exists_afterScanPadded_iff isAscii₂ le_rfl
        intro b3 data₃ shorter₃ isAscii₃
        apply exists_afterScanPadded_iff isAscii₃ (by decide)
        intro b4 data₄ shorter₄ isAscii₄
        exact ih isAscii₄ (by omega)

end Groups

/-! ## From the bytes to the text -/

section Text

variable {text : JString} {unit : UInt16} {started : ℕ}

def asciiByte (unit : UInt16) : UInt8 :=
  if unit.toNat < 0x80 then UInt8.ofNat unit.toNat else replacementByte

theorem asciiBytes_cons : asciiBytes (unit :: text) = asciiByte unit :: asciiBytes text :=
  rfl

theorem asciiByte_lt (unit : UInt16) : (asciiByte unit).toNat < 128 := by
  unfold asciiByte
  split
  · rename_i isAscii
    rwa [UInt8.toNat_ofNat_of_lt' (by simp [UInt8.size]; omega)]
  · decide

theorem asciiByte_eq_pad_iff : asciiByte unit = 61 ↔ unit = padChar := by
  constructor
  · intro isPad
    unfold asciiByte at isPad
    split at isPad
    · rename_i isAscii
      have value : unit.toNat = 61 := ofNat_inj_of_lt (by omega) (by decide) isPad
      exact UInt16.toNat_inj.mp value
    · exact absurd isPad (by decide)
  · rintro rfl
    decide

theorem padChar_notMem_alphabet : padChar ∉ alphabet := by
  decide

theorem isDigit_asciiByte_iff : IsDigit (asciiByte unit) ↔ unit ∈ alphabet := by
  have relevant : asciiByte unit = 61 ∨ IsDigit (asciiByte unit) ↔ ¬Noise unit :=
    relevant_iff unit
  by_cases padded : unit = padChar
  · rw [asciiByte_eq_pad_iff.mpr padded, padded]
    exact iff_of_false not_isDigit_pad padChar_notMem_alphabet
  · rwa [asciiByte_eq_pad_iff, or_iff_right padded, Noise, and_iff_left padded, not_not] at relevant

theorem digits_cons (unit : UInt16) (text : JString) :
    digits (unit :: text) = digits text + if unit ∈ alphabet then 1 else 0 := by
  rw [digits, digits, List.countP_cons]
  simp only [decide_eq_true_eq]

/-- The rest of a text ends inside a group of which `started` digits have been read. -/
structure TruncatedFrom (started : ℕ) (text : JString) : Prop where
  last : ∀ unit, text.getLast? = some unit → unit ∈ alphabet
  incomplete : (started + digits text) % 4 ≠ 0
  unpadded : ∀ before after, text = before ++ padChar :: after →
    (started + digits before) % 4 < 2

theorem truncated_iff : Truncated text ↔ TruncatedFrom 0 text := by
  constructor
  · intro truncated
    rcases truncated.last with ⟨unit, isLast, isDigit⟩
    refine ⟨fun other otherLast => ?_, by simpa using truncated.incomplete, ?_⟩
    · rw [isLast] at otherLast
      exact Option.some.inj otherLast ▸ isDigit
    · simpa using truncated.unpadded
  · intro truncated
    refine ⟨?_, by simpa using truncated.incomplete, by simpa using truncated.unpadded⟩
    cases isLast : text.getLast? with
    | none =>
        rw [List.getLast?_eq_none_iff] at isLast
        exact absurd (by rw [isLast]; rfl) truncated.incomplete
    | some unit => exact ⟨unit, rfl, truncated.last unit isLast⟩

theorem truncatedFrom_mod :
    TruncatedFrom (started % 4) text ↔ TruncatedFrom started text := by
  constructor
  · rintro ⟨last, incomplete, unpadded⟩
    refine ⟨last, by rwa [Nat.mod_add_mod] at incomplete, fun before after split => ?_⟩
    have early := unpadded before after split
    rwa [Nat.mod_add_mod] at early
  · rintro ⟨last, incomplete, unpadded⟩
    refine ⟨last, by rwa [Nat.mod_add_mod], fun before after split => ?_⟩
    rw [Nat.mod_add_mod]
    exact unpadded before after split

theorem truncatedFrom_digit (isDigit : unit ∈ alphabet) :
    TruncatedFrom started (unit :: text) ↔ TruncatedFrom (started + 1) text := by
  have notPad : unit ≠ padChar := by
    rintro rfl
    exact padChar_notMem_alphabet isDigit
  have counted (rest : JString) :
      started + digits (unit :: rest) = started + 1 + digits rest := by
    rw [digits_cons, if_pos isDigit]
    omega
  constructor
  · rintro ⟨last, incomplete, unpadded⟩
    refine ⟨fun other otherLast => ?_, by rwa [counted] at incomplete, ?_⟩
    · apply last
      rw [List.getLast?_cons, otherLast]
      rfl
    · rintro before after rfl
      have early := unpadded (unit :: before) after rfl
      rwa [counted] at early
  · rintro ⟨last, incomplete, unpadded⟩
    refine ⟨fun other otherLast => ?_, by rwa [counted], ?_⟩
    · rw [List.getLast?_cons] at otherLast
      cases later : text.getLast? with
      | none =>
          rw [later] at otherLast
          exact Option.some.inj otherLast ▸ isDigit
      | some found =>
          rw [later] at otherLast
          exact last other (later.trans otherLast)
    · intro before after split
      cases before with
      | nil => exact absurd (List.cons.inj split).1 notPad
      | cons first before =>
          rcases List.cons.inj split with ⟨rfl, rest⟩
          rw [counted]
          exact unpadded before after rest

/-- A character which is no digit and does not end the decoding is skipped, unless it is the last
one. -/
theorem truncatedFrom_skip (notDigit : unit ∉ alphabet)
    (skipped : unit = padChar → started % 4 < 2) :
    TruncatedFrom started (unit :: text) ↔ text ≠ [] ∧ TruncatedFrom started text := by
  have counted (rest : JString) : digits (unit :: rest) = digits rest := by
    rw [digits_cons, if_neg notDigit, Nat.add_zero]
  constructor
  · rintro ⟨last, incomplete, unpadded⟩
    have nonempty : text ≠ [] := by
      rintro rfl
      exact notDigit (last unit rfl)
    refine ⟨nonempty, fun other otherLast => ?_, by rwa [counted] at incomplete, ?_⟩
    · apply last
      rw [List.getLast?_cons, otherLast]
      rfl
    · rintro before after rfl
      have early := unpadded (unit :: before) after rfl
      rwa [counted] at early
  · rintro ⟨nonempty, last, incomplete, unpadded⟩
    refine ⟨fun other otherLast => ?_, by rwa [counted], ?_⟩
    · apply last
      rw [List.getLast?_cons, List.getLast?_eq_some_getLast nonempty] at otherLast
      rw [List.getLast?_eq_some_getLast nonempty]
      exact otherLast
    · intro before after split
      cases before with
      | nil => exact skipped (List.cons.inj split).1
      | cons first before =>
          rcases List.cons.inj split with ⟨rfl, rest⟩
          rw [counted]
          exact unpadded before after rest

theorem cut_asciiBytes_iff (inGroup : started < 4) :
    Cut started (asciiBytes text) ↔ TruncatedFrom started text := by
  induction text generalizing started with
  | nil =>
      constructor
      · intro inside
        refine ⟨fun unit isLast => ?_, ?_, fun before after split => ?_⟩
        · cases isLast
        · rw [digits, List.countP_nil, Nat.add_zero, Nat.mod_eq_of_lt inGroup]
          exact inside
        · exact absurd split.symm (List.append_ne_nil_of_right_ne_nil _ (List.cons_ne_nil _ _))
      · intro truncated start
        exact truncated.incomplete (by rw [start]; rfl)
  | cons unit text ih =>
      rw [asciiBytes_cons, Cut]
      simp only [asciiByte_eq_pad_iff]
      by_cases ends : unit = padChar ∧ 2 ≤ started
      · rw [if_pos ends]
        refine iff_of_false not_false fun truncated => ?_
        have early := truncated.unpadded [] text (by rw [ends.1]; rfl)
        rw [digits, List.countP_nil, Nat.add_zero, Nat.mod_eq_of_lt inGroup] at early
        omega
      rw [if_neg ends]
      by_cases digit : unit ∈ alphabet
      · rw [if_pos (isDigit_asciiByte_iff.mpr digit), ih (Nat.mod_lt _ (by decide)),
          truncatedFrom_mod, truncatedFrom_digit digit]
      · have skipped : unit = padChar → started % 4 < 2 := by
          intro isPad
          rw [Nat.mod_eq_of_lt inGroup]
          by_contra late
          exact ends ⟨isPad, by omega⟩
        have nonempty : asciiBytes text ≠ [] ↔ text ≠ [] := by
          rw [asciiBytes, Ne, List.map_eq_nil_iff]
        rw [if_neg (mt isDigit_asciiByte_iff.mp digit), ih inGroup, nonempty,
          truncatedFrom_skip digit skipped]

end Text

/-- `decode` returns exactly on the texts which are not cut off inside a group. -/
theorem exists_decode_iff (text : JString) :
    (∃ data, decode text = .ok data) ↔ ¬Truncated text := by
  have isAscii : ∀ byte ∈ asciiBytes text, byte.toNat < 128 := by
    intro byte byteMem
    rcases List.mem_map.mp byteMem with ⟨unit, _, rfl⟩
    exact asciiByte_lt unit
  rw [truncated_iff, ← cut_asciiBytes_iff (by decide),
    ← exists_decodeGroups_iff isAscii le_rfl, decode, decodePrivate]
  cases decodeGroups (asciiBytes text).length (asciiBytes text) [] with
  | error thrown =>
      constructor
      · rintro ⟨data, wrong⟩
        cases wrong
      · rintro ⟨sb, wrong⟩
        cases wrong
  | ok sb => exact iff_of_true ⟨_, rfl⟩ ⟨sb, rfl⟩

/-- One letter begins a group, and the loop for the second letter reads behind it. -/
theorem not_exists_decode_letter : ¬∀ text, ∃ data, decode text = .ok data := by
  intro total
  have thrown : decode (ascii ['A']) = .error .arrayIndexOutOfBoundsException := by decide
  rcases total (ascii ['A']) with ⟨data, decoded⟩
  rw [thrown] at decoded
  cases decoded

end AndroidCollection.Base64
