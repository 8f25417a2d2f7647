import AndroidCollection.Base64.Util
import AndroidCollection.Lib.Rfc4648
import Mathlib.Data.List.Basic

/-!
# Decoding an encoded text with noise

The scanning loops skip what is outside the alphabet, so a group is decoded from
the characters of the text alone, wherever the noise stands. The decoder stops
at the first padding character, and noise which is left over at the end is
scanned without a result.
-/

namespace AndroidCollection.Base64

open Java

/-! ## Bits of groups -/

section Bits

variable (x : ℕ) (n i : ℕ)

theorem and_mask_shiftRight : (x &&& ((2 ^ n - 1) <<< i)) >>> i = x / 2 ^ i % 2 ^ n := by
  rw [Nat.shiftRight_and_distrib, Nat.shiftLeft_shiftRight, Nat.and_two_pow_sub_one_eq_mod,
    Nat.shiftRight_eq_div_pow]

theorem shiftLeft_or {low : ℕ} (fits : low < 2 ^ i) : x <<< i ||| low = x * 2 ^ i + low := by
  rw [← Nat.shiftLeft_add_eq_or_of_lt fits, Nat.shiftLeft_eq]

end Bits

section Digits

variable (b1 b2 b3 : UInt8)

theorem first_digit : b1.toNat >>> 2 = b1.toNat / 4 :=
  Nat.shiftRight_eq_div_pow _ 2

theorem second_digit : ((b1.toNat &&& 0x03) <<< 4) ||| ((b2.toNat &&& 0xF0) >>> 4) =
    b1.toNat % 4 * 16 + b2.toNat / 16 := by
  have isByte := b2.toNat_lt
  have high : b1.toNat &&& 0x03 = b1.toNat % 4 := Nat.and_two_pow_sub_one_eq_mod _ 2
  have low : (b2.toNat &&& 0xF0) >>> 4 = b2.toNat / 16 % 16 := and_mask_shiftRight _ 4 4
  rw [high, low, shiftLeft_or _ _ (by omega)]
  omega

theorem second_digit_alone : (b1.toNat &&& 0x3) <<< 4 = b1.toNat % 4 * 16 := by
  have high : b1.toNat &&& 0x03 = b1.toNat % 4 := Nat.and_two_pow_sub_one_eq_mod _ 2
  rw [high, Nat.shiftLeft_eq]

theorem third_digit : ((b2.toNat &&& 0x0F) <<< 2) ||| ((b3.toNat &&& 0xC0) >>> 6) =
    b2.toNat % 16 * 4 + b3.toNat / 64 := by
  have isByte := b3.toNat_lt
  have high : b2.toNat &&& 0x0F = b2.toNat % 16 := Nat.and_two_pow_sub_one_eq_mod _ 4
  have low : (b3.toNat &&& 0xC0) >>> 6 = b3.toNat / 64 % 4 := and_mask_shiftRight _ 2 6
  rw [high, low, shiftLeft_or _ _ (by omega)]
  omega

theorem third_digit_alone : (b2.toNat &&& 0x0F) <<< 2 = b2.toNat % 16 * 4 := by
  have high : b2.toNat &&& 0x0F = b2.toNat % 16 := Nat.and_two_pow_sub_one_eq_mod _ 4
  rw [high, Nat.shiftLeft_eq]

theorem fourth_digit : b3.toNat &&& 0x3F = b3.toNat % 64 :=
  Nat.and_two_pow_sub_one_eq_mod _ 6

end Digits

/-! ## The encoder -/

section Encode

variable (b1 b2 b3 : UInt8) (data : List UInt8)

theorem encode_one : encode [b1] =
    [encodeChar (b1.toNat / 4), encodeChar (b1.toNat % 4 * 16), padChar, padChar] := by
  rw [encode, first_digit, second_digit_alone]

theorem encode_two : encode [b1, b2] =
    [encodeChar (b1.toNat / 4), encodeChar (b1.toNat % 4 * 16 + b2.toNat / 16),
      encodeChar (b2.toNat % 16 * 4), padChar] := by
  rw [encode, first_digit, second_digit, third_digit_alone]

theorem encode_three : encode (b1 :: b2 :: b3 :: data) =
    encodeChar (b1.toNat / 4) :: encodeChar (b1.toNat % 4 * 16 + b2.toNat / 16) ::
      encodeChar (b2.toNat % 16 * 4 + b3.toNat / 64) :: encodeChar (b3.toNat % 64) ::
        encode data := by
  rw [encode, first_digit, second_digit, third_digit, fourth_digit]
  rfl

end Encode

/-- The table of the encoder is the alphabet. -/
theorem ascii_digit :
    ∀ value < 64, UInt16.ofNat (Rfc4648.digit value).toNat = encodeChar value := by
  decide

theorem group_digits (b1 b2 b3 : UInt8) :
    Rfc4648.group b1 b2 b3 / 64 ^ 3 % 64 = b1.toNat / 4 ∧
      Rfc4648.group b1 b2 b3 / 64 ^ 2 % 64 = b1.toNat % 4 * 16 + b2.toNat / 16 ∧
      Rfc4648.group b1 b2 b3 / 64 ^ 1 % 64 = b2.toNat % 16 * 4 + b3.toNat / 64 ∧
      Rfc4648.group b1 b2 b3 / 64 ^ 0 % 64 = b3.toNat % 64 := by
  have firstByte := b1.toNat_lt
  have secondByte := b2.toNat_lt
  have thirdByte := b3.toNat_lt
  simp only [Rfc4648.group]
  omega

/-- The encoder writes the Base64 text. -/
theorem encode_eq (data : List UInt8) : encode data = ascii (Rfc4648.encode data) := by
  have digitAt (value k : ℕ) : UInt16.ofNat (Rfc4648.digit (value / 64 ^ k % 64)).toNat =
      encodeChar (value / 64 ^ k % 64) :=
    ascii_digit _ (Nat.mod_lt _ (by decide))
  match data with
  | [] => rfl
  | [b1] =>
      rcases group_digits b1 0 0 with ⟨first, second, _, _⟩
      change _ = b1.toNat % 4 * 16 at second
      rw [encode_one, ← first, ← second, ← digitAt, ← digitAt]
      rfl
  | [b1, b2] =>
      rcases group_digits b1 b2 0 with ⟨first, second, third, _⟩
      change _ = b2.toNat % 16 * 4 at third
      rw [encode_two, ← first, ← second, ← third, ← digitAt, ← digitAt, ← digitAt]
      rfl
  | b1 :: b2 :: b3 :: data =>
      rcases group_digits b1 b2 b3 with ⟨first, second, third, fourth⟩
      rw [encode_three, ← first, ← second, ← third, ← fourth, ← digitAt, ← digitAt, ← digitAt,
        ← digitAt, encode_eq data]
      rfl

/-! ## Noise -/

/-- The characters of Base64 texts apart from the padding. -/
def alphabet : JString :=
  ascii ((List.range 64).map Rfc4648.digit)

/-- A character which is neither in the alphabet nor the padding character. -/
def Noise (unit : UInt16) : Prop :=
  unit ∉ alphabet ∧ unit ≠ padChar

instance (unit : UInt16) : Decidable (Noise unit) :=
  inferInstanceAs (Decidable (_ ∧ _))

inductive Inserted : JString → JString → Prop where
  | nil : Inserted [] []
  | keep {text noisy : JString} (unit : UInt16) :
      Inserted text noisy → Inserted (unit :: text) (unit :: noisy)
  | noise {text noisy : JString} {unit : UInt16} :
      Noise unit → Inserted text noisy → Inserted text (unit :: noisy)

/-- A byte which the scanning loops do not skip. -/
def Relevant (byte : UInt8) : Prop :=
  byte = 61 ∨ decodeChar byte ≠ .ok (-1)

instance (byte : UInt8) : Decidable (Relevant byte) :=
  inferInstanceAs (Decidable (_ ∨ _))

def digitByte (value : ℕ) : UInt8 :=
  UInt8.ofNat (encodeChar value).toNat

theorem decodeChar_digitByte : ∀ value < 64,
    digitByte value ≠ 61 ∧ decodeChar (digitByte value) = .ok (value : ℤ) := by
  decide

theorem alphabet_ascii : ∀ unit ∈ alphabet, unit.toNat < 128 := by
  rw [← List.forall_mem_map (P := fun value => value < 128)]
  decide

theorem relevant_ascii : ∀ value < 128,
    (Relevant (UInt8.ofNat value) ↔ ¬Noise (UInt16.ofNat value)) := by
  decide +kernel

/-- The scanning loops skip the bytes of noise only. -/
theorem relevant_iff (unit : UInt16) :
    Relevant (if unit.toNat < 0x80 then UInt8.ofNat unit.toNat else replacementByte) ↔
      ¬Noise unit := by
  split
  · rename_i isAscii
    have known := relevant_ascii unit.toNat isAscii
    rwa [UInt16.ofNat_toNat] at known
  · rename_i notAscii
    have noise : Noise unit := by
      refine ⟨fun unitMem => notAscii (alphabet_ascii unit unitMem), ?_⟩
      rintro rfl
      exact notAscii (by decide)
    have irrelevant : ¬Relevant replacementByte := by decide
    simp [noise, irrelevant]

theorem filter_relevant_asciiBytes {text noisy : JString} (inserted : Inserted text noisy)
    (clean : ∀ unit ∈ text, ¬Noise unit) :
    (asciiBytes noisy).filter (fun byte => Relevant byte) = asciiBytes text := by
  induction inserted with
  | nil => rfl
  | keep unit _ ih =>
      have relevant := (relevant_iff unit).mpr (clean unit List.mem_cons_self)
      rw [asciiBytes, List.map_cons, List.filter_cons_of_pos (by simpa using relevant)]
      exact congrArg _ (ih fun other otherMem => clean other (List.mem_cons_of_mem _ otherMem))
  | @noise _ _ unit isNoise _ ih =>
      have irrelevant := (not_congr (relevant_iff unit)).mpr (not_not.mpr isNoise)
      rw [asciiBytes, List.map_cons, List.filter_cons_of_neg (by simpa using irrelevant)]
      exact ih clean

/-! ## The scanning loops -/

section Scan

variable {noise data : List UInt8} {byte : UInt8} {value : ℤ}

theorem eq_of_irrelevant (irrelevant : ¬Relevant byte) :
    byte ≠ 61 ∧ decodeChar byte = .ok (-1) := by
  rw [Relevant, not_or, not_not] at irrelevant
  exact irrelevant

theorem scan_noise (irrelevant : ∀ other ∈ noise, ¬Relevant other) (nonempty : noise ≠ []) :
    scan noise = .ok (-1, []) := by
  induction noise with
  | nil => exact absurd rfl nonempty
  | cons other noise ih =>
      rw [scan, (eq_of_irrelevant (irrelevant other List.mem_cons_self)).2]
      dsimp only
      by_cases last : noise = []
      · rw [if_neg (fun more => more.1 last), last]
      · rw [if_pos ⟨last, rfl⟩]
        exact ih (fun next nextMem => irrelevant next (List.mem_cons_of_mem _ nextMem)) last

theorem scan_append (irrelevant : ∀ other ∈ noise, ¬Relevant other)
    (decoded : decodeChar byte = .ok value) (isDigit : value ≠ -1) :
    scan (noise ++ byte :: data) = .ok (value, data) := by
  induction noise with
  | nil =>
      rw [List.nil_append, scan, decoded]
      exact if_neg fun more => isDigit more.2
  | cons other noise ih =>
      rw [List.cons_append, scan, (eq_of_irrelevant (irrelevant other List.mem_cons_self)).2]
      dsimp only
      rw [if_pos ⟨by simp, rfl⟩]
      exact ih fun next nextMem => irrelevant next (List.mem_cons_of_mem _ nextMem)

theorem scanPadded_append (irrelevant : ∀ other ∈ noise, ¬Relevant other) (notPad : byte ≠ 61)
    (decoded : decodeChar byte = .ok value) (isDigit : value ≠ -1) :
    scanPadded (noise ++ byte :: data) = .ok (some value, data) := by
  induction noise with
  | nil =>
      rw [List.nil_append, scanPadded, if_neg notPad, decoded]
      exact if_neg fun more => isDigit more.2
  | cons other noise ih =>
      have skipped := eq_of_irrelevant (irrelevant other List.mem_cons_self)
      rw [List.cons_append, scanPadded, if_neg skipped.1, skipped.2]
      dsimp only
      rw [if_pos ⟨by simp, rfl⟩]
      exact ih fun next nextMem => irrelevant next (List.mem_cons_of_mem _ nextMem)

theorem scanPadded_append_pad (irrelevant : ∀ other ∈ noise, ¬Relevant other) :
    scanPadded (noise ++ 61 :: data) = .ok (none, data) := by
  induction noise with
  | nil => rw [List.nil_append, scanPadded, if_pos rfl]
  | cons other noise ih =>
      have skipped := eq_of_irrelevant (irrelevant other List.mem_cons_self)
      rw [List.cons_append, scanPadded, if_neg skipped.1, skipped.2]
      dsimp only
      rw [if_pos ⟨by simp, rfl⟩]
      exact ih fun next nextMem => irrelevant next (List.mem_cons_of_mem _ nextMem)

end Scan

theorem exists_noise_append {bytes text : List UInt8} {byte : UInt8}
    (filtered : bytes.filter (fun other => Relevant other) = byte :: text) :
    ∃ noise rest, bytes = noise ++ byte :: rest ∧ (∀ other ∈ noise, ¬Relevant other) ∧
      rest.filter (fun other => Relevant other) = text := by
  rcases List.filter_eq_cons_iff.mp filtered with ⟨noise, rest, split, skipped, _, remaining⟩
  exact ⟨noise, rest, split, fun other otherMem => by simpa using skipped other otherMem, remaining⟩

section ScanFilter

variable {bytes text : List UInt8} {value : ℕ}

theorem natCast_ne_neg_one (value : ℕ) : (value : ℤ) ≠ -1 := by
  omega

/-- The next digit, wherever it stands. -/
theorem scan_of_filter (isDigit : value < 64)
    (filtered : bytes.filter (fun other => Relevant other) = digitByte value :: text) :
    ∃ rest, scan bytes = .ok ((value : ℤ), rest) ∧ rest.length < bytes.length ∧
      rest.filter (fun other => Relevant other) = text := by
  rcases exists_noise_append filtered with ⟨noise, rest, rfl, irrelevant, remaining⟩
  refine ⟨rest, ?_, by simp; omega, remaining⟩
  exact scan_append irrelevant (decodeChar_digitByte value isDigit).2 (natCast_ne_neg_one value)

theorem scanPadded_of_filter (isDigit : value < 64)
    (filtered : bytes.filter (fun other => Relevant other) = digitByte value :: text) :
    ∃ rest, scanPadded bytes = .ok (some (value : ℤ), rest) ∧ rest.length < bytes.length ∧
      rest.filter (fun other => Relevant other) = text := by
  rcases exists_noise_append filtered with ⟨noise, rest, rfl, irrelevant, remaining⟩
  refine ⟨rest, ?_, by simp; omega, remaining⟩
  have digit := decodeChar_digitByte value isDigit
  exact scanPadded_append irrelevant digit.1 digit.2 (natCast_ne_neg_one value)

theorem scanPadded_of_filter_pad
    (filtered : bytes.filter (fun other => Relevant other) = 61 :: text) :
    ∃ rest, scanPadded bytes = .ok (none, rest) := by
  rcases exists_noise_append filtered with ⟨noise, rest, rfl, irrelevant, _⟩
  exact ⟨rest, scanPadded_append_pad irrelevant⟩

end ScanFilter

/-! ## The groups -/

section Join

variable (d1 d2 d3 : ℕ)

theorem join_first : (d1 <<< 2) ||| ((d2 &&& 0x30) >>> 4) = d1 * 4 + d2 / 16 % 4 := by
  have low : (d2 &&& 0x30) >>> 4 = d2 / 16 % 4 := and_mask_shiftRight d2 2 4
  rw [low, shiftLeft_or _ _ (by omega)]
  rfl

theorem join_second : ((d2 &&& 0x0F) <<< 4) ||| ((d3 &&& 0x3C) >>> 2) =
    d2 % 16 * 16 + d3 / 4 % 16 := by
  have high : d2 &&& 0x0F = d2 % 16 := Nat.and_two_pow_sub_one_eq_mod _ 4
  have low : (d3 &&& 0x3C) >>> 2 = d3 / 4 % 16 := and_mask_shiftRight d3 4 2
  rw [high, low, shiftLeft_or _ _ (by omega)]
  rfl

theorem join_third {d4 : ℕ} (isDigit : d4 < 64) :
    ((d3 &&& 0x03) <<< 6) ||| d4 = d3 % 4 * 64 + d4 := by
  have high : d3 &&& 0x03 = d3 % 4 := Nat.and_two_pow_sub_one_eq_mod _ 2
  rw [high, shiftLeft_or _ _ (by omega)]
  rfl

end Join

section Round

variable {bytes bytes₁ bytes₂ bytes₃ bytes₄ : List UInt8} {d1 d2 d3 d4 : ℕ}

theorem ne_nil_of_length_lt (shorter : bytes₁.length < bytes.length) : bytes ≠ [] := by
  rintro rfl
  exact absurd shorter (Nat.not_lt_zero _)

/-- A round which ends at the padding after two digits. -/
theorem decodeGroups_two (nonempty : bytes ≠ []) (scanned₁ : scan bytes = .ok ((d1 : ℤ), bytes₁))
    (scanned₂ : scan bytes₁ = .ok ((d2 : ℤ), bytes₂))
    (scanned₃ : scanPadded bytes₂ = .ok (none, bytes₃)) (rounds : ℕ) (sb : JString) :
    decodeGroups (rounds + 1) bytes sb = .ok (sb ++ [toChar (d1 * 4 + d2 / 16 % 4)]) := by
  simp only [decodeGroups, if_neg nonempty, scanned₁, scanned₂, scanned₃,
    if_neg (natCast_ne_neg_one _), Int.toNat_natCast, join_first]

theorem decodeGroups_three (nonempty : bytes ≠ [])
    (scanned₁ : scan bytes = .ok ((d1 : ℤ), bytes₁))
    (scanned₂ : scan bytes₁ = .ok ((d2 : ℤ), bytes₂))
    (scanned₃ : scanPadded bytes₂ = .ok (some (d3 : ℤ), bytes₃))
    (scanned₄ : scanPadded bytes₃ = .ok (none, bytes₄)) (rounds : ℕ) (sb : JString) :
    decodeGroups (rounds + 1) bytes sb =
      .ok (sb ++ [toChar (d1 * 4 + d2 / 16 % 4), toChar (d2 % 16 * 16 + d3 / 4 % 16)]) := by
  simp only [decodeGroups, if_neg nonempty, scanned₁, scanned₂, scanned₃, scanned₄,
    if_neg (natCast_ne_neg_one _), Int.toNat_natCast, join_first, join_second, List.append_assoc,
    List.cons_append, List.nil_append]

theorem decodeGroups_four (nonempty : bytes ≠ [])
    (scanned₁ : scan bytes = .ok ((d1 : ℤ), bytes₁))
    (scanned₂ : scan bytes₁ = .ok ((d2 : ℤ), bytes₂))
    (scanned₃ : scanPadded bytes₂ = .ok (some (d3 : ℤ), bytes₃))
    (scanned₄ : scanPadded bytes₃ = .ok (some (d4 : ℤ), bytes₄)) (isDigit : d4 < 64)
    (rounds : ℕ) (sb : JString) :
    decodeGroups (rounds + 1) bytes sb =
      decodeGroups rounds bytes₄ (sb ++ [toChar (d1 * 4 + d2 / 16 % 4),
        toChar (d2 % 16 * 16 + d3 / 4 % 16), toChar (d3 % 4 * 64 + d4)]) := by
  simp only [decodeGroups, if_neg nonempty, scanned₁, scanned₂, scanned₃, scanned₄,
    if_neg (natCast_ne_neg_one _), Int.toNat_natCast, join_first, join_second,
    join_third _ isDigit, List.append_assoc, List.cons_append, List.nil_append]

end Round

theorem asciiBytes_cons_encodeChar {value : ℕ} (isDigit : value < 64) (text : JString) :
    asciiBytes (encodeChar value :: text) = digitByte value :: asciiBytes text := by
  have isAscii : ∀ value < 64, (encodeChar value).toNat < 0x80 := by decide
  rw [asciiBytes, List.map_cons, if_pos (isAscii value isDigit)]
  rfl

def decodedChars (data : List UInt8) : JString :=
  data.map fun byte => toChar byte.toNat

/-! The digits of a group give back its bytes. -/

section Group

variable (b1 b2 b3 : UInt8)

theorem first_byte : b1.toNat / 4 * 4 + (b1.toNat % 4 * 16 + b2.toNat / 16) / 16 % 4 =
    b1.toNat := by
  have secondByte := b2.toNat_lt
  omega

theorem first_byte_alone : b1.toNat / 4 * 4 + b1.toNat % 4 * 16 / 16 % 4 = b1.toNat := by
  omega

theorem second_byte : (b1.toNat % 4 * 16 + b2.toNat / 16) % 16 * 16 +
    (b2.toNat % 16 * 4 + b3.toNat / 64) / 4 % 16 = b2.toNat := by
  have secondByte := b2.toNat_lt
  have thirdByte := b3.toNat_lt
  omega

theorem second_byte_alone : (b1.toNat % 4 * 16 + b2.toNat / 16) % 16 * 16 +
    b2.toNat % 16 * 4 / 4 % 16 = b2.toNat := by
  have secondByte := b2.toNat_lt
  omega

theorem third_byte : (b2.toNat % 16 * 4 + b3.toNat / 64) % 4 * 64 + b3.toNat % 64 =
    b3.toNat := by
  have thirdByte := b3.toNat_lt
  omega

end Group

/-! The last rounds of the loop, by the bytes which the encoder puts into them. -/

section LastRound

variable {bytes : List UInt8} {rounds : ℕ} {sb : JString}

theorem decodeGroups_noise (irrelevant : ∀ other ∈ bytes, ¬Relevant other) :
    decodeGroups rounds bytes sb = .ok sb := by
  cases rounds with
  | zero => rfl
  | succ rounds =>
      rw [decodeGroups]
      by_cases empty : bytes = []
      · rw [if_pos empty]
      · rw [if_neg empty, scan_noise irrelevant empty]
        rfl

theorem decodeGroups_one_byte {b1 : UInt8}
    (filtered : bytes.filter (fun other => Relevant other) = asciiBytes (encode [b1]))
    (enough : bytes.length ≤ rounds) :
    decodeGroups rounds bytes sb = .ok (sb ++ decodedChars [b1]) := by
  have firstByte := b1.toNat_lt
  rw [encode_one, asciiBytes_cons_encodeChar (by omega),
    asciiBytes_cons_encodeChar (by omega)] at filtered
  rcases scan_of_filter (by omega) filtered with ⟨bytes₁, scanned₁, shorter₁, filtered₁⟩
  rcases scan_of_filter (by omega) filtered₁ with ⟨bytes₂, scanned₂, _, filtered₂⟩
  rcases scanPadded_of_filter_pad filtered₂ with ⟨bytes₃, scanned₃⟩
  rcases Nat.exists_eq_succ_of_ne_zero (show rounds ≠ 0 by omega) with ⟨before, rfl⟩
  rw [decodeGroups_two (ne_nil_of_length_lt shorter₁) scanned₁ scanned₂ scanned₃,
    first_byte_alone]
  rfl

theorem decodeGroups_two_bytes {b1 b2 : UInt8}
    (filtered : bytes.filter (fun other => Relevant other) = asciiBytes (encode [b1, b2]))
    (enough : bytes.length ≤ rounds) :
    decodeGroups rounds bytes sb = .ok (sb ++ decodedChars [b1, b2]) := by
  have firstByte := b1.toNat_lt
  have secondByte := b2.toNat_lt
  rw [encode_two, asciiBytes_cons_encodeChar (by omega),
    asciiBytes_cons_encodeChar (by omega), asciiBytes_cons_encodeChar (by omega)] at filtered
  rcases scan_of_filter (by omega) filtered with ⟨bytes₁, scanned₁, shorter₁, filtered₁⟩
  rcases scan_of_filter (by omega) filtered₁ with ⟨bytes₂, scanned₂, _, filtered₂⟩
  rcases scanPadded_of_filter (by omega) filtered₂ with ⟨bytes₃, scanned₃, _, filtered₃⟩
  rcases scanPadded_of_filter_pad filtered₃ with ⟨bytes₄, scanned₄⟩
  rcases Nat.exists_eq_succ_of_ne_zero (show rounds ≠ 0 by omega) with ⟨before, rfl⟩
  rw [decodeGroups_three (ne_nil_of_length_lt shorter₁) scanned₁ scanned₂ scanned₃ scanned₄,
    first_byte, second_byte_alone]
  rfl

end LastRound

/-- A full group takes one round, and each of its digits at least one byte. -/
theorem decodeGroups_group {b1 b2 b3 : UInt8} {data bytes : List UInt8} {rounds : ℕ}
    (sb : JString)
    (filtered : bytes.filter (fun other => Relevant other) =
      asciiBytes (encode (b1 :: b2 :: b3 :: data)))
    (enough : bytes.length ≤ rounds) :
    ∃ later before, later.filter (fun other => Relevant other) = asciiBytes (encode data) ∧
      later.length ≤ before ∧
      decodeGroups rounds bytes sb =
        decodeGroups before later (sb ++ decodedChars [b1, b2, b3]) := by
  have firstByte := b1.toNat_lt
  have secondByte := b2.toNat_lt
  have thirdByte := b3.toNat_lt
  rw [encode_three, asciiBytes_cons_encodeChar (by omega),
    asciiBytes_cons_encodeChar (by omega), asciiBytes_cons_encodeChar (by omega),
    asciiBytes_cons_encodeChar (by omega)] at filtered
  rcases scan_of_filter (by omega) filtered with ⟨bytes₁, scanned₁, shorter₁, filtered₁⟩
  rcases scan_of_filter (by omega) filtered₁ with ⟨bytes₂, scanned₂, shorter₂, filtered₂⟩
  rcases scanPadded_of_filter (by omega) filtered₂ with ⟨bytes₃, scanned₃, shorter₃, filtered₃⟩
  rcases scanPadded_of_filter (by omega) filtered₃ with ⟨bytes₄, scanned₄, shorter₄, filtered₄⟩
  rcases Nat.exists_eq_succ_of_ne_zero (show rounds ≠ 0 by omega) with ⟨before, rfl⟩
  refine ⟨bytes₄, before, filtered₄, by omega, ?_⟩
  rw [decodeGroups_four (ne_nil_of_length_lt shorter₁) scanned₁ scanned₂ scanned₃ scanned₄
    (by omega), first_byte, second_byte, third_byte]
  rfl

/-- The loop decodes a noisy text from its relevant bytes. -/
theorem decodeGroups_eq (data : List UInt8) {bytes : List UInt8} {rounds : ℕ} {sb : JString}
    (filtered : bytes.filter (fun other => Relevant other) = asciiBytes (encode data))
    (enough : bytes.length ≤ rounds) :
    decodeGroups rounds bytes sb = .ok (sb ++ decodedChars data) := by
  match data with
  | [] =>
      have irrelevant : ∀ other ∈ bytes, ¬Relevant other := by
        simpa using List.filter_eq_nil_iff.mp filtered
      rw [decodeGroups_noise irrelevant, decodedChars, List.map_nil, List.append_nil]
  | [b1] => exact decodeGroups_one_byte filtered enough
  | [b1, b2] => exact decodeGroups_two_bytes filtered enough
  | b1 :: b2 :: b3 :: data =>
      rcases decodeGroups_group sb filtered enough with ⟨later, before, remaining, left, round⟩
      rw [round, decodeGroups_eq data remaining left, List.append_assoc]
      rfl

/-! ## The round trip -/

theorem latin1Bytes_decodedChars (data : List UInt8) : latin1Bytes (decodedChars data) = data := by
  have back (byte : UInt8) : (toChar byte.toNat).toNat = byte.toNat := by
    have isByte := byte.toNat_lt
    exact UInt16.toNat_ofNat_of_lt' (by simp [UInt16.size]; omega)
  rw [latin1Bytes, decodedChars, List.map_map]
  refine (List.map_congr_left fun byte _ => ?_).trans (List.map_id data)
  rw [Function.comp_apply, back, if_pos byte.toNat_lt, UInt8.ofNat_toNat, id]

theorem not_noise_encodeChar (value : ℕ) (isDigit : value < 64) : ¬Noise (encodeChar value) := by
  intro noise
  apply noise.1
  rw [← ascii_digit value isDigit]
  exact List.mem_map_of_mem (List.mem_map_of_mem (List.mem_range.2 isDigit))

theorem not_noise_of_mem_encode {data : List UInt8} {unit : UInt16}
    (unitMem : unit ∈ encode data) : ¬Noise unit := by
  have padding : ¬Noise padChar := by decide
  match data with
  | [] => exact absurd unitMem List.not_mem_nil
  | [b1] =>
      have firstByte := b1.toNat_lt
      simp only [encode_one, List.mem_cons, List.not_mem_nil, or_false] at unitMem
      rcases unitMem with rfl | rfl | rfl | rfl
      · exact not_noise_encodeChar _ (by omega)
      · exact not_noise_encodeChar _ (by omega)
      · exact padding
      · exact padding
  | [b1, b2] =>
      have firstByte := b1.toNat_lt
      have secondByte := b2.toNat_lt
      simp only [encode_two, List.mem_cons, List.not_mem_nil, or_false] at unitMem
      rcases unitMem with rfl | rfl | rfl | rfl
      · exact not_noise_encodeChar _ (by omega)
      · exact not_noise_encodeChar _ (by omega)
      · exact not_noise_encodeChar _ (by omega)
      · exact padding
  | b1 :: b2 :: b3 :: data =>
      have firstByte := b1.toNat_lt
      have secondByte := b2.toNat_lt
      have thirdByte := b3.toNat_lt
      simp only [encode_three, List.mem_cons] at unitMem
      rcases unitMem with rfl | rfl | rfl | rfl | later
      · exact not_noise_encodeChar _ (by omega)
      · exact not_noise_encodeChar _ (by omega)
      · exact not_noise_encodeChar _ (by omega)
      · exact not_noise_encodeChar _ (by omega)
      · exact not_noise_of_mem_encode later

/-- The encoder writes the Base64 text, and the decoder reads the bytes back from it whatever noise
is inserted. -/
theorem decode_encode_inserted (data : List UInt8) :
    encode data = ascii (Rfc4648.encode data) ∧
      ∀ noisy, Inserted (encode data) noisy → decode noisy = .ok data := by
  refine ⟨encode_eq data, fun noisy inserted => ?_⟩
  have filtered := filter_relevant_asciiBytes inserted fun unit => not_noise_of_mem_encode
  rw [decode, decodePrivate, decodeGroups_eq data filtered le_rfl]
  dsimp only
  rw [List.nil_append, latin1Bytes_decodedChars]

/-- A line break inside the group and an accented letter behind the padding. -/
theorem decode_encode_inserted_f :
    decode (ascii ['Z', '\n', 'g', '=', '=', 'é']) = .ok [0x66] :=
  (decode_encode_inserted [0x66]).2 _
    (.keep _ (.noise (by decide) (.keep _ (.keep _ (.keep _ (.noise (by decide) .nil))))))

end AndroidCollection.Base64
