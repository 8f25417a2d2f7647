import AndroidCollection.Java.Utf8

/-!
# The form encoding of a text

`URLEncoder.encode` writes the bytes of a text: letters, digits and four other
characters by themselves, a space as a plus sign, and any other byte as a percent
sign with two hexadecimal digits. `URLDecoder.decode` reads the bytes of escapes
which follow each other together, and throws when two digits do not follow a
percent sign. It reads what the encoder writes, but any other text too: it turns
plus signs into spaces, and leaves what is neither a plus sign nor an escape.
-/

namespace AndroidCollection.Java

def percentSign : UInt16 :=
  0x25

def plusSign : UInt16 :=
  0x2B

def spaceUnit : UInt16 :=
  0x20

/-- The digits are those of Android, which takes no signs and no digits of other scripts. -/
def hexValue (unit : UInt16) : Option ℕ :=
  if 0x30 ≤ unit.toNat ∧ unit.toNat ≤ 0x39 then some (unit.toNat - 0x30)
  else if 0x41 ≤ unit.toNat ∧ unit.toNat ≤ 0x46 then some (unit.toNat - 0x37)
  else if 0x61 ≤ unit.toNat ∧ unit.toNat ≤ 0x66 then some (unit.toNat - 0x57)
  else none

def hexDigit (value : ℕ) : UInt16 :=
  if value < 10 then UInt16.ofNat (0x30 + value) else UInt16.ofNat (0x37 + value)

/-! ## Encoding -/

namespace URLEncoder

/-- A letter, a digit, a hyphen, an underscore, a dot or an asterisk. -/
def isKept (byte : UInt8) : Bool :=
  (0x61 ≤ byte.toNat && byte.toNat ≤ 0x7A) || (0x41 ≤ byte.toNat && byte.toNat ≤ 0x5A) ||
    (0x30 ≤ byte.toNat && byte.toNat ≤ 0x39) || byte == 0x2D || byte == 0x5F || byte == 0x2E ||
    byte == 0x2A

def encodeByte (byte : UInt8) : JString :=
  if isKept byte then [UInt16.ofNat byte.toNat]
  else if byte = 0x20 then [plusSign]
  else [percentSign, hexDigit (byte.toNat / 16), hexDigit (byte.toNat % 16)]

/-- `URLEncoder.encode(text, "UTF-8")`. -/
def encode (text : JString) : JString :=
  (utf8Bytes text).flatMap encodeByte

theorem unit_of_isKept {byte : UInt8} (kept : isKept byte = true) :
    byte.toNat < 0x80 ∧ UInt16.ofNat byte.toNat ≠ percentSign ∧
      UInt16.ofNat byte.toNat ≠ plusSign := by
  have bound : byte.toNat < 256 := byte.toNat_lt
  simp only [isKept, Bool.or_eq_true, Bool.and_eq_true, decide_eq_true_eq, beq_iff_eq,
    ← UInt8.toNat_inj] at kept
  simp only [percentSign, plusSign, ne_eq, ← UInt16.toNat_inj, UInt16.toNat_ofNat']
  simp at kept ⊢
  omega

theorem hexDigit_bounds {value : ℕ} (digit : value < 16) :
    (hexDigit value).toNat < 0x80 ∧ hexDigit value ≠ 0x26 ∧ hexDigit value ≠ 0x3D := by
  revert value
  decide

theorem mem_encodeByte {byte : UInt8} {unit : UInt16} (member : unit ∈ encodeByte byte) :
    unit.toNat < 0x80 ∧ unit ≠ 0x26 ∧ unit ≠ 0x3D := by
  have bound : byte.toNat < 256 := byte.toNat_lt
  simp only [encodeByte] at member
  split_ifs at member with kept space
  · rcases List.mem_singleton.1 member with rfl
    simp only [isKept, Bool.or_eq_true, Bool.and_eq_true, decide_eq_true_eq, beq_iff_eq,
      ← UInt8.toNat_inj] at kept
    simp only [ne_eq, ← UInt16.toNat_inj, UInt16.toNat_ofNat']
    simp at kept ⊢
    omega
  · rcases List.mem_singleton.1 member with rfl
    decide
  · simp only [List.mem_cons, List.not_mem_nil, or_false] at member
    rcases member with rfl | rfl | rfl
    · decide
    · exact hexDigit_bounds (by omega)
    · exact hexDigit_bounds (by omega)

/-- The units which the encoder writes. -/
theorem mem_encode {text : JString} {unit : UInt16} (member : unit ∈ encode text) :
    unit.toNat < 0x80 ∧ unit ≠ 0x26 ∧ unit ≠ 0x3D := by
  rcases List.mem_flatMap.1 member with ⟨byte, _, here⟩
  exact mem_encodeByte here

theorem replaceLone_encode (text : JString) : replaceLone (encode text) = encode text := by
  apply replaceLone_of_scalar
  intro unit member
  have small := (mem_encode member).1
  simp [Scalar, isHighSurrogate, isLowSurrogate]
  omega

end URLEncoder

/-! ## Decoding -/

namespace URLDecoder

/-- What is appended for a character outside of an escape. -/
def plain (unit : UInt16) : UInt16 :=
  if unit = plusSign then spaceUnit else unit

/-- The rest of a text after escapes with the given bytes; nothing stands for an
`IllegalArgumentException`. -/
def decodeFrom : List UInt8 → JString → Option JString
  | pending, [] => some (utf8Decode pending)
  | pending, unit :: rest =>
      if unit = percentSign then
        match rest with
        | first :: second :: rest =>
            match hexValue first, hexValue second with
            | some high, some low => decodeFrom (pending ++ [UInt8.ofNat (16 * high + low)]) rest
            | _, _ => none
        | _ => none
      else
        (decodeFrom [] rest).map fun later => utf8Decode pending ++ plain unit :: later

/-- `URLDecoder.decode(text, "UTF-8")`. -/
def decode (text : JString) : Option JString :=
  decodeFrom [] text

example : decode (ascii ['a', '%', '3', 'd', '+']) = some (ascii ['a', '=', ' ']) := by
  decide

variable {pending : List UInt8} {unit first second : UInt16} {high low : ℕ} {text rest : JString}

theorem decodeFrom_cons (other : unit ≠ percentSign) :
    decodeFrom pending (unit :: rest) =
      (decodeFrom [] rest).map fun later => utf8Decode pending ++ plain unit :: later :=
  (decodeFrom.eq_def _ _).trans (if_neg other)

theorem decodeFrom_escape (left : hexValue first = some high) (right : hexValue second = some low) :
    decodeFrom pending (percentSign :: first :: second :: rest) =
      decodeFrom (pending ++ [UInt8.ofNat (16 * high + low)]) rest := by
  simp [decodeFrom, left, right]

theorem decodeFrom_of_not_digits
    (digits : ∀ high low, hexValue first = some high → hexValue second = some low → False) :
    decodeFrom pending (percentSign :: first :: second :: rest) = none := by
  simp only [decodeFrom, if_true]

theorem decodeFrom_of_short
    (short : ∀ first second later, rest = first :: second :: later → False) :
    decodeFrom pending (percentSign :: rest) = none := by
  unfold decodeFrom
  rw [if_pos rfl]
  split
  · exact (short _ _ _ rfl).elim
  · rfl

theorem ne_percentSign_of_hexValue {value : ℕ} (digit : hexValue unit = some value) :
    unit ≠ percentSign := by
  rintro rfl
  cases digit

theorem length_plain_cons (pending : List UInt8) (unit : UInt16) (later : JString) :
    (utf8Decode pending ++ plain unit :: later).length ≤ pending.length + (later.length + 1) := by
  have length := length_utf8Decode_le pending
  simp only [List.length_append, List.length_cons]
  omega

/-- Each percent sign makes the text at least two units shorter. -/
theorem length_decodeFrom_le {decoded : JString}
    (decodes : decodeFrom pending text = some decoded) :
    decoded.length + 2 * text.count percentSign ≤ pending.length + text.length := by
  induction pending, text using decodeFrom.induct generalizing decoded with
  | case1 pending =>
      cases decodes
      simpa using length_utf8Decode_le pending
  | case2 pending first second rest high low right left ih =>
      rw [decodeFrom_escape left right] at decodes
      have shorter := ih decodes
      simp only [List.count_cons_self,
        List.count_cons_of_ne (ne_percentSign_of_hexValue left),
        List.count_cons_of_ne (ne_percentSign_of_hexValue right),
        List.length_append, List.length_cons, List.length_nil] at shorter ⊢
      omega
  | case3 pending first second rest digits =>
      rw [decodeFrom_of_not_digits digits] at decodes
      cases decodes
  | case4 pending rest short =>
      rw [decodeFrom_of_short short] at decodes
      cases decodes
  | case5 pending unit rest other ih =>
      rw [decodeFrom_cons other, Option.map_eq_some_iff] at decodes
      rcases decodes with ⟨later, decodes, rfl⟩
      have shorter := ih decodes
      have length := length_plain_cons pending unit later
      rw [List.count_cons_of_ne other]
      simp only [List.length_nil, List.length_cons] at shorter ⊢
      omega

theorem decodeFrom_of_notMem (absent : percentSign ∉ text) :
    decodeFrom [] text = some (text.map plain) := by
  induction text with
  | nil => rfl
  | cons unit text ih =>
      simp only [List.mem_cons, not_or] at absent
      rw [decodeFrom_cons (Ne.symm absent.1), ih absent.2]
      rfl

/-- Two hexadecimal digits are at the beginning. -/
def DigitsFirst : JString → Prop
  | first :: second :: _ => (hexValue first).isSome = true ∧ (hexValue second).isSome = true
  | _ => False

/-- Two hexadecimal digits follow each percent sign. -/
def WellEscaped : JString → Prop
  | [] => True
  | unit :: rest => (unit = percentSign → DigitsFirst rest) ∧ WellEscaped rest

theorem decodeFrom_isSome_iff :
    (decodeFrom pending text).isSome = true ↔ WellEscaped text := by
  induction pending, text using decodeFrom.induct with
  | case1 pending => simp [decodeFrom, WellEscaped]
  | case2 pending first second rest high low right left ih =>
      rw [decodeFrom_escape left right, ih]
      simp [WellEscaped, DigitsFirst, left, right, ne_percentSign_of_hexValue left,
        ne_percentSign_of_hexValue right]
  | case3 pending first second rest digits =>
      rw [decodeFrom_of_not_digits digits]
      apply iff_of_false (by simp)
      rintro ⟨follows, _⟩
      rcases Option.isSome_iff_exists.1 (follows rfl).1 with ⟨high, left⟩
      rcases Option.isSome_iff_exists.1 (follows rfl).2 with ⟨low, right⟩
      exact digits high low left right
  | case4 pending rest short =>
      rw [decodeFrom_of_short short]
      apply iff_of_false (by simp)
      rintro ⟨follows, _⟩
      match rest with
      | [] => exact follows rfl
      | [_] => exact follows rfl
      | first :: second :: later => exact short first second later rfl
  | case5 pending unit rest other ih =>
      rw [decodeFrom_cons other, Option.isSome_map, ih]
      simp [WellEscaped, other]

theorem decode_isSome_iff (text : JString) : (decode text).isSome = true ↔ WellEscaped text :=
  decodeFrom_isSome_iff

theorem length_decode_le {text decoded : JString} (decodes : decode text = some decoded) :
    decoded.length + 2 * text.count percentSign ≤ text.length := by
  simpa using length_decodeFrom_le decodes

theorem decode_of_notMem (absent : percentSign ∉ text) : decode text = some (text.map plain) :=
  decodeFrom_of_notMem absent

theorem plain_ne_plusSign (unit : UInt16) : plain unit ≠ plusSign := by
  simp only [plain]
  split
  · decide
  · assumption

theorem plain_ne {reserved : UInt16} (other : unit ≠ reserved) (notSpace : reserved ≠ spaceUnit) :
    plain unit ≠ reserved := by
  simp only [plain]
  split
  · exact notSpace.symm
  · exact other

theorem plain_of_ne (other : unit ≠ plusSign) : plain unit = unit :=
  if_neg other

theorem map_plain_of_notMem (absent : plusSign ∉ text) : text.map plain = text := by
  apply (List.map_congr_left _).trans (List.map_id text)
  intro unit member
  apply plain_of_ne
  rintro rfl
  exact absent member

/-! ## Decoding what has been encoded -/

theorem hexValue_hexDigit {value : ℕ} (digit : value < 16) :
    hexValue (hexDigit value) = some value := by
  revert value
  decide

/-- What follows closes the run of escapes. -/
theorem decodeFrom_of_closed (closed : ∀ unit ∈ text.head?, unit ≠ percentSign) :
    decodeFrom pending text = (decodeFrom [] text).map (utf8Decode pending ++ ·) := by
  cases text with
  | nil => simp [decodeFrom, utf8Decode, utf8DecodeFrom, utf8End]
  | cons unit text =>
      have other : unit ≠ percentSign := closed unit rfl
      rw [decodeFrom_cons other, decodeFrom_cons other, Option.map_map]
      rfl

/-- The bytes which the encoder has written are read with those before them. -/
theorem decodeFrom_encodeByte (text : JString)
    (closed : ∀ unit ∈ text.head?, unit ≠ percentSign) (pending bytes : List UInt8) :
    decodeFrom pending (bytes.flatMap URLEncoder.encodeByte ++ text) =
      (decodeFrom [] text).map (utf8Decode (pending ++ bytes) ++ ·) := by
  induction bytes generalizing pending with
  | nil => simpa using decodeFrom_of_closed closed
  | cons byte bytes ih =>
      rw [List.flatMap_cons, List.append_assoc, URLEncoder.encodeByte]
      split_ifs with kept space
      · -- a kept byte ends a run of escapes
        have unit := URLEncoder.unit_of_isKept kept
        rw [List.singleton_append, decodeFrom_cons unit.2.1, ih [], Option.map_map,
          utf8Decode_append_cons unit.1, plain_of_ne unit.2.2]
        simp [Function.comp_def]
      · subst space
        rw [List.singleton_append, decodeFrom_cons (by decide), ih [], Option.map_map,
          utf8Decode_append_cons (by decide)]
        simp [Function.comp_def, plain, spaceUnit]
      · have value : 16 * (byte.toNat / 16) + byte.toNat % 16 = byte.toNat := by omega
        have bound : byte.toNat < 256 := byte.toNat_lt
        simp only [List.cons_append, List.nil_append]
        rw [decodeFrom_escape (hexValue_hexDigit (by omega)) (hexValue_hexDigit (by omega)), value,
          UInt8.ofNat_toNat, ih, List.append_assoc, List.singleton_append]

/-- What has been encoded is decoded, but for lone surrogates. -/
theorem decode_encode (text : JString) :
    decode (URLEncoder.encode text) = some (replaceLone text) := by
  have decoded := decodeFrom_encodeByte [] (by simp) [] (utf8Bytes text)
  rw [List.append_nil, List.nil_append, utf8Decode_utf8Bytes] at decoded
  exact decoded.trans (by simp [decodeFrom, utf8Decode, utf8DecodeFrom, utf8End])

/-- An encoded text in front of a text which continues with a character of its own. -/
theorem decode_encode_append (text : JString) {unit : UInt16} (other : unit ≠ percentSign)
    (rest : JString) :
    decode (URLEncoder.encode text ++ unit :: rest) =
      (decode rest).map fun later => replaceLone text ++ plain unit :: later := by
  have decoded := decodeFrom_encodeByte (unit :: rest) (by simpa using other) []
    (utf8Bytes text)
  rw [List.nil_append, utf8Decode_utf8Bytes, decodeFrom_cons other, Option.map_map] at decoded
  exact decoded.trans (by simp [Function.comp_def, utf8Decode, utf8DecodeFrom, utf8End, decode])

end URLDecoder

end AndroidCollection.Java
