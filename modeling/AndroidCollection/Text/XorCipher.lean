import AndroidCollection.Java.Utf8Pieces

/-!
# Masked texts

`TextUtil.encryptAndDecrypt` masks the UTF-8 bytes of a text with the low byte of the
secret, and reads what comes out as a text again. The masked bytes need not be UTF-8,
and what is malformed is replaced before the second call sees it.

The malformed piece which is replaced by as many bytes as it has lacks one byte of four.
If the low byte of the secret is in 0x1C..0x1F, it is just the replacement character which
is masked so, and it comes back. Whatever else is malformed makes the text longer for
good.
-/

namespace AndroidCollection.Text

open Java

/-! ## `TextUtil.encryptAndDecrypt` -/

/-- The byte is extended with its sign, the character with zeros, and the result is cut. -/
def maskByte (secret : UInt16) (byte : UInt8) : UInt8 :=
  (byte.toInt8.toInt32 ^^^ secret.toUInt32.toInt32).toInt8.toUInt8

def encryptAndDecrypt (value : JString) (secret : UInt16) : JString :=
  utf8Decode ((utf8Bytes value).map (maskByte secret))

/-! ## The property and its condition -/

/-- The second call gives back what the first one has got. -/
def Restores (value : JString) (secret : UInt16) : Prop :=
  encryptAndDecrypt (encryptAndDecrypt value secret) secret = value

/-- The replacement character is masked to the beginning of a character of four bytes. -/
def MasksReplacement (secret : UInt16) : Prop :=
  0x1C ≤ secret.toNat % 256 ∧ secret.toNat % 256 < 0x20

instance (secret : UInt16) : Decidable (MasksReplacement secret) :=
  inferInstanceAs (Decidable (_ ∧ _))

/-- What has to be UTF-8 when it is masked. -/
def masked (value : JString) (secret : UInt16) : JString :=
  if MasksReplacement secret then value.filter (· ≠ replacementUnit) else value

/-- No surrogate stands alone, and the masked bytes are those of a text. -/
def Maskable (value : JString) (secret : UInt16) : Prop :=
  surrogatesPaired value = true ∧
    ∃ text, utf8Bytes text = (utf8Bytes (masked value secret)).map (maskByte secret)

/-- The letter `a` becomes the first byte of three. -/
theorem not_restores_letter : ¬Restores (ascii ['a']) 0x80 := by
  unfold Restores
  decide

/-! ## Masking -/

theorem maskByte_eq (secret : UInt16) (byte : UInt8) :
    maskByte secret byte = byte ^^^ secret.toUInt8 := by
  rw [← UInt8.toBitVec_inj]
  ext position bound
  simp [maskByte, BitVec.getElem_signExtend]
  omega

@[simp]
theorem maskByte_maskByte (secret : UInt16) (byte : UInt8) :
    maskByte secret (maskByte secret byte) = byte := by
  rw [maskByte_eq, maskByte_eq, UInt8.xor_assoc, UInt8.xor_self, UInt8.xor_zero]

@[simp]
theorem map_maskByte_map_maskByte (secret : UInt16) (bytes : List UInt8) :
    (bytes.map (maskByte secret)).map (maskByte secret) = bytes := by
  simp [Function.comp_def]

theorem maskByte_eq_iff (secret : UInt16) {first second : UInt8} :
    maskByte secret first = second ↔ first = maskByte secret second := by
  constructor
  · rintro rfl
    rw [maskByte_maskByte]
  · rintro rfl
    rw [maskByte_maskByte]

theorem map_maskByte_eq_iff (secret : UInt16) {first second : List UInt8} :
    first.map (maskByte secret) = second ↔ first = second.map (maskByte secret) := by
  constructor
  · rintro rfl
    rw [map_maskByte_map_maskByte]
  · rintro rfl
    rw [map_maskByte_map_maskByte]

/-- The bytes are masked and read twice. -/
def twice (secret : UInt16) (bytes : List UInt8) : List UInt8 :=
  repair ((repair (bytes.map (maskByte secret))).map (maskByte secret))

/-- Only the bytes matter if no surrogate stands alone, and otherwise nothing comes back. -/
theorem restores_iff_twice (value : JString) (secret : UInt16) :
    Restores value secret ↔
      surrogatesPaired value = true ∧ twice secret (utf8Bytes value) = utf8Bytes value := by
  constructor
  · intro restores
    have paired : surrogatesPaired value = true := by
      rw [← restores]
      exact surrogatesPaired_utf8Decode _
    exact ⟨paired, (utf8Decode_eq_iff paired).1 restores⟩
  · rintro ⟨paired, same⟩
    exact (utf8Decode_eq_iff paired).2 same

/-- Masked bytes of a text come back. -/
theorem twice_of_repair {secret : UInt16} {bytes : List UInt8} (own : repair bytes = bytes)
    (masked : repair (bytes.map (maskByte secret)) = bytes.map (maskByte secret)) :
    twice secret bytes = bytes := by
  rw [twice, masked, map_maskByte_map_maskByte, own]

theorem exists_utf8Bytes_iff (bytes : List UInt8) :
    (∃ text, utf8Bytes text = bytes) ↔ repair bytes = bytes := by
  constructor
  · rintro ⟨text, rfl⟩
    exact repair_utf8Bytes text
  · intro same
    exact ⟨utf8Decode bytes, same⟩

/-! ## Where masked bytes are malformed -/

/-- The first place where two lists differ is one place. -/
theorem append_cons_inj_of_ne {before before' left left' right right' : List UInt8}
    {first first' second second' : UInt8}
    (lefts : before ++ first :: left = before' ++ first' :: left')
    (rights : before ++ second :: right = before' ++ second' :: right') (differ : first ≠ second)
    (differ' : first' ≠ second') : first = first' ∧ left = left' := by
  induction before generalizing before' with
  | nil =>
      rcases before' with _ | ⟨byte, before'⟩
      · exact List.cons.inj lefts
      · rw [List.nil_append, List.cons_append, List.cons.injEq] at lefts rights
        exact absurd (lefts.1.trans rights.1.symm) differ
  | cons byte before ih =>
      rcases before' with _ | ⟨byte', before'⟩
      · rw [List.nil_append, List.cons_append, List.cons.injEq] at lefts rights
        exact absurd (lefts.1.symm.trans rights.1) differ'
      · rw [List.cons_append, List.cons_append, List.cons.injEq] at lefts rights
        exact ih lefts.2 rights.2

/-- The first bytes of a malformed piece of three are those of a masked replacement character only
for four low bytes of the secret. -/
theorem masksReplacement_of_bounds {secret : UInt16}
    (lower : 0xF0 ≤ (maskByte secret 0xEF).toNat)
    (upper : (maskByte secret 0xEF).toNat < 0xF4 ∨
      (maskByte secret 0xEF).toNat = 0xF4 ∧ (maskByte secret 0xBF).toNat < 0x90) :
    MasksReplacement secret := by
  have every : ∀ key : UInt8, 0xF0 ≤ (0xEF ^^^ key).toNat →
      ((0xEF ^^^ key).toNat < 0xF4 ∨ (0xEF ^^^ key).toNat = 0xF4 ∧ (0xBF ^^^ key).toNat < 0x90) →
      0x1C ≤ key.toNat ∧ key.toNat < 0x20 :=
    forall_byte (by decide +kernel)
  rw [maskByte_eq] at lower
  rw [maskByte_eq, maskByte_eq] at upper
  have bounds := every secret.toUInt8 lower upper
  rwa [UInt16.toNat_toUInt8] at bounds

/-- The bytes come back with as many in between. -/
theorem length_repair_of_twice {secret : UInt16} {bytes : List UInt8}
    (same : twice secret bytes = bytes) :
    (repair (bytes.map (maskByte secret))).length = bytes.length := by
  have first := length_le_repair (bytes.map (maskByte secret))
  have second := length_le_repair ((repair (bytes.map (maskByte secret))).map (maskByte secret))
  rw [List.length_map] at first second
  have whole := congrArg List.length same
  rw [twice] at whole
  omega

/-- Where masked bytes which come back are not repaired to themselves, a replacement character has
been masked. -/
theorem repair_or_masksReplacement {secret : UInt16} {bytes : List UInt8}
    (same : twice secret bytes = bytes) :
    repair (bytes.map (maskByte secret)) = bytes.map (maskByte secret) ∨
      MasksReplacement secret := by
  have length := length_repair_of_twice same
  have again : repair ((repair (bytes.map (maskByte secret))).map (maskByte secret)) = bytes := same
  rcases @repair_or_exists_difference (bytes.map (maskByte secret))
    (by rw [length, List.length_map]) with
    equal | ⟨before, lead, second, third, after, rest, lower, upper, left, right⟩
  · exact Or.inl equal
  rcases @repair_or_exists_difference ((repair (bytes.map (maskByte secret))).map (maskByte secret))
    (by rw [again, List.length_map, length]) with
    equal | ⟨before', lead', second', third', after', rest', lower', _, left', right'⟩
  · left
    rw [← map_maskByte_eq_iff, ← equal, again]
  right
  rw [← again, right', List.map_append] at left
  rw [map_maskByte_eq_iff, right, List.map_append] at left'
  have outside : lead ≠ 0xEF := by
    rintro rfl
    exact absurd lower (by decide)
  have outside' : maskByte secret 0xEF ≠ maskByte secret lead' := by
    rw [Ne, maskByte_eq_iff, maskByte_maskByte]
    rintro rfl
    exact absurd lower' (by decide)
  -- Both calls meet their first malformed piece at the same place.
  rcases append_cons_inj_of_ne left.symm left' outside outside' with ⟨rfl, begins⟩
  have next := (List.cons.inj begins).1
  rw [next] at upper
  exact masksReplacement_of_bounds lower upper

/-! ## Masked replacement characters -/

theorem toUInt8_of_masksReplacement {secret : UInt16} (masks : MasksReplacement secret) :
    secret.toUInt8 = 0x1C ∨ secret.toUInt8 = 0x1D ∨ secret.toUInt8 = 0x1E ∨
      secret.toUInt8 = 0x1F := by
  unfold MasksReplacement at masks
  simp only [← UInt8.toNat_inj, UInt16.toNat_toUInt8, UInt8.reduceToNat]
  omega

section MaskedReplacement

variable {secret : UInt16} (masks : MasksReplacement secret)
include masks

theorem isContinuation_maskByte (byte : UInt8) :
    isContinuation (maskByte secret byte) = isContinuation byte := by
  have every : ∀ byte : UInt8, ∀ key ∈ [(0x1C : UInt8), 0x1D, 0x1E, 0x1F],
      isContinuation (byte ^^^ key) = isContinuation byte :=
    forall_byte (by decide +kernel)
  rw [maskByte_eq]
  apply every
  simpa using toUInt8_of_masksReplacement masks

theorem fresh_map_maskByte {bytes : List UInt8} (fresh : Fresh bytes) :
    Fresh (bytes.map (maskByte secret)) := by
  cases bytes with
  | nil => exact fresh
  | cons byte bytes => simpa [Fresh, isContinuation_maskByte masks] using fresh

theorem block_map_maskByte {bytes : List UInt8} (block : Block bytes) :
    Block (bytes.map (maskByte secret)) := by
  rcases block with ⟨lead, tail, rfl, begins, continued⟩
  refine ⟨_, _, List.map_cons, ?_, ?_⟩
  · rwa [isContinuation_maskByte masks]
  · simpa [isContinuation_maskByte masks] using continued

theorem block_masked_utf8CodePoint {point : ℕ} (scalar : ScalarValue point) :
    Block ((utf8CodePoint point).map (maskByte secret)) :=
  block_map_maskByte masks (block_utf8CodePoint scalar)

/-- A character of four bytes lacks the last one. -/
theorem utf8Decode_masked_replacement {bytes : List UInt8} (fresh : Fresh bytes) :
    utf8Decode ((utf8CodePoint replacementPoint).map (maskByte secret) ++ bytes) =
      replacementUnit :: utf8Decode bytes := by
  have incomplete (point : ℕ) :
      utf8DecodeFrom (.within 0 point 0x80 0xBF (Nat.le_refl _)) bytes =
        replacementUnit :: utf8Decode bytes := by
    rcases bytes with _ | ⟨byte, bytes⟩
    · rfl
    · have outside : ¬(0x80 ≤ byte.toNat ∧ byte.toNat ≤ 0xBF) := by
        have other := fresh byte rfl
        simp [isContinuation] at other
        omega
      simp [utf8DecodeFrom, utf8Step, outside, utf8Decode]
  have form : utf8CodePoint replacementPoint = [0xEF, 0xBF, 0xBD] := rfl
  simp only [form, List.map_cons, List.map_nil, maskByte_eq]
  rcases toUInt8_of_masksReplacement masks with key | key | key | key <;> rw [key] <;>
    exact incomplete _

theorem repair_masked_replacement {bytes : List UInt8} (fresh : Fresh bytes) :
    repair ((utf8CodePoint replacementPoint).map (maskByte secret) ++ bytes) =
      utf8CodePoint replacementPoint ++ repair bytes := by
  rw [repair, utf8Decode_masked_replacement masks fresh]
  exact utf8Bytes_codeUnits_append scalarValue_replacementPoint _

theorem masked_replacement_ne {point : ℕ} (scalar : ScalarValue point) :
    utf8CodePoint point ≠ (utf8CodePoint replacementPoint).map (maskByte secret) := by
  intro same
  have repaired := @repair_masked_replacement _ masks [] (by simp [Fresh])
  rw [← same, repair_utf8CodePoint_append scalar, List.append_cancel_right_eq] at repaired
  rw [repaired] at same
  have lead := congrArg List.head? same
  have form : utf8CodePoint replacementPoint = [0xEF, 0xBF, 0xBD] := rfl
  simp only [form, List.map_cons, maskByte_eq, List.head?_cons, Option.some.injEq] at lead
  rcases toUInt8_of_masksReplacement masks with key | key | key | key <;> rw [key] at lead <;>
    exact absurd lead (by decide)

end MaskedReplacement

/-! ## Code point by code point -/

/-- What is left of code points without the replacement character. -/
def kept (points : List ℕ) : List ℕ :=
  points.filter (· ≠ replacementPoint)

theorem kept_replacement_cons (points : List ℕ) : kept (replacementPoint :: points) = kept points :=
  rfl

theorem kept_cons_of_ne {point : ℕ} (other : point ≠ replacementPoint) (points : List ℕ) :
    kept (point :: points) = point :: kept points := by
  simp [kept, other]

theorem kept_scalar {points : List ℕ} (scalar : ∀ point ∈ points, ScalarValue point) :
    ∀ point ∈ kept points, ScalarValue point :=
  fun point member => scalar point (List.mem_of_mem_filter member)

/-- The form of one character before masked characters is that of the first of them. -/
theorem append_eq_masked {secret : UInt16} (masks : MasksReplacement secret) {value : ℕ}
    {values : List ℕ} (scalar : ∀ point ∈ value :: values, ScalarValue point)
    {first later : List UInt8} (block : Block first) (fresh : Fresh later)
    (same : first ++ later = ((value :: values).flatMap utf8CodePoint).map (maskByte secret)) :
    first = (utf8CodePoint value).map (maskByte secret) ∧
      later = (values.flatMap utf8CodePoint).map (maskByte secret) := by
  rw [List.forall_mem_cons] at scalar
  rw [List.flatMap_cons, List.map_append] at same
  exact block.append_inj (block_masked_utf8CodePoint masks scalar.1) fresh
    (fresh_map_maskByte masks (fresh_flatMap_utf8CodePoint scalar.2)) same

theorem twice_character_append {secret : UInt16} {value point : ℕ} (valueScalar : ScalarValue value)
    (scalar : ScalarValue point)
    (same : utf8CodePoint point = (utf8CodePoint value).map (maskByte secret))
    (bytes : List UInt8) :
    twice secret (utf8CodePoint value ++ bytes) = utf8CodePoint value ++ twice secret bytes := by
  rw [twice, List.map_append, ← same, repair_utf8CodePoint_append scalar, List.map_append, same,
    map_maskByte_map_maskByte, repair_utf8CodePoint_append valueScalar, twice]

theorem twice_replacement_append {secret : UInt16} (masks : MasksReplacement secret)
    {bytes : List UInt8} (fresh : Fresh bytes) :
    twice secret (utf8CodePoint replacementPoint ++ bytes) =
      utf8CodePoint replacementPoint ++ twice secret bytes := by
  rw [twice, List.map_append, repair_masked_replacement masks (fresh_map_maskByte masks fresh),
    List.map_append,
    repair_masked_replacement masks (fresh_map_maskByte masks (fresh_repair _)), twice]

/-- Replacement characters come back among characters whose masked forms are those of characters. -/
theorem twice_of_repair_kept {secret : UInt16} (masks : MasksReplacement secret) {values : List ℕ}
    (scalar : ∀ value ∈ values, ScalarValue value)
    (own : repair (((kept values).flatMap utf8CodePoint).map (maskByte secret)) =
      ((kept values).flatMap utf8CodePoint).map (maskByte secret)) :
    twice secret (values.flatMap utf8CodePoint) = values.flatMap utf8CodePoint := by
  induction values with
  | nil => rfl
  | cons value values ih =>
      rw [List.forall_mem_cons] at scalar
      by_cases replaced : value = replacementPoint
      · rw [replaced, kept_replacement_cons] at own
        rw [replaced, List.flatMap_cons,
          twice_replacement_append masks (fresh_flatMap_utf8CodePoint scalar.2), ih scalar.2 own]
      · rw [kept_cons_of_ne replaced] at own
        have keptScalar := List.forall_mem_cons.2 ⟨scalar.1, kept_scalar scalar.2⟩
        rcases exists_pieces_repair (((value :: kept values).flatMap utf8CodePoint).map
          (maskByte secret)) with ⟨points, pieces, repaired⟩
        have pointsScalar := pieces.scalar
        rw [own] at repaired
        rcases points with _ | ⟨point, points⟩
        · simp [utf8CodePoint_ne_nil] at repaired
        · rw [List.forall_mem_cons] at pointsScalar
          rcases append_eq_masked masks keptScalar (block_utf8CodePoint pointsScalar.1)
            (fresh_flatMap_utf8CodePoint pointsScalar.2) repaired.symm with ⟨same, _⟩
          rw [List.flatMap_cons, List.map_append, ← same,
            repair_utf8CodePoint_append pointsScalar.1, List.append_cancel_left_eq] at own
          rw [List.flatMap_cons, twice_character_append scalar.1 pointsScalar.1 same,
            ih scalar.2 own]

/-- Where the code points come back, those other than the replacement character have masked forms
which are those of characters. -/
theorem repair_kept_of_pieces {secret : UInt16} (masks : MasksReplacement secret)
    {bytes : List UInt8} {points values : List ℕ} (pieces : Pieces bytes points)
    (short : (points.flatMap utf8CodePoint).length ≤ bytes.length)
    (scalar : ∀ value ∈ values, ScalarValue value)
    (masked : bytes = (values.flatMap utf8CodePoint).map (maskByte secret))
    (restored : repair ((points.flatMap utf8CodePoint).map (maskByte secret)) =
      values.flatMap utf8CodePoint) :
    repair (((kept values).flatMap utf8CodePoint).map (maskByte secret)) =
      ((kept values).flatMap utf8CodePoint).map (maskByte secret) := by
  induction pieces generalizing values with
  | nil =>
      rcases values with _ | ⟨value, values⟩
      · rfl
      · simp [utf8CodePoint_ne_nil] at masked
  | @character point bytes points pointScalar later ih =>
      rcases values with _ | ⟨value, values⟩
      · simp [utf8CodePoint_ne_nil] at masked
      · rw [List.flatMap_cons, List.length_append, List.length_append, Nat.add_le_add_iff_left]
          at short
        rcases append_eq_masked masks scalar (block_utf8CodePoint pointScalar) (later.fresh short)
          masked with ⟨same, rest⟩
        rw [List.forall_mem_cons] at scalar
        rw [List.flatMap_cons, List.flatMap_cons, List.map_append, same, map_maskByte_map_maskByte,
          repair_utf8CodePoint_append scalar.1, List.append_cancel_left_eq] at restored
        have other : value ≠ replacementPoint := by
          rintro rfl
          exact masked_replacement_ne masks pointScalar same
        rw [kept_cons_of_ne other, List.flatMap_cons, List.map_append, ← same,
          repair_utf8CodePoint_append pointScalar, ih short scalar.2 rest restored]
  | @malformed piece bytes points broken later ih =>
      have three := broken.length_of_short later short
      rcases values with _ | ⟨value, values⟩
      · simp at masked
        simp [masked.1] at three
      · rw [List.forall_mem_cons] at scalar
        rw [List.flatMap_cons, List.flatMap_cons, List.map_append, repair_masked_replacement masks
          (fresh_map_maskByte masks (fresh_flatMap_utf8CodePoint later.scalar))] at restored
        rcases (block_utf8CodePoint scalarValue_replacementPoint).append_inj
          (block_utf8CodePoint scalar.1) (fresh_repair _) (fresh_flatMap_utf8CodePoint scalar.2)
          restored with ⟨same, rest⟩
        obtain rfl := utf8CodePoint_injective scalarValue_replacementPoint scalar.1 same
        rw [List.flatMap_cons, List.map_append] at masked
        rcases List.append_inj masked (by rw [three]; rfl) with ⟨_, left⟩
        rw [List.flatMap_cons, List.length_append, List.length_append, three] at short
        rw [kept_replacement_cons]
        exact ih (Nat.le_of_add_le_add_left short) scalar.2 left rest

theorem repair_kept_of_twice {secret : UInt16} (masks : MasksReplacement secret) {values : List ℕ}
    (scalar : ∀ value ∈ values, ScalarValue value)
    (same : twice secret (values.flatMap utf8CodePoint) = values.flatMap utf8CodePoint) :
    repair (((kept values).flatMap utf8CodePoint).map (maskByte secret)) =
      ((kept values).flatMap utf8CodePoint).map (maskByte secret) := by
  have length := length_repair_of_twice same
  rcases exists_pieces_repair ((values.flatMap utf8CodePoint).map (maskByte secret)) with
    ⟨points, pieces, repaired⟩
  rw [twice, repaired] at same
  refine repair_kept_of_pieces masks pieces ?_ scalar rfl same
  rw [← repaired, length, List.length_map]

/-! ## The characterization -/

theorem filter_flatMap_codeUnits {points : List ℕ} (scalar : ∀ point ∈ points, ScalarValue point) :
    (points.flatMap codeUnits).filter (· ≠ replacementUnit) = (kept points).flatMap codeUnits := by
  induction points with
  | nil => rfl
  | cons point points ih =>
      rw [List.forall_mem_cons] at scalar
      rw [List.flatMap_cons, List.filter_append, ih scalar.2]
      by_cases replaced : point = replacementPoint
      · rw [replaced, kept_replacement_cons]
        rfl
      · rw [kept_cons_of_ne replaced, List.flatMap_cons, List.filter_eq_self.2]
        intro unit member
        have other : unit ≠ replacementUnit := by
          rintro rfl
          exact replaced ((replacementUnit_mem_codeUnits scalar.1).1 member)
        simpa using other

theorem restores_iff (value : JString) (secret : UInt16) :
    Restores value secret ↔ Maskable value secret := by
  rw [restores_iff_twice, Maskable]
  apply and_congr_right
  intro paired
  rcases exists_points paired with ⟨points, scalar, rfl⟩
  rw [exists_utf8Bytes_iff, masked]
  split_ifs with masks
  · rw [filter_flatMap_codeUnits scalar, utf8Bytes_flatMap_codeUnits scalar,
      utf8Bytes_flatMap_codeUnits (kept_scalar scalar)]
    exact ⟨repair_kept_of_twice masks scalar, twice_of_repair_kept masks scalar⟩
  · constructor
    · intro same
      exact (repair_or_masksReplacement same).resolve_right masks
    · exact twice_of_repair (repair_utf8Bytes _)

end AndroidCollection.Text
