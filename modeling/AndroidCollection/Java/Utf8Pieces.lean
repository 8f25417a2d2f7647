import AndroidCollection.Java.Utf8

/-!
# The pieces of malformed UTF-8

Every byte sequence is read as a sequence of pieces. A piece is the UTF-8 form of a
character, or it is malformed and read as the replacement character: a byte which cannot
begin a character, or the beginning of one which is not completed. The replacement
character takes three bytes, and a malformed piece has no more. So bytes do not become
fewer when they are read and written again, and if they do not become more, each
malformed piece lacks only the last byte of a character of four.
-/

namespace AndroidCollection.Java

/-- A code point which is no surrogate. -/
def ScalarValue (point : ℕ) : Prop :=
  (point < 0xD800 ∨ 0xE000 ≤ point) ∧ point < 0x110000

/-- The code point of the replacement character. -/
def replacementPoint : ℕ :=
  0xFFFD

theorem codeUnits_replacementPoint : codeUnits replacementPoint = [replacementUnit] :=
  rfl

theorem scalarValue_replacementPoint : ScalarValue replacementPoint := by
  unfold ScalarValue replacementPoint
  omega

/-- The bytes begin the UTF-8 form of a character, and there are more to come. -/
def Beginning (piece : List UInt8) : Prop :=
  ∃ point rest, ScalarValue point ∧ rest ≠ [] ∧ utf8CodePoint point = piece ++ rest

def Malformed (piece : List UInt8) : Prop :=
  piece.length = 1 ∨ piece ≠ [] ∧ Beginning piece

/-- The bytes are read as the code points, piece by piece. -/
inductive Pieces : List UInt8 → List ℕ → Prop
  | nil : Pieces [] []
  | character {point bytes points} (scalar : ScalarValue point) (later : Pieces bytes points) :
      Pieces (utf8CodePoint point ++ bytes) (point :: points)
  | malformed {piece bytes points} (broken : Malformed piece) (later : Pieces bytes points) :
      Pieces (piece ++ bytes) (replacementPoint :: points)

/-! ## Reading a piece -/

/-- Whichever bytes come within the bounds, those which have been read and they are the UTF-8 form
of a character. -/
def Pending : ℕ → ℕ → ℕ → ℕ → List UInt8 → Prop
  | 0, point, lower, upper, read =>
      (lower ≤ upper ∧ upper < 256) ∧
        ∀ byte : UInt8, lower ≤ byte.toNat → byte.toNat ≤ upper →
          ScalarValue (point * 64 + byte.toNat % 64) ∧
            utf8CodePoint (point * 64 + byte.toNat % 64) = read ++ [byte]
  | later + 1, point, lower, upper, read =>
      (lower ≤ upper ∧ upper < 256) ∧
        ∀ byte : UInt8, lower ≤ byte.toNat → byte.toNat ≤ upper →
          Pending later (point * 64 + byte.toNat % 64) 0x80 0xBF (read ++ [byte])

theorem beginning_of_pending {later point lower upper : ℕ} {read : List UInt8}
    (pending : Pending later point lower upper read) : Beginning read := by
  induction later generalizing point lower upper read with
  | zero =>
      rcases pending with ⟨bounds, complete⟩
      have value := toNat_ofNat_byte lower (by omega)
      rcases complete (UInt8.ofNat lower) (by omega) (by omega) with ⟨scalar, form⟩
      exact ⟨_, [UInt8.ofNat lower], scalar, by simp, form⟩
  | succ later ih =>
      rcases pending with ⟨bounds, continued⟩
      have value := toNat_ofNat_byte lower (by omega)
      rcases ih (continued (UInt8.ofNat lower) (by omega) (by omega)) with
        ⟨point, rest, scalar, _, form⟩
      exact ⟨point, UInt8.ofNat lower :: rest, scalar, by simp, by simp [form]⟩

theorem utf8CodePoint_double {point : ℕ} {first second : UInt8} (lower : 0x80 ≤ point)
    (upper : point < 0x800) (lead : 0xC0 + point / 64 = first.toNat)
    (last : 0x80 + point % 64 = second.toNat) : utf8CodePoint point = [first, second] := by
  rw [utf8CodePoint, if_neg (by omega), if_pos upper, lead, last]
  simp

theorem utf8CodePoint_triple {point : ℕ} {first second third : UInt8} (lower : 0x800 ≤ point)
    (upper : point < 0x10000) (lead : 0xE0 + point / 4096 = first.toNat)
    (middle : 0x80 + point / 64 % 64 = second.toNat) (last : 0x80 + point % 64 = third.toNat) :
    utf8CodePoint point = [first, second, third] := by
  rw [utf8CodePoint, if_neg (by omega), if_neg (by omega), if_pos upper, lead, middle, last]
  simp

theorem utf8CodePoint_quadruple {point : ℕ} {first second third fourth : UInt8}
    (lower : 0x10000 ≤ point) (lead : 0xF0 + point / 262144 = first.toNat)
    (left : 0x80 + point / 4096 % 64 = second.toNat)
    (right : 0x80 + point / 64 % 64 = third.toNat) (last : 0x80 + point % 64 = fourth.toNat) :
    utf8CodePoint point = [first, second, third, fourth] := by
  rw [utf8CodePoint, if_neg (by omega), if_neg (by omega), if_neg (by omega), lead, left, right,
    last]
  simp

theorem pending_double {byte : UInt8} (lower : 0xC2 ≤ byte.toNat) (upper : byte.toNat < 0xE0) :
    Pending 0 (byte.toNat % 32) 0x80 0xBF [byte] := by
  refine ⟨by omega, ?_⟩
  intro second secondLower secondUpper
  constructor
  · unfold ScalarValue
    omega
  · exact utf8CodePoint_double (by omega) (by omega) (by omega) (by omega)

theorem pending_triple {byte : UInt8} (lower : 0xE0 ≤ byte.toNat) (upper : byte.toNat < 0xF0) :
    Pending 1 (byte.toNat % 16) (if byte.toNat = 0xE0 then 0xA0 else 0x80)
      (if byte.toNat = 0xED then 0x9F else 0xBF) [byte] := by
  refine ⟨by split_ifs <;> omega, ?_⟩
  intro second secondLower secondUpper
  refine ⟨by omega, ?_⟩
  intro third thirdLower thirdUpper
  -- The bounds of the second byte exclude shorter forms and surrogates.
  have large : byte.toNat = 0xE0 → 0xA0 ≤ second.toNat := by
    intro first
    rwa [if_pos first] at secondLower
  have noSurrogate : byte.toNat = 0xED → second.toNat ≤ 0x9F := by
    intro first
    rwa [if_pos first] at secondUpper
  have secondBounds : 0x80 ≤ second.toNat ∧ second.toNat ≤ 0xBF := by
    split_ifs at secondLower secondUpper <;> omega
  constructor
  · unfold ScalarValue
    omega
  · exact utf8CodePoint_triple (by omega) (by omega) (by omega) (by omega) (by omega)

theorem pending_quadruple {byte : UInt8} (lower : 0xF0 ≤ byte.toNat) (upper : byte.toNat < 0xF5) :
    Pending 2 (byte.toNat % 8) (if byte.toNat = 0xF0 then 0x90 else 0x80)
      (if byte.toNat = 0xF4 then 0x8F else 0xBF) [byte] := by
  refine ⟨by split_ifs <;> omega, ?_⟩
  intro second secondLower secondUpper
  refine ⟨by omega, ?_⟩
  intro third thirdLower thirdUpper
  refine ⟨by omega, ?_⟩
  intro fourth fourthLower fourthUpper
  -- The bounds of the second byte exclude shorter forms and what lies beyond Unicode.
  have large : byte.toNat = 0xF0 → 0x90 ≤ second.toNat := by
    intro first
    rwa [if_pos first] at secondLower
  have unicode : byte.toNat = 0xF4 → second.toNat ≤ 0x8F := by
    intro first
    rwa [if_pos first] at secondUpper
  have secondBounds : 0x80 ≤ second.toNat ∧ second.toNat ≤ 0xBF := by
    split_ifs at secondLower secondUpper <;> omega
  constructor
  · unfold ScalarValue
    omega
  · exact utf8CodePoint_quadruple (by omega) (by omega) (by omega) (by omega) (by omega)

/-- What has been read of the present piece. -/
def Reading : Utf8State → List UInt8 → Prop
  | .start, read => read = []
  | .within later point lower upper _, read => read ≠ [] ∧ Pending later point lower upper read

theorem utf8Start_cases (byte : UInt8) :
    (∃ point, ScalarValue point ∧ utf8CodePoint point = [byte] ∧
        utf8Start byte = (codeUnits point, .start)) ∨
      utf8Start byte = ([replacementUnit], .start) ∨
      ((utf8Start byte).1 = [] ∧ Reading (utf8Start byte).2 [byte]) := by
  rw [utf8Start]
  by_cases single : byte.toNat < 0x80
  · have scalar : ScalarValue byte.toNat := by
      unfold ScalarValue
      omega
    have small : byte.toNat < 0x10000 := by omega
    left
    exact ⟨byte.toNat, scalar, by simp [utf8CodePoint, single], by simp [codeUnits, single, small]⟩
  right
  rw [if_neg single]
  by_cases tail : byte.toNat < 0xC2
  · exact Or.inl (if_pos tail)
  rw [if_neg tail]
  by_cases double : byte.toNat < 0xE0
  · rw [if_pos double]
    exact Or.inr ⟨rfl, by simp, pending_double (by omega) double⟩
  rw [if_neg double]
  by_cases triple : byte.toNat < 0xF0
  · rw [if_pos triple]
    exact Or.inr ⟨rfl, by simp, pending_triple (by omega) triple⟩
  rw [if_neg triple]
  by_cases quadruple : byte.toNat < 0xF5
  · rw [if_pos quadruple]
    exact Or.inr ⟨rfl, by simp, pending_quadruple (by omega) quadruple⟩
  · exact Or.inl (if_neg quadruple)

/-- From a state, what is read is the code points of pieces. -/
def ReadsPieces (state : Utf8State) (read bytes : List UInt8) : Prop :=
  ∃ points, Pieces (read ++ bytes) points ∧
    utf8DecodeFrom state bytes = points.flatMap codeUnits

theorem readsPieces_start_cons {byte : UInt8} {bytes : List UInt8}
    (later : ∀ state read, Reading state read → ReadsPieces state read bytes) :
    ReadsPieces .start [] (byte :: bytes) := by
  rcases later .start [] rfl with ⟨points, pieces, decoded⟩
  simp only [ReadsPieces, utf8DecodeFrom, utf8Step]
  rcases utf8Start_cases byte with ⟨point, scalar, form, started⟩ | started | ⟨nothing, begun⟩
  · refine ⟨point :: points, ?_, by simp [started, decoded]⟩
    simpa [form] using Pieces.character scalar pieces
  · refine ⟨replacementPoint :: points, ?_, ?_⟩
    · exact @Pieces.malformed [byte] _ _ (Or.inl rfl) pieces
    · simp [started, decoded, codeUnits_replacementPoint]
  · rcases later _ _ begun with ⟨points, pieces, decoded⟩
    exact ⟨points, pieces, by simp [nothing, decoded]⟩

/-- A byte within the bounds completes the character, or leaves it pending. -/
theorem readsPieces_continue {byte : UInt8} {bytes read : List UInt8}
    {later point lower upper : ℕ} (pending : Pending later point lower upper read)
    (bounds : lower ≤ byte.toNat ∧ byte.toNat ≤ upper)
    (continues : ∀ state read, Reading state read → ReadsPieces state read bytes) :
    ∃ points, Pieces (read ++ byte :: bytes) points ∧
      (utf8Continue (point * 64 + byte.toNat % 64) later).1 ++
          utf8DecodeFrom (utf8Continue (point * 64 + byte.toNat % 64) later).2 bytes =
        points.flatMap codeUnits := by
  cases later with
  | zero =>
      rcases pending.2 byte bounds.1 bounds.2 with ⟨scalar, form⟩
      rcases continues .start [] rfl with ⟨points, pieces, decoded⟩
      refine ⟨(point * 64 + byte.toNat % 64) :: points, ?_, ?_⟩
      · simpa [form] using Pieces.character scalar pieces
      · rw [utf8Continue, decoded, List.flatMap_cons]
  | succ later =>
      rcases continues (.within later (point * 64 + byte.toNat % 64) 0x80 0xBF (Nat.le_refl _))
        (read ++ [byte]) ⟨by simp, pending.2 byte bounds.1 bounds.2⟩ with ⟨points, pieces, decoded⟩
      exact ⟨points, by simpa using pieces, by simpa [utf8Continue] using decoded⟩

theorem readsPieces (bytes : List UInt8) (state : Utf8State) (read : List UInt8)
    (reading : Reading state read) : ReadsPieces state read bytes := by
  induction bytes generalizing state read with
  | nil =>
      cases state with
      | start =>
          obtain rfl : read = [] := reading
          exact ⟨[], .nil, rfl⟩
      | within later point lower upper tail =>
          rcases reading with ⟨given, pending⟩
          refine ⟨[replacementPoint], ?_, rfl⟩
          exact .malformed (Or.inr ⟨given, beginning_of_pending pending⟩) .nil
  | cons byte bytes ih =>
      cases state with
      | start =>
          obtain rfl : read = [] := reading
          exact readsPieces_start_cons ih
      | within later point lower upper tail =>
          rcases reading with ⟨given, pending⟩
          simp only [ReadsPieces, utf8DecodeFrom, utf8Step]
          split_ifs with bounds
          · exact readsPieces_continue pending bounds ih
          -- The byte which does not fit begins the next piece.
          · rcases readsPieces_start_cons ih with ⟨points, pieces, decoded⟩
            refine ⟨replacementPoint :: points, ?_, ?_⟩
            · exact .malformed (Or.inr ⟨given, beginning_of_pending pending⟩) pieces
            · simpa [codeUnits_replacementPoint, utf8DecodeFrom, utf8Step] using decoded

theorem exists_pieces (bytes : List UInt8) :
    ∃ points, Pieces bytes points ∧ utf8Decode bytes = points.flatMap codeUnits :=
  readsPieces bytes .start [] rfl

theorem Pieces.scalar {bytes : List UInt8} {points : List ℕ} (pieces : Pieces bytes points) :
    ∀ point ∈ points, ScalarValue point := by
  induction pieces with
  | nil => simp
  | character scalar _ ih => exact List.forall_mem_cons.2 ⟨scalar, ih⟩
  | malformed _ _ ih => exact List.forall_mem_cons.2 ⟨scalarValue_replacementPoint, ih⟩

/-! ## Texts without lone surrogates -/

theorem utf8Bytes_codeUnits_append {point : ℕ} (scalar : ScalarValue point) (text : JString) :
    utf8Bytes (codeUnits point ++ text) = utf8CodePoint point ++ utf8Bytes text := by
  unfold ScalarValue at scalar
  by_cases plane : point < 0x10000
  · have value : (UInt16.ofNat point).toNat = point := by
      rw [UInt16.toNat_ofNat', Nat.mod_eq_of_lt plane]
    have alone : Scalar (UInt16.ofNat point) := by
      simp only [Scalar, isHighSurrogate, isLowSurrogate, value]
      simp
      omega
    rw [codeUnits, if_pos plane, List.singleton_append, utf8Bytes_cons alone, value]
  · have high : (UInt16.ofNat (0xD7C0 + point / 1024)).toNat = 0xD7C0 + point / 1024 := by
      rw [UInt16.toNat_ofNat', Nat.mod_eq_of_lt (by omega)]
    have low : (UInt16.ofNat (0xDC00 + point % 1024)).toNat = 0xDC00 + point % 1024 := by
      rw [UInt16.toNat_ofNat', Nat.mod_eq_of_lt (by omega)]
    have pair : (isHighSurrogate (UInt16.ofNat (0xD7C0 + point / 1024)) &&
        isLowSurrogate (UInt16.ofNat (0xDC00 + point % 1024))) = true := by
      simp only [isHighSurrogate, isLowSurrogate, high, low]
      simp
      omega
    have whole : 0x10000 + (0xD7C0 + point / 1024 - 0xD800) * 1024 +
        (0xDC00 + point % 1024 - 0xDC00) = point := by omega
    rw [codeUnits, if_neg plane, List.cons_append, List.singleton_append, utf8Bytes, if_pos pair,
      high, low, whole]

theorem utf8Bytes_flatMap_codeUnits {points : List ℕ}
    (scalar : ∀ point ∈ points, ScalarValue point) :
    utf8Bytes (points.flatMap codeUnits) = points.flatMap utf8CodePoint := by
  induction points with
  | nil => rfl
  | cons point points ih =>
      rw [List.forall_mem_cons] at scalar
      rw [List.flatMap_cons, List.flatMap_cons, utf8Bytes_codeUnits_append scalar.1, ih scalar.2]

theorem utf8Decode_utf8CodePoint_append {point : ℕ} (scalar : ScalarValue point)
    (bytes : List UInt8) :
    utf8Decode (utf8CodePoint point ++ bytes) = codeUnits point ++ utf8Decode bytes :=
  utf8DecodeFrom_codePoint scalar.1 scalar.2 bytes

theorem utf8Decode_flatMap_utf8CodePoint {points : List ℕ}
    (scalar : ∀ point ∈ points, ScalarValue point) :
    utf8Decode (points.flatMap utf8CodePoint) = points.flatMap codeUnits := by
  induction points with
  | nil => rfl
  | cons point points ih =>
      rw [List.forall_mem_cons] at scalar
      rw [List.flatMap_cons, List.flatMap_cons, utf8Decode_utf8CodePoint_append scalar.1,
        ih scalar.2]

/-- Where no surrogate stands alone, a text is a sequence of code points. -/
theorem exists_points {text : JString} (paired : surrogatesPaired text = true) :
    ∃ points : List ℕ, (∀ point ∈ points, ScalarValue point) ∧ text = points.flatMap codeUnits := by
  rcases exists_pieces (utf8Bytes text) with ⟨points, pieces, decoded⟩
  rw [utf8Decode_utf8Bytes, (replaceLone_eq_self_iff text).2 paired] at decoded
  exact ⟨points, pieces.scalar, decoded⟩

theorem surrogatesPaired_utf8Decode (bytes : List UInt8) :
    surrogatesPaired (utf8Decode bytes) = true := by
  rcases exists_pieces bytes with ⟨points, pieces, decoded⟩
  rw [← replaceLone_eq_self_iff, ← utf8Decode_utf8Bytes, decoded,
    utf8Bytes_flatMap_codeUnits pieces.scalar, utf8Decode_flatMap_utf8CodePoint pieces.scalar]

/-! ## Reading and writing again -/

/-- Bytes which are read and written again. -/
def repair (bytes : List UInt8) : List UInt8 :=
  utf8Bytes (utf8Decode bytes)

theorem exists_pieces_repair (bytes : List UInt8) :
    ∃ points, Pieces bytes points ∧ repair bytes = points.flatMap utf8CodePoint := by
  rcases exists_pieces bytes with ⟨points, pieces, decoded⟩
  exact ⟨points, pieces, by rw [repair, decoded, utf8Bytes_flatMap_codeUnits pieces.scalar]⟩

theorem repair_utf8Bytes (text : JString) : repair (utf8Bytes text) = utf8Bytes text := by
  rw [repair, utf8Decode_utf8Bytes, utf8Bytes_replaceLone]

theorem repair_utf8CodePoint_append {point : ℕ} (scalar : ScalarValue point) (bytes : List UInt8) :
    repair (utf8CodePoint point ++ bytes) = utf8CodePoint point ++ repair bytes := by
  rw [repair, utf8Decode_utf8CodePoint_append scalar, utf8Bytes_codeUnits_append scalar, repair]

/-- A text without lone surrogates is read from bytes if they are repaired to its own. -/
theorem utf8Decode_eq_iff {bytes : List UInt8} {text : JString}
    (paired : surrogatesPaired text = true) :
    utf8Decode bytes = text ↔ repair bytes = utf8Bytes text := by
  constructor
  · rintro rfl
    rfl
  · intro same
    have decoded := congrArg utf8Decode same
    rwa [repair, utf8Decode_utf8Bytes, utf8Decode_utf8Bytes, (replaceLone_eq_self_iff _).2 paired,
      (replaceLone_eq_self_iff _).2 (surrogatesPaired_utf8Decode bytes)] at decoded

/-! ## Lengths of pieces -/

theorem length_utf8CodePoint_le (point : ℕ) : (utf8CodePoint point).length ≤ 4 := by
  unfold utf8CodePoint
  split_ifs <;> simp

theorem Malformed.length_le {piece : List UInt8} (broken : Malformed piece) :
    piece.length ≤ 3 := by
  rcases broken with single | ⟨_, point, rest, _, given, form⟩
  · omega
  · have whole := length_utf8CodePoint_le point
    have some := List.length_pos_iff.2 given
    rw [form, List.length_append] at whole
    omega

theorem Pieces.length_le {bytes : List UInt8} {points : List ℕ} (pieces : Pieces bytes points) :
    bytes.length ≤ (points.flatMap utf8CodePoint).length := by
  induction pieces with
  | nil => rfl
  | character scalar later ih => simpa using ih
  | malformed broken later ih =>
      have short := broken.length_le
      have three : (utf8CodePoint replacementPoint).length = 3 := rfl
      rw [List.flatMap_cons, List.length_append, List.length_append]
      omega

theorem length_le_repair (bytes : List UInt8) : bytes.length ≤ (repair bytes).length := by
  rcases exists_pieces_repair bytes with ⟨points, pieces, repaired⟩
  rw [repaired]
  exact pieces.length_le

/-- A malformed piece of three bytes lacks the last one of four. -/
theorem Malformed.eq_of_length {piece : List UInt8} (broken : Malformed piece)
    (three : piece.length = 3) :
    ∃ lead second third, piece = [lead, second, third] ∧ 0xF0 ≤ lead.toNat ∧
      (lead.toNat < 0xF4 ∨ lead.toNat = 0xF4 ∧ second.toNat < 0x90) := by
  rcases broken with single | ⟨_, point, rest, scalar, given, form⟩
  · omega
  · rcases List.length_eq_three.1 three with ⟨lead, second, third, rfl⟩
    have long := congrArg List.length form
    have some := List.length_pos_iff.2 given
    rw [List.length_append, three] at long
    unfold ScalarValue at scalar
    unfold utf8CodePoint at form long
    split_ifs at form long <;> simp only [List.length_cons, List.length_nil] at long
    · omega
    · omega
    · omega
    · simp only [List.cons_append, List.cons.injEq] at form
      have leadValue := toNat_ofNat_byte (0xF0 + point / 262144) (by omega)
      have secondValue := toNat_ofNat_byte (0x80 + point / 4096 % 64) (by omega)
      rw [form.1] at leadValue
      rw [form.2.1] at secondValue
      exact ⟨lead, second, third, rfl, by omega, by omega⟩

/-- If a malformed piece makes the bytes no more, it has three. -/
theorem Malformed.length_of_short {piece bytes : List UInt8} {points : List ℕ}
    (broken : Malformed piece) (later : Pieces bytes points)
    (short : ((replacementPoint :: points).flatMap utf8CodePoint).length ≤
      (piece ++ bytes).length) : piece.length = 3 := by
  have bound := later.length_le
  have most := broken.length_le
  have three : (utf8CodePoint replacementPoint).length = 3 := rfl
  rw [List.flatMap_cons, List.length_append, List.length_append] at short
  omega

/-- Where bytes and repaired bytes differ first, a malformed piece of three bytes begins. -/
theorem Pieces.exists_difference {bytes : List UInt8} {points : List ℕ}
    (pieces : Pieces bytes points) (short : (points.flatMap utf8CodePoint).length ≤ bytes.length) :
    bytes = points.flatMap utf8CodePoint ∨ ∃ before piece after after',
      Malformed piece ∧ piece.length = 3 ∧ bytes = before ++ (piece ++ after) ∧
        points.flatMap utf8CodePoint = before ++ (utf8CodePoint replacementPoint ++ after') := by
  induction pieces with
  | nil => exact Or.inl rfl
  | @character point bytes points _ _ ih =>
      rw [List.flatMap_cons, List.length_append, List.length_append] at short
      rcases ih (by omega) with same | ⟨before, piece, after, after', broken, three, left, right⟩
      · left
        rw [List.flatMap_cons, ← same]
      · right
        exact ⟨utf8CodePoint point ++ before, piece, after, after', broken, three, by simp [left],
          by simp [right]⟩
  | @malformed piece bytes points broken later ih =>
      right
      exact ⟨[], piece, bytes, points.flatMap utf8CodePoint, broken,
        broken.length_of_short later short, rfl, rfl⟩

/-- The same for all bytes which are not made more: the first malformed piece stands where the
replacement character is written. -/
theorem repair_or_exists_difference {bytes : List UInt8}
    (short : (repair bytes).length ≤ bytes.length) :
    repair bytes = bytes ∨ ∃ before lead second third after after',
      0xF0 ≤ lead.toNat ∧ (lead.toNat < 0xF4 ∨ lead.toNat = 0xF4 ∧ second.toNat < 0x90) ∧
        bytes = before ++ lead :: second :: third :: after ∧
        repair bytes = before ++ 0xEF :: 0xBF :: 0xBD :: after' := by
  rcases exists_pieces_repair bytes with ⟨points, pieces, repaired⟩
  rw [repaired] at short ⊢
  rcases pieces.exists_difference short with
    same | ⟨before, piece, after, after', broken, three, left, right⟩
  · exact Or.inl same.symm
  · rcases broken.eq_of_length three with ⟨lead, second, third, rfl, lower, upper⟩
    exact Or.inr ⟨before, lead, second, third, after, after', lower, upper, left, right⟩

/-! ## Where a character ends -/

/-- Within the form of a character, every byte but the first. -/
def isContinuation (byte : UInt8) : Bool :=
  0x80 ≤ byte.toNat && byte.toNat < 0xC0

/-- The form of one character, as far as the kinds of its bytes go. -/
def Block (bytes : List UInt8) : Prop :=
  ∃ lead tail, bytes = lead :: tail ∧ isContinuation lead = false ∧
    ∀ byte ∈ tail, isContinuation byte = true

/-- The bytes do not continue a character. -/
def Fresh (bytes : List UInt8) : Prop :=
  ∀ byte ∈ bytes.head?, isContinuation byte = false

theorem Fresh.takeWhile {bytes : List UInt8} (fresh : Fresh bytes) :
    bytes.takeWhile isContinuation = [] := by
  cases bytes with
  | nil => rfl
  | cons byte bytes => simp [fresh byte rfl]

theorem Block.append_inj {first second left right : List UInt8} (firstBlock : Block first)
    (secondBlock : Block second) (leftFresh : Fresh left) (rightFresh : Fresh right)
    (same : first ++ left = second ++ right) : first = second ∧ left = right := by
  rcases firstBlock with ⟨lead, tail, rfl, _, continued⟩
  rcases secondBlock with ⟨lead', tail', rfl, _, continued'⟩
  rw [List.cons_append, List.cons_append, List.cons.injEq] at same
  rcases same with ⟨rfl, same⟩
  have tails := congrArg (List.takeWhile isContinuation) same
  rw [List.takeWhile_append_of_pos continued, List.takeWhile_append_of_pos continued',
    leftFresh.takeWhile, rightFresh.takeWhile, List.append_nil, List.append_nil] at tails
  subst tails
  exact ⟨rfl, List.append_cancel_left same⟩

theorem isContinuation_tail (value : ℕ) :
    isContinuation (UInt8.ofNat (0x80 + value % 64)) = true := by
  rw [isContinuation, toNat_ofNat_byte _ (by omega)]
  simp
  omega

theorem isContinuation_lead {value : ℕ} (byte : value < 256) (lead : value < 0x80 ∨ 0xC0 ≤ value) :
    isContinuation (UInt8.ofNat value) = false := by
  rw [isContinuation, toNat_ofNat_byte _ byte]
  simp
  omega

theorem block_utf8CodePoint {point : ℕ} (scalar : ScalarValue point) :
    Block (utf8CodePoint point) := by
  unfold ScalarValue at scalar
  unfold utf8CodePoint
  split_ifs
  · exact ⟨_, _, rfl, isContinuation_lead (by omega) (by omega), by simp⟩
  · exact ⟨_, _, rfl, isContinuation_lead (by omega) (by omega),
      by simp only [List.forall_mem_cons, isContinuation_tail, List.not_mem_nil, false_imp_iff,
        implies_true, and_self]⟩
  · exact ⟨_, _, rfl, isContinuation_lead (by omega) (by omega),
      by simp only [List.forall_mem_cons, isContinuation_tail, List.not_mem_nil, false_imp_iff,
        implies_true, and_self]⟩
  · exact ⟨_, _, rfl, isContinuation_lead (by omega) (by omega),
      by simp only [List.forall_mem_cons, isContinuation_tail, List.not_mem_nil, false_imp_iff,
        implies_true, and_self]⟩

theorem Block.fresh_append {first : List UInt8} (block : Block first) (second : List UInt8) :
    Fresh (first ++ second) := by
  rcases block with ⟨lead, tail, rfl, begins, _⟩
  simpa [Fresh] using begins

theorem fresh_flatMap_utf8CodePoint {points : List ℕ}
    (scalar : ∀ point ∈ points, ScalarValue point) : Fresh (points.flatMap utf8CodePoint) := by
  cases points with
  | nil => simp [Fresh]
  | cons point points =>
      rw [List.forall_mem_cons] at scalar
      exact (block_utf8CodePoint scalar.1).fresh_append _

theorem fresh_repair (bytes : List UInt8) : Fresh (repair bytes) := by
  rcases exists_pieces_repair bytes with ⟨points, pieces, repaired⟩
  rw [repaired]
  exact fresh_flatMap_utf8CodePoint pieces.scalar

/-- Where no malformed piece is shorter than what replaces it, no continuation stands first. -/
theorem Pieces.fresh {bytes : List UInt8} {points : List ℕ} (pieces : Pieces bytes points)
    (short : (points.flatMap utf8CodePoint).length ≤ bytes.length) : Fresh bytes := by
  cases pieces with
  | nil => simp [Fresh]
  | character scalar later => exact (block_utf8CodePoint scalar).fresh_append _
  | malformed broken later =>
      rcases broken.eq_of_length (broken.length_of_short later short) with
        ⟨lead, second, third, rfl, lower, _⟩
      have begins : isContinuation lead = false := by
        simp [isContinuation]
        omega
      simpa [Fresh] using begins

theorem utf8CodePoint_injective {first second : ℕ} (firstScalar : ScalarValue first)
    (secondScalar : ScalarValue second) (same : utf8CodePoint first = utf8CodePoint second) :
    first = second := by
  have units : codeUnits first = codeUnits second := by
    have decoded := congrArg utf8Decode (congrArg (· ++ []) same)
    simpa only [utf8Decode_utf8CodePoint_append firstScalar,
      utf8Decode_utf8CodePoint_append secondScalar, List.append_cancel_right_eq] using decoded
  unfold ScalarValue at firstScalar secondScalar
  unfold codeUnits at units
  split_ifs at units <;>
    simp only [List.cons.injEq, ← UInt16.toNat_inj, UInt16.toNat_ofNat'] at units
  · omega
  · simp at units
  · simp at units
  · omega

theorem replacementUnit_mem_codeUnits {point : ℕ} (scalar : ScalarValue point) :
    replacementUnit ∈ codeUnits point ↔ point = replacementPoint := by
  have value : replacementUnit.toNat = 0xFFFD := rfl
  unfold ScalarValue at scalar
  unfold codeUnits replacementPoint
  split_ifs <;> simp only [List.mem_cons, List.not_mem_nil, or_false, ← UInt16.toNat_inj,
    UInt16.toNat_ofNat', value] <;> omega

end AndroidCollection.Java
