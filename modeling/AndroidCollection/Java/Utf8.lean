import AndroidCollection.Java.Text

/-!
# Reading UTF-8

`new String(bytes, "UTF-8")` reads malformed input too: the longest beginning of a
character which cannot be completed becomes one replacement character, and reading
goes on with the byte which did not fit. What has been written comes back, but for
surrogates which stand alone and have become question marks. A byte below 0x80 is
always read by itself, so a text may be cut at it before or after reading.
-/

namespace AndroidCollection.Java

def replacementUnit : UInt16 :=
  0xFFFD

/-- The code units of a code point. -/
def codeUnits (point : ℕ) : JString :=
  if point < 0x10000 then [UInt16.ofNat point]
  else [UInt16.ofNat (0xD7C0 + point / 1024), UInt16.ofNat (0xDC00 + point % 1024)]

/-- Between two characters, or within one: how many bytes come later than the next one, what has
been read of the code point, and the bounds of the next byte. -/
inductive Utf8State where
  | start
  | within (later point lower upper : ℕ) (tail : 0x80 ≤ lower)

def utf8Start (byte : UInt8) : JString × Utf8State :=
  if byte.toNat < 0x80 then ([UInt16.ofNat byte.toNat], .start)
  else if byte.toNat < 0xC2 then ([replacementUnit], .start)
  else if byte.toNat < 0xE0 then
    ([], .within 0 (byte.toNat % 32) 0x80 0xBF (Nat.le_refl _))
  else if byte.toNat < 0xF0 then
    ([], .within 1 (byte.toNat % 16) (if byte.toNat = 0xE0 then 0xA0 else 0x80)
      (if byte.toNat = 0xED then 0x9F else 0xBF) (by split <;> simp))
  else if byte.toNat < 0xF5 then
    ([], .within 2 (byte.toNat % 8) (if byte.toNat = 0xF0 then 0x90 else 0x80)
      (if byte.toNat = 0xF4 then 0x8F else 0xBF) (by split <;> simp))
  else ([replacementUnit], .start)

/-- The code point is complete, or has as many bytes to come. -/
def utf8Continue (point : ℕ) : ℕ → JString × Utf8State
  | 0 => (codeUnits point, .start)
  | later + 1 => ([], .within later point 0x80 0xBF (Nat.le_refl _))

def utf8Step : Utf8State → UInt8 → JString × Utf8State
  | .start, byte => utf8Start byte
  | .within later point lower upper _, byte =>
      if lower ≤ byte.toNat ∧ byte.toNat ≤ upper then
        utf8Continue (point * 64 + byte.toNat % 64) later
      else (replacementUnit :: (utf8Start byte).1, (utf8Start byte).2)

/-- What the end of the bytes leaves. -/
def utf8End : Utf8State → JString
  | .start => []
  | .within .. => [replacementUnit]

def utf8DecodeFrom : Utf8State → List UInt8 → JString
  | state, [] => utf8End state
  | state, byte :: bytes =>
      (utf8Step state byte).1 ++ utf8DecodeFrom (utf8Step state byte).2 bytes

/-- `new String(bytes, "UTF-8")`. -/
def utf8Decode (bytes : List UInt8) : JString :=
  utf8DecodeFrom .start bytes

/-! ## Lengths -/

theorem length_codeUnits_le (point : ℕ) : (codeUnits point).length ≤ 2 := by
  simp only [codeUnits]
  split <;> simp

theorem length_utf8Start (byte : UInt8) :
    (utf8Start byte).1.length + (utf8End (utf8Start byte).2).length = 1 := by
  simp only [utf8Start]
  split_ifs <;> rfl

theorem length_utf8Step_le (state : Utf8State) (byte : UInt8) :
    (utf8Step state byte).1.length + (utf8End (utf8Step state byte).2).length ≤
      (utf8End state).length + 1 := by
  cases state with
  | start => exact (length_utf8Start byte).le
  | within later point lower upper tail =>
      simp only [utf8Step]
      split
      · cases later with
        | zero => simpa [utf8Continue, utf8End] using length_codeUnits_le _
        | succ later => simp [utf8Continue, utf8End]
      · have first := length_utf8Start byte
        simp only [List.length_cons, utf8End, List.length_nil] at first ⊢
        omega

theorem length_utf8DecodeFrom_le (state : Utf8State) (bytes : List UInt8) :
    (utf8DecodeFrom state bytes).length ≤ (utf8End state).length + bytes.length := by
  induction bytes generalizing state with
  | nil => simp [utf8DecodeFrom]
  | cons byte bytes ih =>
      have first := length_utf8Step_le state byte
      have rest := ih (utf8Step state byte).2
      simp only [utf8DecodeFrom, List.length_append, List.length_cons]
      omega

theorem length_utf8Decode_le (bytes : List UInt8) : (utf8Decode bytes).length ≤ bytes.length := by
  simpa [utf8Decode, utf8End] using length_utf8DecodeFrom_le .start bytes

/-! ## Cutting at a byte below 0x80 -/

theorem utf8Start_of_lt {byte : UInt8} (single : byte.toNat < 0x80) :
    utf8Start byte = ([UInt16.ofNat byte.toNat], .start) := by
  simp [utf8Start, single]

theorem utf8DecodeFrom_cons_of_lt {byte : UInt8} (single : byte.toNat < 0x80)
    (state : Utf8State) (bytes : List UInt8) :
    utf8DecodeFrom state (byte :: bytes) =
      utf8End state ++ UInt16.ofNat byte.toNat :: utf8Decode bytes := by
  cases state with
  | start => simp [utf8DecodeFrom, utf8Step, utf8Start_of_lt single, utf8End, utf8Decode]
  | within later point lower upper tail =>
      have outside : ¬(lower ≤ byte.toNat ∧ byte.toNat ≤ upper) := by omega
      simp [utf8DecodeFrom, utf8Step, outside, utf8Start_of_lt single, utf8End, utf8Decode]

theorem utf8DecodeFrom_append_cons {byte : UInt8} (single : byte.toNat < 0x80)
    (state : Utf8State) (first second : List UInt8) :
    utf8DecodeFrom state (first ++ byte :: second) =
      utf8DecodeFrom state first ++ UInt16.ofNat byte.toNat :: utf8Decode second := by
  induction first generalizing state with
  | nil => exact utf8DecodeFrom_cons_of_lt single state second
  | cons other first ih => simp [utf8DecodeFrom, ih]

theorem utf8Decode_append_cons {byte : UInt8} (single : byte.toNat < 0x80)
    (first second : List UInt8) :
    utf8Decode (first ++ byte :: second) =
      utf8Decode first ++ UInt16.ofNat byte.toNat :: utf8Decode second :=
  utf8DecodeFrom_append_cons single .start first second

/-! ## What has been written comes back -/

theorem toNat_ofNat_byte (value : ℕ) (byte : value < 256) : (UInt8.ofNat value).toNat = value := by
  rw [UInt8.toNat_ofNat', Nat.mod_eq_of_lt byte]

/-- A later byte within its bounds adds six bits to the code point. -/
theorem utf8DecodeFrom_tail {later point lower upper value : ℕ} {tail : 0x80 ≤ lower}
    (bounds : lower ≤ 0x80 + value % 64 ∧ 0x80 + value % 64 ≤ upper) (bytes : List UInt8) :
    utf8DecodeFrom (.within later point lower upper tail)
        (UInt8.ofNat (0x80 + value % 64) :: bytes) =
      (utf8Continue (point * 64 + value % 64) later).1 ++
        utf8DecodeFrom (utf8Continue (point * 64 + value % 64) later).2 bytes := by
  have byte := toNat_ofNat_byte (0x80 + value % 64) (by omega)
  have bits : (0x80 + value % 64) % 64 = value % 64 := by omega
  simp only [utf8DecodeFrom, utf8Step, byte, if_pos bounds, bits]

/-- The last byte of a code point. -/
theorem utf8DecodeFrom_last {point value : ℕ} (bytes : List UInt8) :
    utf8DecodeFrom (.within 0 point 0x80 0xBF (Nat.le_refl _))
        (UInt8.ofNat (0x80 + value % 64) :: bytes) =
      codeUnits (point * 64 + value % 64) ++ utf8DecodeFrom .start bytes :=
  utf8DecodeFrom_tail (by omega) bytes

theorem utf8Start_double {high : ℕ} (lower : 2 ≤ high) (upper : high < 32) :
    utf8Start (UInt8.ofNat (0xC0 + high)) = ([], .within 0 high 0x80 0xBF (Nat.le_refl _)) := by
  have lead := toNat_ofNat_byte (0xC0 + high) (by omega)
  have bits : (0xC0 + high) % 32 = high := by omega
  simp only [utf8Start, lead, bits]
  rw [if_neg (by omega), if_neg (by omega), if_pos (by omega)]

theorem utf8Start_triple {high : ℕ} (upper : high < 16) :
    utf8Start (UInt8.ofNat (0xE0 + high)) =
      ([], .within 1 high (if 0xE0 + high = 0xE0 then 0xA0 else 0x80)
        (if 0xE0 + high = 0xED then 0x9F else 0xBF) (by split <;> simp)) := by
  have lead := toNat_ofNat_byte (0xE0 + high) (by omega)
  have bits : (0xE0 + high) % 16 = high := by omega
  simp only [utf8Start, lead, bits]
  rw [if_neg (by omega), if_neg (by omega), if_neg (by omega), if_pos (by omega)]

theorem utf8Start_quadruple {high : ℕ} (upper : high < 5) :
    utf8Start (UInt8.ofNat (0xF0 + high)) =
      ([], .within 2 high (if 0xF0 + high = 0xF0 then 0x90 else 0x80)
        (if 0xF0 + high = 0xF4 then 0x8F else 0xBF) (by split <;> simp)) := by
  have lead := toNat_ofNat_byte (0xF0 + high) (by omega)
  have bits : (0xF0 + high) % 8 = high := by omega
  simp only [utf8Start, lead, bits]
  rw [if_neg (by omega), if_neg (by omega), if_neg (by omega), if_neg (by omega),
    if_pos (by omega)]

/-- The bounds of the second byte exclude shorter forms and surrogates. -/
theorem second_of_triple {point : ℕ} (scalar : point < 0xD800 ∨ 0xE000 ≤ point)
    (large : 0x800 ≤ point) (plane : point < 0x10000) :
    (if 0xE0 + point / 4096 = 0xE0 then 0xA0 else 0x80) ≤ 0x80 + point / 64 % 64 ∧
      0x80 + point / 64 % 64 ≤ if 0xE0 + point / 4096 = 0xED then 0x9F else 0xBF := by
  split_ifs <;> omega

/-- The bounds of the second byte exclude shorter forms and what lies beyond Unicode. -/
theorem second_of_quadruple {point : ℕ} (large : 0x10000 ≤ point) (unicode : point < 0x110000) :
    (if 0xF0 + point / 262144 = 0xF0 then 0x90 else 0x80) ≤ 0x80 + point / 4096 % 64 ∧
      0x80 + point / 4096 % 64 ≤ if 0xF0 + point / 262144 = 0xF4 then 0x8F else 0xBF := by
  split_ifs <;> omega

theorem utf8DecodeFrom_codePoint {point : ℕ} (scalar : point < 0xD800 ∨ 0xE000 ≤ point)
    (unicode : point < 0x110000) (bytes : List UInt8) :
    utf8DecodeFrom .start (utf8CodePoint point ++ bytes) =
      codeUnits point ++ utf8DecodeFrom .start bytes := by
  simp only [utf8CodePoint]
  split_ifs with single double triple <;> simp only [List.cons_append, List.nil_append]
  · have byte := toNat_ofNat_byte point (by omega)
    have plane : point < 0x10000 := by omega
    simp [utf8DecodeFrom, utf8Step, utf8Start, byte, single, codeUnits, plane]
  · have whole : point / 64 * 64 + point % 64 = point := by omega
    rw [utf8DecodeFrom, utf8Step, utf8Start_double (by omega) (by omega), List.nil_append,
      utf8DecodeFrom_last, whole]
  · have bounds := second_of_triple scalar (by omega) triple
    have whole : (point / 4096 * 64 + point / 64 % 64) * 64 + point % 64 = point := by omega
    rw [utf8DecodeFrom, utf8Step, utf8Start_triple (by omega), List.nil_append,
      utf8DecodeFrom_tail bounds, utf8Continue, List.nil_append, utf8DecodeFrom_last, whole]
  · have bounds := second_of_quadruple (by omega) unicode
    have middle : 0x80 ≤ 0x80 + point / 64 % 64 ∧ 0x80 + point / 64 % 64 ≤ 0xBF := by omega
    have whole : ((point / 262144 * 64 + point / 4096 % 64) * 64 + point / 64 % 64) * 64 +
        point % 64 = point := by omega
    rw [utf8DecodeFrom, utf8Step, utf8Start_quadruple (by omega), List.nil_append,
      utf8DecodeFrom_tail bounds, utf8Continue, List.nil_append, utf8DecodeFrom_tail middle,
      utf8Continue, List.nil_append, utf8DecodeFrom_last, whole]

/-- A beginning of a character which lacks bytes is replaced as a whole. -/
theorem utf8Decode_take_codePoint {point count : ℕ} (scalar : point < 0xD800 ∨ 0xE000 ≤ point)
    (unicode : point < 0x110000) (given : 0 < count)
    (short : count < (utf8CodePoint point).length) :
    utf8Decode ((utf8CodePoint point).take count) = [replacementUnit] := by
  simp only [utf8CodePoint] at short ⊢
  split_ifs at short ⊢ with single double triple <;>
    simp only [List.length_cons, List.length_nil] at short
  · omega
  · obtain rfl : count = 1 := by omega
    simp only [List.take_succ_cons, List.take_zero, utf8Decode, utf8DecodeFrom, utf8Step]
    rw [utf8Start_double (by omega) (by omega)]
    rfl
  · have bounds := second_of_triple scalar (by omega) triple
    have position : count = 1 ∨ count = 2 := by omega
    rcases position with rfl | rfl <;>
      simp only [List.take_succ_cons, List.take_zero, utf8Decode] <;>
      rw [utf8DecodeFrom, utf8Step, utf8Start_triple (by omega), List.nil_append]
    · rfl
    · rw [utf8DecodeFrom_tail bounds]
      rfl
  · have bounds := second_of_quadruple (by omega) unicode
    have middle : 0x80 ≤ 0x80 + point / 64 % 64 ∧ 0x80 + point / 64 % 64 ≤ 0xBF := by omega
    have position : count = 1 ∨ count = 2 ∨ count = 3 := by omega
    rcases position with rfl | rfl | rfl <;>
      simp only [List.take_succ_cons, List.take_zero, utf8Decode] <;>
      rw [utf8DecodeFrom, utf8Step, utf8Start_quadruple (by omega), List.nil_append]
    · rfl
    · rw [utf8DecodeFrom_tail bounds]
      rfl
    · rw [utf8DecodeFrom_tail bounds, utf8Continue, List.nil_append, utf8DecodeFrom_tail middle]
      rfl

/-- A code unit which is a character by itself. -/
abbrev Scalar (unit : UInt16) : Prop :=
  ¬(isHighSurrogate unit || isLowSurrogate unit) = true

/-- The question mark, which is written for a surrogate which stands alone. -/
def questionMark : UInt16 :=
  0x3F

/-- What is left of a text after it has been written and read. -/
def replaceLone : JString → JString
  | [] => []
  | high :: low :: rest =>
      if isHighSurrogate high && isLowSurrogate low then high :: low :: replaceLone rest
      else if isHighSurrogate high || isLowSurrogate high then
        questionMark :: replaceLone (low :: rest)
      else high :: replaceLone (low :: rest)
  | [unit] => if isHighSurrogate unit || isLowSurrogate unit then [questionMark] else [unit]

theorem codeUnits_unit {unit : UInt16} : codeUnits unit.toNat = [unit] := by
  have small : unit.toNat < 0x10000 := unit.toNat_lt
  simp [codeUnits, small]

theorem Scalar.bounds {unit : UInt16} (scalar : Scalar unit) :
    unit.toNat < 0xD800 ∨ 0xE000 ≤ unit.toNat := by
  simp [Scalar, isHighSurrogate, isLowSurrogate] at scalar
  omega

theorem utf8DecodeFrom_unit {unit : UInt16} (scalar : Scalar unit) (bytes : List UInt8) :
    utf8DecodeFrom .start (utf8CodePoint unit.toNat ++ bytes) =
      unit :: utf8DecodeFrom .start bytes := by
  have small : unit.toNat < 0x10000 := unit.toNat_lt
  rw [utf8DecodeFrom_codePoint scalar.bounds (by omega), codeUnits_unit]
  rfl

theorem codeUnits_pair {high low : UInt16}
    (pair : (isHighSurrogate high && isLowSurrogate low) = true) :
    codeUnits (0x10000 + (high.toNat - 0xD800) * 1024 + (low.toNat - 0xDC00)) = [high, low] := by
  simp [isHighSurrogate, isLowSurrogate] at pair
  have beyond : ¬0x10000 + (high.toNat - 0xD800) * 1024 + (low.toNat - 0xDC00) < 0x10000 := by
    omega
  have first : 0xD7C0 + (0x10000 + (high.toNat - 0xD800) * 1024 + (low.toNat - 0xDC00)) / 1024 =
      high.toNat := by omega
  have second : 0xDC00 + (0x10000 + (high.toNat - 0xD800) * 1024 + (low.toNat - 0xDC00)) % 1024 =
      low.toNat := by omega
  simp only [codeUnits, if_neg beyond, first, second, UInt16.ofNat_toNat]

theorem utf8DecodeFrom_questionMark (bytes : List UInt8) :
    utf8DecodeFrom .start (replacementByte :: bytes) =
      questionMark :: utf8DecodeFrom .start bytes :=
  rfl

theorem utf8DecodeFrom_utf8Bytes (text : JString) (bytes : List UInt8) :
    utf8DecodeFrom .start (utf8Bytes text ++ bytes) =
      replaceLone text ++ utf8DecodeFrom .start bytes := by
  induction text using utf8Bytes.induct with
  | case1 => rfl
  | case2 high low rest pair ih =>
      have isPair := pair
      simp [isHighSurrogate, isLowSurrogate] at isPair
      rw [utf8Bytes, if_pos pair, replaceLone, if_pos pair, List.append_assoc,
        utf8DecodeFrom_codePoint (by omega) (by omega), codeUnits_pair pair, ih]
      rfl
  | case3 high low rest pair lone ih =>
      rw [utf8Bytes, if_neg pair, if_pos lone, replaceLone, if_neg pair, if_pos lone,
        List.cons_append, utf8DecodeFrom_questionMark, ih]
      rfl
  | case4 high low rest pair lone ih =>
      rw [utf8Bytes, if_neg pair, if_neg lone, replaceLone, if_neg pair, if_neg lone,
        List.append_assoc, utf8DecodeFrom_unit lone, ih]
      rfl
  | case5 unit lone =>
      rw [utf8Bytes, if_pos lone, replaceLone, if_pos lone]
      rfl
  | case6 unit lone =>
      rw [utf8Bytes, if_neg lone, replaceLone, if_neg lone, utf8DecodeFrom_unit lone]
      rfl

/-- What has been written is read, but for lone surrogates. -/
theorem utf8Decode_utf8Bytes (text : JString) : utf8Decode (utf8Bytes text) = replaceLone text := by
  simpa [utf8Decode, utf8DecodeFrom, utf8End] using utf8DecodeFrom_utf8Bytes text []

/-! ## Lone surrogates -/

theorem length_replaceLone (text : JString) : (replaceLone text).length = text.length := by
  induction text using replaceLone.induct with
  | case1 => rfl
  | case2 high low rest pair ih => simp [replaceLone, pair, ih]
  | case3 high low rest pair lone ih =>
      rw [replaceLone, if_neg pair, if_pos lone]
      simp [ih]
  | case4 high low rest pair lone ih =>
      rw [replaceLone, if_neg pair, if_neg lone]
      simp [ih]
  | case5 unit lone => rw [replaceLone, if_pos lone]; rfl
  | case6 unit lone => rw [replaceLone, if_neg lone]

/-- A character which is not a question mark is left where it is. -/
theorem mem_replaceLone {unit : UInt16} (scalar : Scalar unit) (other : unit ≠ questionMark)
    (text : JString) : unit ∈ replaceLone text ↔ unit ∈ text := by
  have differs {surrogate : UInt16}
      (lone : (isHighSurrogate surrogate || isLowSurrogate surrogate) = true) :
      unit ≠ surrogate := by
    rintro rfl
    exact scalar lone
  induction text using replaceLone.induct with
  | case1 => rfl
  | case2 high low rest pair ih => simp [replaceLone, pair, ih]
  | case3 high low rest pair lone ih =>
      rw [replaceLone, if_neg pair, if_pos lone, List.mem_cons, or_iff_right other,
        List.mem_cons, or_iff_right (differs lone)]
      exact ih
  | case4 high low rest pair lone ih =>
      rw [replaceLone, if_neg pair, if_neg lone, List.mem_cons, List.mem_cons]
      exact or_congr_right ih
  | case5 unit lone =>
      rw [replaceLone, if_pos lone]
      simp [other, differs lone]
  | case6 unit lone => rw [replaceLone, if_neg lone]

theorem scalar_questionMark : Scalar questionMark := by
  decide

theorem replaceLone_eq_self_iff (text : JString) :
    replaceLone text = text ↔ surrogatesPaired text = true := by
  have changes {surrogate : UInt16}
      (lone : (isHighSurrogate surrogate || isLowSurrogate surrogate) = true) :
      questionMark ≠ surrogate := by
    rintro rfl
    exact scalar_questionMark lone
  induction text using replaceLone.induct with
  | case1 => simp [replaceLone, surrogatesPaired]
  | case2 high low rest pair ih =>
      have both := Bool.and_eq_true_iff.1 pair
      simp [replaceLone, surrogatesPaired, both, ih]
  | case3 high low rest pair lone ih =>
      rw [replaceLone, if_neg pair, if_pos lone, surrogatesPaired]
      apply iff_of_false
      · intro same
        exact changes lone (List.cons.inj same).1
      · cases first : isHighSurrogate high <;> simp_all
  | case4 high low rest pair lone ih =>
      rw [replaceLone, if_neg pair, if_neg lone, surrogatesPaired]
      simp only [Bool.or_eq_true, not_or, Bool.not_eq_true] at lone
      simp [lone, ih]
  | case5 unit lone =>
      rw [replaceLone, if_pos lone, surrogatesPaired]
      apply iff_of_false
      · intro same
        exact changes lone (List.cons.inj same).1
      · cases first : isHighSurrogate unit <;> simp_all
  | case6 unit lone =>
      rw [replaceLone, if_neg lone, surrogatesPaired]
      simpa using lone

theorem utf8Bytes_cons {unit : UInt16} (scalar : Scalar unit) (text : JString) :
    utf8Bytes (unit :: text) = utf8CodePoint unit.toNat ++ utf8Bytes text := by
  cases text with
  | nil =>
      have single : utf8Bytes [unit] = utf8CodePoint unit.toNat := by rw [utf8Bytes, if_neg scalar]
      rw [single, utf8Bytes, List.append_nil]
  | cons next text =>
      have alone : ¬(isHighSurrogate unit && isLowSurrogate next) = true := by
        intro pair
        simp [(Bool.and_eq_true_iff.1 pair).1] at scalar
      rw [utf8Bytes, if_neg alone, if_neg scalar]

theorem utf8Bytes_questionMark_cons (text : JString) :
    utf8Bytes (questionMark :: text) = replacementByte :: utf8Bytes text :=
  utf8Bytes_cons scalar_questionMark text

theorem utf8Bytes_replaceLone (text : JString) :
    utf8Bytes (replaceLone text) = utf8Bytes text := by
  induction text using replaceLone.induct with
  | case1 => rfl
  | case2 high low rest pair ih => simp [replaceLone, utf8Bytes, pair, ih]
  | case3 high low rest pair lone ih =>
      rw [replaceLone, if_neg pair, if_pos lone, utf8Bytes_questionMark_cons, ih, utf8Bytes,
        if_neg pair, if_pos lone]
  | case4 high low rest pair lone ih =>
      rw [replaceLone, if_neg pair, if_neg lone, utf8Bytes_cons lone, ih, utf8Bytes_cons lone]
  | case5 unit lone =>
      have single : utf8Bytes [unit] = [replacementByte] := by rw [utf8Bytes, if_pos lone]
      rw [replaceLone, if_pos lone, utf8Bytes_questionMark_cons, single, utf8Bytes]
  | case6 unit lone => rw [replaceLone, if_neg lone]

theorem replaceLone_replaceLone (text : JString) :
    replaceLone (replaceLone text) = replaceLone text := by
  rw [← utf8Decode_utf8Bytes, utf8Bytes_replaceLone, utf8Decode_utf8Bytes]

theorem utf8Bytes_append_cons {unit : UInt16} (scalar : Scalar unit) (first second : JString) :
    utf8Bytes (first ++ unit :: second) =
      utf8Bytes first ++ (utf8CodePoint unit.toNat ++ utf8Bytes second) := by
  induction first using utf8Bytes.induct with
  | case1 => exact utf8Bytes_cons scalar second
  | case2 high low rest pair ih => simp [utf8Bytes, pair, ih]
  | case3 high low rest pair lone ih =>
      rw [List.cons_append, List.cons_append, utf8Bytes, if_neg pair, if_pos lone,
        ← List.cons_append, ih, utf8Bytes, if_neg pair, if_pos lone]
      rfl
  | case4 high low rest pair lone ih =>
      rw [List.cons_append, utf8Bytes_cons lone, ih, utf8Bytes_cons lone, List.append_assoc]
  | case5 last lone =>
      have alone : ¬(isHighSurrogate last && isLowSurrogate unit) = true := by
        intro pair
        simp [(Bool.and_eq_true_iff.1 pair).2] at scalar
      rw [List.singleton_append, utf8Bytes, if_neg alone, if_pos lone, utf8Bytes_cons scalar,
        utf8Bytes, if_pos lone]
      rfl
  | case6 last lone =>
      rw [List.singleton_append, utf8Bytes_cons lone, utf8Bytes_cons scalar, utf8Bytes_cons lone]
      simp [utf8Bytes]

theorem replaceLone_append_cons {unit : UInt16} (scalar : Scalar unit) (first second : JString) :
    replaceLone (first ++ unit :: second) = replaceLone first ++ unit :: replaceLone second := by
  rw [← utf8Decode_utf8Bytes, utf8Bytes_append_cons scalar, utf8Decode, utf8DecodeFrom_utf8Bytes,
    utf8DecodeFrom_unit scalar]
  exact congrArg _ (congrArg _ (utf8Decode_utf8Bytes second))

theorem replaceLone_of_scalar {text : JString} (scalar : ∀ unit ∈ text, Scalar unit) :
    replaceLone text = text := by
  induction text with
  | nil => rfl
  | cons unit text ih =>
      have first := replaceLone_append_cons (scalar unit List.mem_cons_self) [] text
      rw [List.nil_append] at first
      rw [first, ih fun later member => scalar later (List.mem_cons_of_mem _ member)]
      rfl

end AndroidCollection.Java
