import AndroidCollection.Java.Basic

/-!
# Java strings and their byte encodings

A Java string is a sequence of UTF-16 code units; nothing keeps surrogates
paired. The encodings below are those of the platform: `utf8Bytes` is
`String.getBytes()` with the default charset of Android, `asciiBytes` and
`latin1Bytes` are `getBytes("US-ASCII")` and `getBytes("iso8859-1")`, and
`modifiedUtf8` is what `GetStringUTFChars` hands to native code. The first
three write a question mark for what they cannot encode. Modified UTF-8
encodes each code unit by itself, is injective, and never contains a zero byte.
-/

namespace AndroidCollection.Java

/-- A Java string: its UTF-16 code units. -/
abbrev JString := List UInt16

def ascii (literal : List Char) : JString :=
  literal.map fun char => UInt16.ofNat char.toNat

def isHighSurrogate (unit : UInt16) : Bool :=
  0xD800 ≤ unit.toNat && unit.toNat < 0xDC00

def isLowSurrogate (unit : UInt16) : Bool :=
  0xDC00 ≤ unit.toNat && unit.toNat < 0xE000

def replacementByte : UInt8 :=
  0x3F

def utf8CodePoint (point : ℕ) : List UInt8 :=
  if point < 0x80 then
    [UInt8.ofNat point]
  else if point < 0x800 then
    [UInt8.ofNat (0xC0 + point / 64), UInt8.ofNat (0x80 + point % 64)]
  else if point < 0x10000 then
    [UInt8.ofNat (0xE0 + point / 4096), UInt8.ofNat (0x80 + point / 64 % 64),
      UInt8.ofNat (0x80 + point % 64)]
  else
    [UInt8.ofNat (0xF0 + point / 262144), UInt8.ofNat (0x80 + point / 4096 % 64),
      UInt8.ofNat (0x80 + point / 64 % 64), UInt8.ofNat (0x80 + point % 64)]

/-- `String.getBytes()`: a surrogate pair is one code point, a lone surrogate is replaced. -/
def utf8Bytes : JString → List UInt8
  | [] => []
  | high :: low :: rest =>
      if isHighSurrogate high && isLowSurrogate low then
        utf8CodePoint (0x10000 + (high.toNat - 0xD800) * 1024 + (low.toNat - 0xDC00)) ++
          utf8Bytes rest
      else if isHighSurrogate high || isLowSurrogate high then
        replacementByte :: utf8Bytes (low :: rest)
      else
        utf8CodePoint high.toNat ++ utf8Bytes (low :: rest)
  | [unit] =>
      if isHighSurrogate unit || isLowSurrogate unit then [replacementByte]
      else utf8CodePoint unit.toNat

/-- No surrogate stands alone. -/
def surrogatesPaired : JString → Bool
  | [] => true
  | [unit] => !isHighSurrogate unit && !isLowSurrogate unit
  | high :: low :: rest =>
      if isHighSurrogate high then isLowSurrogate low && surrogatesPaired rest
      else !isLowSurrogate high && surrogatesPaired (low :: rest)

/-- `String.getBytes("US-ASCII")`. -/
def asciiBytes (text : JString) : List UInt8 :=
  text.map fun unit => if unit.toNat < 0x80 then UInt8.ofNat unit.toNat else replacementByte

/-- `String.getBytes("iso8859-1")`. -/
def latin1Bytes (text : JString) : List UInt8 :=
  text.map fun unit => if unit.toNat < 0x100 then UInt8.ofNat unit.toNat else replacementByte

/-- The bytes of one code unit in modified UTF-8; the null character takes two. -/
def modifiedUtf8Unit (unit : UInt16) : List UInt8 :=
  if unit.toNat ≠ 0 ∧ unit.toNat < 0x80 then
    [UInt8.ofNat unit.toNat]
  else if unit.toNat < 0x800 then
    [UInt8.ofNat (0xC0 + unit.toNat / 64), UInt8.ofNat (0x80 + unit.toNat % 64)]
  else
    [UInt8.ofNat (0xE0 + unit.toNat / 4096), UInt8.ofNat (0x80 + unit.toNat / 64 % 64),
      UInt8.ofNat (0x80 + unit.toNat % 64)]

/-- `GetStringUTFChars`: the modified UTF-8 encoding of a string. -/
def modifiedUtf8 (text : JString) : List UInt8 :=
  text.flatMap modifiedUtf8Unit

theorem utf8CodePoint_ne_nil (point : ℕ) : utf8CodePoint point ≠ [] := by
  unfold utf8CodePoint
  split_ifs <;> simp

@[simp]
theorem utf8Bytes_eq_nil_iff (text : JString) : utf8Bytes text = [] ↔ text = [] := by
  constructor
  · intro empty
    match text with
    | [] => rfl
    | [unit] =>
        rw [utf8Bytes] at empty
        split at empty
        · simp at empty
        · exact absurd empty (utf8CodePoint_ne_nil _)
    | high :: low :: rest =>
        rw [utf8Bytes] at empty
        split_ifs at empty
        · exact absurd (List.append_eq_nil_iff.mp empty).1 (utf8CodePoint_ne_nil _)
        · exact absurd (List.append_eq_nil_iff.mp empty).1 (utf8CodePoint_ne_nil _)
  · rintro rfl
    rfl

/-- What holds of every value of a byte can be tried out. -/
theorem forall_byte {property : UInt8 → Prop}
    (each : ∀ value : Fin 256, property (UInt8.ofNat value)) (byte : UInt8) : property byte := by
  have known := each ⟨byte.toNat, byte.toNat_lt⟩
  rwa [UInt8.ofNat_toNat] at known

theorem ofNat_inj_of_lt {left right : ℕ} (leftByte : left < 256) (rightByte : right < 256)
    (same : UInt8.ofNat left = UInt8.ofNat right) : left = right := by
  have toNats := congrArg UInt8.toNat same
  simpa [Nat.mod_eq_of_lt leftByte, Nat.mod_eq_of_lt rightByte] using toNats

/-- Modified UTF-8 is a prefix code on code units. -/
theorem modifiedUtf8Unit_append_inj {left right : UInt16} {leftRest rightRest : List UInt8}
    (same : modifiedUtf8Unit left ++ leftRest = modifiedUtf8Unit right ++ rightRest) :
    left = right ∧ leftRest = rightRest := by
  have leftUnit : left.toNat < 65536 := left.toNat_lt
  have rightUnit : right.toNat < 65536 := right.toNat_lt
  rw [← UInt16.toNat_inj]
  unfold modifiedUtf8Unit at same
  split_ifs at same <;>
    simp only [List.cons_append, List.nil_append, List.cons.injEq] at same
  · have := ofNat_inj_of_lt (by omega) (by omega) same.1
    exact ⟨this, same.2⟩
  · have := ofNat_inj_of_lt (by omega) (by omega) same.1
    omega
  · have := ofNat_inj_of_lt (by omega) (by omega) same.1
    omega
  · have := ofNat_inj_of_lt (by omega) (by omega) same.1
    omega
  · have lead := ofNat_inj_of_lt (by omega) (by omega) same.1
    have tail := ofNat_inj_of_lt (by omega) (by omega) same.2.1
    exact ⟨by omega, same.2.2⟩
  · have := ofNat_inj_of_lt (by omega) (by omega) same.1
    omega
  · have := ofNat_inj_of_lt (by omega) (by omega) same.1
    omega
  · have := ofNat_inj_of_lt (by omega) (by omega) same.1
    omega
  · have lead := ofNat_inj_of_lt (by omega) (by omega) same.1
    have middle := ofNat_inj_of_lt (by omega) (by omega) same.2.1
    have tail := ofNat_inj_of_lt (by omega) (by omega) same.2.2.1
    exact ⟨by omega, same.2.2.2⟩

theorem modifiedUtf8Unit_ne_nil (unit : UInt16) : modifiedUtf8Unit unit ≠ [] := by
  unfold modifiedUtf8Unit
  split_ifs <;> simp

theorem modifiedUtf8_injective : Function.Injective modifiedUtf8 := by
  intro left right same
  induction left generalizing right with
  | nil =>
      cases right with
      | nil => rfl
      | cons unit right =>
          simp only [modifiedUtf8, List.flatMap_nil, List.flatMap_cons] at same
          exact absurd (List.append_eq_nil_iff.mp same.symm).1 (modifiedUtf8Unit_ne_nil unit)
  | cons unit left ih =>
      cases right with
      | nil =>
          simp only [modifiedUtf8, List.flatMap_nil, List.flatMap_cons] at same
          exact absurd (List.append_eq_nil_iff.mp same).1 (modifiedUtf8Unit_ne_nil unit)
      | cons other right =>
          rcases modifiedUtf8Unit_append_inj same with ⟨rfl, rest⟩
          rw [ih rest]

theorem ascii_mem_modifiedUtf8Unit {byte : ℕ} (positive : 0 < byte) (isAscii : byte < 0x80)
    (unit : UInt16) : UInt8.ofNat byte ∈ modifiedUtf8Unit unit ↔ unit.toNat = byte := by
  have isUnit : unit.toNat < 65536 := unit.toNat_lt
  unfold modifiedUtf8Unit
  split_ifs with single double
  · rw [List.mem_singleton]
    constructor
    · intro same
      exact (ofNat_inj_of_lt (by omega) (by omega) same).symm
    · intro same
      rw [same]
  · simp only [List.mem_cons, List.not_mem_nil, or_false]
    constructor
    · rintro (same | same) <;>
        have := ofNat_inj_of_lt (by omega) (by omega) same <;> omega
    · intro same
      omega
  · simp only [List.mem_cons, List.not_mem_nil, or_false]
    constructor
    · rintro (same | same | same) <;>
        have := ofNat_inj_of_lt (by omega) (by omega) same <;> omega
    · intro same
      omega

/-- An ASCII character occurs in a string exactly if its byte occurs in the encoding. -/
theorem ascii_mem_modifiedUtf8 {byte : ℕ} (positive : 0 < byte) (isAscii : byte < 0x80)
    (text : JString) : UInt8.ofNat byte ∈ modifiedUtf8 text ↔ UInt16.ofNat byte ∈ text := by
  rw [modifiedUtf8, List.mem_flatMap]
  constructor
  · rintro ⟨unit, unitMem, byteMem⟩
    have value := (ascii_mem_modifiedUtf8Unit positive isAscii unit).mp byteMem
    rw [← value, UInt16.ofNat_toNat]
    exact unitMem
  · intro unitMem
    refine ⟨_, unitMem, (ascii_mem_modifiedUtf8Unit positive isAscii _).mpr ?_⟩
    exact UInt16.toNat_ofNat_of_lt' (by simp [UInt16.size]; omega)

/-- Modified UTF-8 contains no zero byte, so a C string holds all of it. -/
theorem zero_notMem_modifiedUtf8 (text : JString) : 0 ∉ modifiedUtf8 text := by
  rw [modifiedUtf8, List.mem_flatMap]
  rintro ⟨unit, _, byteMem⟩
  have isUnit : unit.toNat < 65536 := unit.toNat_lt
  change UInt8.ofNat 0 ∈ modifiedUtf8Unit unit at byteMem
  unfold modifiedUtf8Unit at byteMem
  split_ifs at byteMem with single double
  · have := ofNat_inj_of_lt (by omega) (by omega) (List.mem_singleton.mp byteMem)
    omega
  · simp only [List.mem_cons, List.not_mem_nil, or_false] at byteMem
    rcases byteMem with same | same <;>
      have := ofNat_inj_of_lt (by omega) (by omega) same <;> omega
  · simp only [List.mem_cons, List.not_mem_nil, or_false] at byteMem
    rcases byteMem with same | same | same <;>
      have := ofNat_inj_of_lt (by omega) (by omega) same <;> omega

end AndroidCollection.Java
