import AndroidCollection.Java.Basic
import AndroidCollection.Lib.FormatReader

/-!
# Byte buffers

A `ByteBuffer` which is only read is modelled by its bytes from the position on,
and its `get` methods by readers of these bytes. Numbers are big-endian.
-/

namespace AndroidCollection.Dump

open FormatReader Java

inductive Thrown where
  | bufferUnderflowException
  | illegalArgumentException
  | negativeArraySizeException
  | arrayIndexOutOfBoundsException
deriving DecidableEq

abbrev Reading (α : Type) : Type :=
  FormatReader UInt8 Thrown α

def get : Reading UInt8 :=
  token .bufferUnderflowException

def getChar : Reading UInt16 := do
  let high ← get
  let low ← get
  pure (UInt16.ofBitVec (high.toBitVec ++ low.toBitVec))

def getShort : Reading Int16 := do
  let bits ← getChar
  pure bits.toInt16

def getInt : Reading Int32 := do
  let first ← get
  let second ← get
  let third ← get
  let fourth ← get
  pure (Int32.ofBitVec
    (first.toBitVec ++ second.toBitVec ++ third.toBitVec ++ fourth.toBitVec))

/-- What is left after `position(newPosition)` of a buffer which holds `content`. -/
def position (content : List UInt8) (newPosition : Int32) : Except Thrown (List UInt8) :=
  if newPosition.toInt < 0 ∨ content.length < newPosition.toInt then
    .error .illegalArgumentException
  else
    .ok (content.drop newPosition.toInt.toNat)

/-! ## Formats -/

def shortBytes (value : UInt16) : List UInt8 :=
  [UInt8.ofBitVec (value.toBitVec.extractLsb' 8 8), UInt8.ofBitVec (value.toBitVec.extractLsb' 0 8)]

def intBytes (value : UInt32) : List UInt8 :=
  [UInt8.ofBitVec (value.toBitVec.extractLsb' 24 8),
    UInt8.ofBitVec (value.toBitVec.extractLsb' 16 8),
    UInt8.ofBitVec (value.toBitVec.extractLsb' 8 8),
    UInt8.ofBitVec (value.toBitVec.extractLsb' 0 8)]

@[simp]
theorem length_shortBytes (value : UInt16) : (shortBytes value).length = 2 :=
  rfl

theorem shortBytes_eq_iff (high low : UInt8) (value : UInt16) :
    [high, low] = shortBytes value ↔
      UInt16.ofBitVec (high.toBitVec ++ low.toBitVec) = value := by
  constructor
  · intro same
    simp only [shortBytes, List.cons.injEq, and_true] at same
    rcases same with ⟨rfl, rfl⟩
    apply UInt16.toBitVec_inj.mp
    exact BitVec.extractLsb'_append_extractLsb'
  · rintro rfl
    simp only [shortBytes, List.cons.injEq, and_true, ← UInt8.toBitVec_inj]
    change high.toBitVec = (high.toBitVec ++ low.toBitVec).extractLsb' 8 8 ∧
      low.toBitVec = (high.toBitVec ++ low.toBitVec).extractLsb' 0 8
    rw [BitVec.extractLsb'_append_eq_left, BitVec.extractLsb'_append_eq_right]
    exact ⟨rfl, rfl⟩

theorem intBytes_eq_iff (first second third fourth : UInt8) (value : UInt32) :
    [first, second, third, fourth] = intBytes value ↔
      UInt32.ofBitVec (first.toBitVec ++ second.toBitVec ++ third.toBitVec ++ fourth.toBitVec) =
        value := by
  constructor
  · intro same
    simp only [intBytes, List.cons.injEq, and_true] at same
    rcases same with ⟨rfl, rfl, rfl, rfl⟩
    apply UInt32.toBitVec_inj.mp
    exact append_bytes value.toBitVec
  · rintro rfl
    simp only [intBytes, List.cons.injEq, and_true, ← UInt8.toBitVec_inj]
    change first.toBitVec = (first.toBitVec ++ second.toBitVec ++ third.toBitVec ++
        fourth.toBitVec).extractLsb' 24 8 ∧
      second.toBitVec = (first.toBitVec ++ second.toBitVec ++ third.toBitVec ++
        fourth.toBitVec).extractLsb' 16 8 ∧
      third.toBitVec = (first.toBitVec ++ second.toBitVec ++ third.toBitVec ++
        fourth.toBitVec).extractLsb' 8 8 ∧
      fourth.toBitVec = (first.toBitVec ++ second.toBitVec ++ third.toBitVec ++
        fourth.toBitVec).extractLsb' 0 8
    rw [first_byte, second_byte, third_byte, fourth_byte]
    exact ⟨rfl, rfl, rfl, rfl⟩

theorem reads_get : Reads get fun byte tokens => tokens = [byte] :=
  Reads.token _

theorem reads_getChar : Reads getChar fun value tokens => tokens = shortBytes value := by
  refine (reads_get.bind fun high => reads_get.bind fun low => Reads.pure _).congr ?_
  intro value tokens
  constructor
  · rintro ⟨high, _, _, rfl, ⟨low, _, _, rfl, ⟨rfl, rfl⟩, rfl⟩, rfl⟩
    exact (shortBytes_eq_iff high low _).mpr rfl
  · rintro rfl
    refine ⟨_, _, _, rfl, ⟨_, _, _, rfl, ⟨?_, rfl⟩, rfl⟩, rfl⟩
    exact ((shortBytes_eq_iff _ _ value).mp rfl).symm

theorem reads_getShort :
    Reads getShort fun value tokens => ∃ bits : UInt16, value = bits.toInt16 ∧
      tokens = shortBytes bits := by
  refine (reads_getChar.bind fun bits => Reads.pure _).congr ?_
  intro value tokens
  constructor
  · rintro ⟨bits, _, _, rfl, ⟨rfl, rfl⟩, rfl⟩
    exact ⟨bits, rfl, List.append_nil _⟩
  · rintro ⟨bits, rfl, rfl⟩
    exact ⟨bits, _, [], rfl, ⟨rfl, rfl⟩, (List.append_nil _).symm⟩

theorem reads_getInt :
    Reads getInt fun value tokens => ∃ bits : UInt32, value = bits.toInt32 ∧
      tokens = intBytes bits := by
  refine (reads_get.bind fun first => reads_get.bind fun second => reads_get.bind fun third =>
    reads_get.bind fun fourth => Reads.pure _).congr ?_
  intro value tokens
  constructor
  · rintro ⟨first, _, _, rfl, ⟨second, _, _, rfl, ⟨third, _, _, rfl, ⟨fourth, _, _, rfl,
      ⟨rfl, rfl⟩, rfl⟩, rfl⟩, rfl⟩, rfl⟩
    exact ⟨_, rfl, (intBytes_eq_iff first second third fourth _).mpr rfl⟩
  · rintro ⟨bits, rfl, rfl⟩
    refine ⟨_, _, _, rfl, ⟨_, _, _, rfl, ⟨_, _, _, rfl, ⟨_, _, _, rfl, ⟨?_, rfl⟩, rfl⟩, rfl⟩, rfl⟩,
      rfl⟩
    exact congrArg UInt32.toInt32 ((intBytes_eq_iff _ _ _ _ bits).mp rfl).symm

end AndroidCollection.Dump
