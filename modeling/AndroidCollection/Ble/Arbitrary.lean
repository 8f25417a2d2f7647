import AndroidCollection.Ble.Decoder
import Mathlib.Algebra.BigOperators.Group.List.Basic
import Mathlib.Algebra.Ring.Nat

/-!
# Arrays from anywhere

`read` gets whatever a peer sends. The check value keeps out every frame in
which one byte has been changed: the other bytes add up to it, so no single one
of them can change alone. It does not keep out a frame whose header was never
meant by a sender. The header bytes are signed, and nothing else is looked at
before the copy, which throws unless it stays in the array and in the buffer;
when it does not throw it writes to the frame's own block.
-/

namespace AndroidCollection.Ble

open Java Overwrite

/-! ## One changed byte -/

theorem checksum_set_ne {body : List UInt8} {position : ℕ} (inside : position < body.length)
    {value : UInt8} (changed : body.getD position 0 ≠ value) :
    checksum (body.set position value) ≠ checksum body := by
  intro same
  have old : body.getD position 0 = body[position] := by
    rw [List.getD_eq_getElem?_getD, List.getElem?_eq_getElem inside, Option.getD_some]
  have split : body = body.take position ++ body[position] :: body.drop (position + 1) := by
    rw [← List.drop_eq_getElem_cons inside, List.take_append_drop]
  have sums : ∀ byte : UInt8,
      ((body.take position ++ byte :: body.drop (position + 1)).map UInt8.toNat).sum =
        ((body.take position).map UInt8.toNat).sum + byte.toNat +
          ((body.drop (position + 1)).map UInt8.toNat).sum := by
    intro byte
    rw [List.map_append, List.sum_append, List.map_cons, List.sum_cons, add_assoc]
  have residues := congrArg UInt8.toNat same
  rw [List.set_eq_take_append_cons_drop, if_pos inside] at residues
  nth_rewrite 3 [split] at residues
  simp only [checksum, UInt8.toNat_ofNat', sums] at residues
  have isByte := value.toNat_lt
  have wasByte := body[position].toNat_lt
  apply changed
  rw [old, ← UInt8.toNat_inj]
  omega

/-- A frame with a right check value has a wrong one when one byte is changed. -/
theorem checked_set {frame : List UInt8} (checked : Checked frame) {position : ℕ}
    (inside : position < FRAME_CAPACITY) {value : UInt8}
    (changed : frame.getD position 0 ≠ value) :
    checkCode (frame.set position value) 1 (frame.set position value).length ≠
      (frame.set position value).getD HEAD_CHECK 0 := by
  rcases checked with ⟨size, sum⟩
  rw [← size] at inside
  rw [checkCode_eq_checksum, List.take_length] at sum ⊢
  cases frame with
  | nil => cases size
  | cons check body =>
      cases position with
      | zero =>
          intro accepted
          apply changed
          exact sum.symm.trans accepted
      | succ position =>
          have rejected := checksum_set_ne (Nat.lt_of_succ_lt_succ inside) changed
          intro accepted
          apply rejected
          exact accepted.trans sum.symm

/-- A change of one byte of a frame is noticed, and `read` does nothing. -/
theorem single_change_detected {frame : List UInt8} (checked : Checked frame) {position : ℕ}
    (inside : position < FRAME_CAPACITY) {value : UInt8}
    (changed : frame.getD position 0 ≠ value) (protocol : BleProtocol) :
    checkCode (frame.set position value) 1 (frame.set position value).length ≠
        (frame.set position value).getD HEAD_CHECK 0 ∧
      read protocol (frame.set position value) = .ok (protocol, []) := by
  have rejected := checked_set checked inside changed
  refine ⟨rejected, ?_⟩
  rw [read_eq, if_pos fun accepted => rejected accepted.2]

/-- The index byte of a frame for two bytes is changed. -/
theorem single_change_detected_index :
    checkCode ((encodeFrame 1 0 [0x68, 0x69]).set 2 1) 1
          ((encodeFrame 1 0 [0x68, 0x69]).set 2 1).length ≠
        ((encodeFrame 1 0 [0x68, 0x69]).set 2 1).getD HEAD_CHECK 0 ∧
      read .new ((encodeFrame 1 0 [0x68, 0x69]).set 2 1) = .ok (.new, []) :=
  single_change_detected (checked_encodeFrame (by decide)) (by decide) (by decide) .new

/-! ## Any array -/

/-- `read` returns, and changes no byte of the buffer outside the block which the index byte
names. -/
def ReadSafe (protocol : BleProtocol) (array : List UInt8) : Prop :=
  ∃ after calls, read protocol array = .ok (after, calls) ∧
    ∀ position, after.readBuffer[position]? ≠ protocol.readBuffer[position]? →
      position < MAX_SIZE ∧ position / DATA_CAPACITY = (array.getD HEAD_INDEX 0).toNat

theorem addressed_iff (array : List UInt8) :
    Addressed array ↔
      (array.getD HEAD_INDEX 0).toNat < 128 ∧
        (array.getD HEAD_LENGTH 0).toNat ≤ DATA_CAPACITY := by
  have index := (array.getD HEAD_INDEX 0).toNat_lt
  have length := (array.getD HEAD_LENGTH 0).toNat_lt
  simp only [Addressed, byteToInt_eq, DATA_CAPACITY]
  split <;> split <;> omega

theorem storeArray_own_block {protocol : BleProtocol} {array : List UInt8}
    (addressed : Addressed array) {position : ℕ}
    (changed : (protocol.storeArray array).readBuffer[position]? ≠
      protocol.readBuffer[position]?) :
    position < MAX_SIZE ∧ position / DATA_CAPACITY = (array.getD HEAD_INDEX 0).toNat := by
  have small := (addressed_iff array).mp addressed
  have index : byteToInt (array.getD HEAD_INDEX 0) = (array.getD HEAD_INDEX 0).toNat := by
    rw [byteToInt_eq, if_pos small.1]
  have length : byteToInt (array.getD HEAD_LENGTH 0) = (array.getD HEAD_LENGTH 0).toNat := by
    have isSmall := small.2
    simp only [DATA_CAPACITY] at isSmall
    rw [byteToInt_eq, if_pos (by omega)]
  simp only [DATA_CAPACITY] at small
  have payload : ((array.drop DATA_HEAD).take (array.getD HEAD_LENGTH 0).toNat).length ≤ 16 := by
    rw [List.length_take]
    omega
  have size := protocol.length_readBuffer
  simp only [MAX_SIZE] at size
  rw [BleProtocol.storeArray, BleProtocol.store_readBuffer, index, length, Int.toNat_natCast,
    DATA_CAPACITY] at changed
  rw [getElem?_overwrite (by omega)] at changed
  by_cases covered : ((array.getD HEAD_INDEX 0).toNat * (16 : ℕ) : ℤ).toNat ≤ position ∧
      position < ((array.getD HEAD_INDEX 0).toNat * (16 : ℕ) : ℤ).toNat +
        ((array.drop DATA_HEAD).take (array.getD HEAD_LENGTH 0).toNat).length
  · simp only [MAX_SIZE, DATA_CAPACITY]
    omega
  · rw [if_neg covered] at changed
    exact absurd rfl changed

/-- `read` is safe exactly on the arrays which it ignores and on those whose index is below 128 and
whose length is at most that of a full frame. -/
theorem readSafe_iff (protocol : BleProtocol) (array : List UInt8) :
    ReadSafe protocol array ↔
      (Checked array →
        (array.getD HEAD_INDEX 0).toNat < 128 ∧
          (array.getD HEAD_LENGTH 0).toNat ≤ DATA_CAPACITY) := by
  rw [ReadSafe, read_eq, ← addressed_iff]
  by_cases checked : Checked array
  · rw [if_neg (not_not.mpr checked)]
    by_cases addressed : Addressed array
    · rw [if_pos addressed]
      exact iff_of_true ⟨_, _, rfl, fun _ changed => storeArray_own_block addressed changed⟩
        fun _ => addressed
    · rw [if_neg addressed]
      apply iff_of_false
      · rintro ⟨after, calls, returned, _⟩
        cases returned
      · intro condition
        exact addressed (condition checked)
  · rw [if_pos checked]
    refine iff_of_true ⟨protocol, [], rfl, ?_⟩ fun accepted => absurd accepted checked
    intro position changed
    exact absurd rfl changed

/-- The frame with the index 128 of a message of 129 or more frames makes `read` throw. -/
theorem frame128_not_readSafe :
    ¬∀ (protocol : BleProtocol) (array : List UInt8), ReadSafe protocol array := by
  intro always
  rcases always .new (encodeFrame 129 128 [0x61]) with ⟨after, calls, returned, _⟩
  have checked : Checked (encodeFrame 129 128 [0x61]) := checked_encodeFrame (by decide)
  have unaddressed : ¬Addressed (encodeFrame 129 128 [0x61]) := by decide
  rw [read_eq, if_neg (not_not.mpr checked), if_neg unaddressed] at returned
  cases returned

end AndroidCollection.Ble
