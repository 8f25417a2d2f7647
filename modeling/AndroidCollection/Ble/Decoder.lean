import AndroidCollection.Ble.Protocol
import AndroidCollection.Lib.Machine

/-!
# Reassembly of documented frames

`receive` on a documented frame does one of two things, and which one depends
on the index only. `read` takes the header bytes as signed: an index of 128 or
more becomes a negative offset, `arraycopy` throws, and the frame is lost; any
other frame is stored at its block. The frame count is signed as well, so that a
count of 128 or more never meets an index and such a message is never
completed. Reassembly is therefore a sequence of stores into the kept buffer,
and everything below follows from the value which the last store covering a
position has put there.
-/

namespace AndroidCollection.Ble

open Java Overwrite

theorem setWidth_foldl_short (xs : List UInt8) (s : Int16) :
    (xs.foldl (fun s x => s + x.toInt8.toInt16) s).toBitVec.setWidth 8 =
      s.toBitVec.setWidth 8 + BitVec.ofNat 8 (xs.map UInt8.toNat).sum := by
  induction xs generalizing s with
  | nil => simp
  | cons x xs ih =>
      have widened : x.toInt8.toInt16.toBitVec.setWidth 8 = BitVec.ofNat 8 x.toNat := by
        change (x.toBitVec.signExtend 16).setWidth 8 = BitVec.ofNat 8 x.toBitVec.toNat
        rw [BitVec.ofNat_toNat]
        ext i inside
        simp [BitVec.getLsbD_signExtend, inside]
        omega
      rw [List.foldl_cons, ih, Int16.toBitVec_add, BitVec.setWidth_add _ _ (by decide), widened,
        List.map_cons, List.sum_cons, BitVec.ofNat_add, BitVec.add_assoc]

/-- The signed `short` sum of `checkCode` is the documented check value. -/
theorem checkCode_eq_checksum (b : List UInt8) (start stop : ℕ) :
    checkCode b start stop = checksum ((b.take stop).drop start) := by
  have masked (s : Int16) : (s &&& 0xFF).toInt8.toUInt8.toBitVec = s.toBitVec.setWidth 8 := by
    change (s.toBitVec &&& 255#16).signExtend 8 = s.toBitVec.setWidth 8
    rw [BitVec.signExtend_eq_setWidth_of_le _ (by decide)]
    ext i inside
    have bits : i = 0 ∨ i = 1 ∨ i = 2 ∨ i = 3 ∨ i = 4 ∨ i = 5 ∨ i = 6 ∨ i = 7 := by omega
    rcases bits with rfl | rfl | rfl | rfl | rfl | rfl | rfl | rfl <;> simp
  apply UInt8.toBitVec_inj.mp
  rw [checkCode, masked, setWidth_foldl_short, checksum]
  change 0#8 + BitVec.ofNat 8 _ = BitVec.ofNat 8 _
  rw [BitVec.zero_add]

theorem checkCode_encodeFrame (count index : ℕ) {payload : List UInt8}
    (payloadFits : payload.length ≤ 16) :
    checkCode (encodeFrame count index payload) 1 20 =
      checksum (frameBody count index payload) := by
  rw [checkCode_eq_checksum, List.take_of_length_le (by simp [payloadFits]), encodeFrame,
    List.drop_one, List.tail_cons]

/-! ## One frame -/

def BleProtocol.store (protocol : BleProtocol) (offset : ℕ) (data : List UInt8) : BleProtocol :=
  { protocol with
    readBuffer := overwrite protocol.readBuffer offset data
    length_readBuffer := (length_overwrite _ _ _).trans protocol.length_readBuffer }

@[simp]
theorem BleProtocol.store_readBuffer (protocol : BleProtocol) (offset : ℕ) (data : List UInt8) :
    (protocol.store offset data).readBuffer = overwrite protocol.readBuffer offset data :=
  rfl

@[simp]
theorem BleProtocol.store_mBleCallback (protocol : BleProtocol) (offset : ℕ)
    (data : List UInt8) : (protocol.store offset data).mBleCallback = protocol.mBleCallback :=
  rfl

theorem BleProtocol.copyToReadBuffer_eq_error {protocol : BleProtocol} {src : List UInt8}
    {srcPos destPos length : ℤ}
    (outside : srcPos < 0 ∨ destPos < 0 ∨ length < 0 ∨ src.length < srcPos + length ∨
      MAX_SIZE < destPos + length) :
    protocol.copyToReadBuffer src srcPos destPos length =
      .error .arrayIndexOutOfBoundsException := by
  rw [← protocol.length_readBuffer] at outside
  unfold copyToReadBuffer
  split
  · rename_i thrown copied
    rw [arraycopy, if_pos outside] at copied
    cases copied
    rfl
  · rename_i result copied
    rw [arraycopy, if_pos outside] at copied
    cases copied

theorem BleProtocol.copyToReadBuffer_eq_ok {protocol : BleProtocol} {src : List UInt8}
    {srcPos destPos length : ℤ}
    (inside : ¬(srcPos < 0 ∨ destPos < 0 ∨ length < 0 ∨ src.length < srcPos + length ∨
      MAX_SIZE < destPos + length)) :
    protocol.copyToReadBuffer src srcPos destPos length =
      .ok (protocol.store destPos.toNat ((src.drop srcPos.toNat).take length.toNat)) := by
  rw [← protocol.length_readBuffer] at inside
  unfold copyToReadBuffer
  split
  · rename_i thrown copied
    rw [arraycopy, if_neg inside] at copied
    cases copied
  · rename_i result copied
    rw [arraycopy, if_neg inside] at copied
    cases copied
    rfl

theorem byteToInt_ofNat_of_lt {value : ℕ} (small : value < 128) :
    byteToInt (UInt8.ofNat value) = value := by
  rw [byteToInt_eq, UInt8.toNat_ofNat', Nat.mod_eq_of_lt (by omega), if_pos small]

theorem byteToInt_ofNat_neg {value : ℕ} (large : 128 ≤ value) (byte : value < 256) :
    byteToInt (UInt8.ofNat value) < 0 := by
  rw [byteToInt_eq, UInt8.toNat_ofNat', Nat.mod_eq_of_lt (by omega), if_neg (by omega)]
  omega

theorem byteToInt_lt (byte : UInt8) : byteToInt byte < 128 := by
  have := byte.toNat_lt
  rw [byteToInt_eq]
  split <;> omega

/-- The array passes the length check and the check value. -/
def Checked (array : List UInt8) : Prop :=
  array.length = FRAME_CAPACITY ∧ checkCode array 1 array.length = array.getD HEAD_CHECK 0

/-- The signed header of the array addresses a part of the receive buffer. -/
def Addressed (array : List UInt8) : Prop :=
  0 ≤ byteToInt (array.getD HEAD_INDEX 0) ∧ 0 ≤ byteToInt (array.getD HEAD_LENGTH 0) ∧
    byteToInt (array.getD HEAD_LENGTH 0) ≤ DATA_CAPACITY

instance (array : List UInt8) : Decidable (Checked array) :=
  inferInstanceAs (Decidable (_ ∧ _))

instance (array : List UInt8) : Decidable (Addressed array) :=
  inferInstanceAs (Decidable (_ ∧ _))

def BleProtocol.storeArray (protocol : BleProtocol) (array : List UInt8) : BleProtocol :=
  protocol.store (byteToInt (array.getD HEAD_INDEX 0) * DATA_CAPACITY).toNat
    ((array.drop DATA_HEAD).take (byteToInt (array.getD HEAD_LENGTH 0)).toNat)

/-- The callback calls for a stored array, given the buffer after the store. -/
def storedCalls (buffer array : List UInt8) : List CallbackCall :=
  let totalFrame := byteToInt (array.getD HEAD_PACKAGES 0)
  let currFrame := byteToInt (array.getD HEAD_INDEX 0)
  let dataLength := byteToInt (array.getD HEAD_LENGTH 0)
  .process TYPE_READ (currFrame * DATA_CAPACITY) (totalFrame * DATA_CAPACITY) ::
    if totalFrame - 1 = currFrame then
      [.compelete TYPE_READ buffer 0 ((totalFrame - 1) * DATA_CAPACITY + dataLength)]
    else []

/-- `read` ignores an array which fails a check, throws if the header addresses nothing, and
otherwise stores the payload and reports it. -/
theorem read_eq (protocol : BleProtocol) (array : List UInt8) :
    read protocol array =
      if ¬Checked array then .ok (protocol, [])
      else if Addressed array then
        .ok (protocol.storeArray array,
          if protocol.mBleCallback.isSome then
            storedCalls (protocol.storeArray array).readBuffer array
          else [])
      else .error .arrayIndexOutOfBoundsException := by
  unfold read
  by_cases sizeOk : array.length = FRAME_CAPACITY
  · by_cases sumOk : checkCode array 1 array.length = array.getD HEAD_CHECK 0
    · have checked : Checked array := ⟨sizeOk, sumOk⟩
      have indexBound := byteToInt_lt (array.getD HEAD_INDEX 0)
      simp only [FRAME_CAPACITY] at sizeOk
      rw [if_neg (not_not.mpr checked.1), if_neg (not_not.mpr sumOk),
        if_neg (not_not.mpr checked)]
      by_cases addressed : Addressed array
      · rw [if_pos addressed]
        rcases addressed with ⟨indexNonneg, lengthNonneg, lengthFits⟩
        simp only [DATA_CAPACITY] at lengthFits
        have copied : protocol.copyToReadBuffer array DATA_HEAD
            (byteToInt (array.getD HEAD_INDEX 0) * DATA_CAPACITY)
            (byteToInt (array.getD HEAD_LENGTH 0)) = .ok (protocol.storeArray array) :=
          BleProtocol.copyToReadBuffer_eq_ok
            (by simp only [DATA_HEAD, DATA_CAPACITY, MAX_SIZE]; omega)
        dsimp only
        rw [copied]
        rfl
      · rw [if_neg addressed]
        simp only [Addressed, DATA_CAPACITY] at addressed
        have thrown : protocol.copyToReadBuffer array DATA_HEAD
            (byteToInt (array.getD HEAD_INDEX 0) * DATA_CAPACITY)
            (byteToInt (array.getD HEAD_LENGTH 0)) = .error .arrayIndexOutOfBoundsException :=
          BleProtocol.copyToReadBuffer_eq_error
            (by simp only [DATA_HEAD, DATA_CAPACITY, MAX_SIZE]; omega)
        dsimp only
        rw [thrown]
    · rw [if_neg (not_not.mpr sizeOk), if_pos sumOk, if_pos (fun checked => sumOk checked.2)]
  · rw [if_pos sizeOk, if_pos (fun checked => sizeOk checked.1)]

/-- A received array is stored and reported, or it has no effect. -/
theorem receive_eq (protocol : BleProtocol) (array : List UInt8) :
    receive protocol array =
      if Checked array ∧ Addressed array then
        (protocol.storeArray array,
          if protocol.mBleCallback.isSome then
            storedCalls (protocol.storeArray array).readBuffer array
          else [])
      else (protocol, []) := by
  rw [receive, read_eq]
  by_cases checked : Checked array
  · by_cases addressed : Addressed array
    · simp [checked, addressed]
    · simp [checked, addressed]
  · simp [checked]

@[simp]
theorem receive_mBleCallback (protocol : BleProtocol) (array : List UInt8) :
    (receive protocol array).1.mBleCallback = protocol.mBleCallback := by
  rw [receive_eq]
  split <;> rfl

/-- Whether an array completes a message does not depend on the buffer. -/
theorem completions_receive_eq_nil_congr {first second : BleProtocol}
    (sameCallback : first.mBleCallback = second.mBleCallback) (array : List UInt8) :
    completions (receive first array).2 = [] ↔ completions (receive second array).2 = [] := by
  rw [receive_eq, receive_eq, sameCallback]
  by_cases stored : Checked array ∧ Addressed array
  · by_cases listening : second.mBleCallback.isSome
    · simp only [if_pos stored, if_pos listening, storedCalls]
      split <;> simp [completions]
    · simp only [if_pos stored, if_neg listening]
  · simp only [if_neg stored]

section EncodedFrame

variable {protocol : BleProtocol} {count index : ℕ} {payload : List UInt8}

theorem checked_encodeFrame (payloadFits : payload.length ≤ 16) :
    Checked (encodeFrame count index payload) := by
  have sizeEq := length_encodeFrame count index payloadFits
  exact ⟨sizeEq, by rw [sizeEq, checkCode_encodeFrame _ _ payloadFits]; rfl⟩

/-- A frame whose index byte is negative is lost. -/
theorem receive_encodeFrame_of_large (large : 128 ≤ index) (byte : index < 256) :
    receive protocol (encodeFrame count index payload) = (protocol, []) := by
  have negative := byteToInt_ofNat_neg large byte
  rw [receive_eq, if_neg]
  rintro ⟨_, nonnegative, _⟩
  change 0 ≤ byteToInt (UInt8.ofNat index) at nonnegative
  omega

theorem storedCalls_encodeFrame (buffer : List UInt8) (payloadFits : payload.length ≤ 16)
    (small : index < 128) :
    storedCalls buffer (encodeFrame count index payload) =
      .process TYPE_READ (index * DATA_CAPACITY)
          (byteToInt (UInt8.ofNat count) * DATA_CAPACITY) ::
        if byteToInt (UInt8.ofNat count) - 1 = index then
          [.compelete TYPE_READ buffer 0
            ((byteToInt (UInt8.ofNat count) - 1) * DATA_CAPACITY + payload.length)]
        else [] := by
  have countByte : (encodeFrame count index payload).getD HEAD_PACKAGES 0 = UInt8.ofNat count :=
    rfl
  have indexByte : (encodeFrame count index payload).getD HEAD_INDEX 0 = UInt8.ofNat index :=
    rfl
  have lengthByte :
      (encodeFrame count index payload).getD HEAD_LENGTH 0 = UInt8.ofNat payload.length :=
    rfl
  simp only [storedCalls, countByte, indexByte, lengthByte, byteToInt_ofNat_of_lt small,
    byteToInt_ofNat_of_lt (show payload.length < 128 by omega)]

theorem receive_encodeFrame_of_small (payloadFits : payload.length ≤ 16) (small : index < 128) :
    receive protocol (encodeFrame count index payload) =
      (protocol.store (16 * index) payload,
        if protocol.mBleCallback.isSome then
          storedCalls (overwrite protocol.readBuffer (16 * index) payload)
            (encodeFrame count index payload)
        else []) := by
  have indexValue := byteToInt_ofNat_of_lt small
  have lengthValue := byteToInt_ofNat_of_lt (show payload.length < 128 by omega)
  have addressed : Addressed (encodeFrame count index payload) := by
    change 0 ≤ byteToInt (UInt8.ofNat index) ∧ 0 ≤ byteToInt (UInt8.ofNat payload.length) ∧
      byteToInt (UInt8.ofNat payload.length) ≤ (16 : ℕ)
    omega
  have stored : protocol.storeArray (encodeFrame count index payload) =
      protocol.store (16 * index) payload := by
    change protocol.store (byteToInt (UInt8.ofNat index) * (16 : ℕ)).toNat
      ((payload ++ List.replicate (16 - payload.length) 0).take
        (byteToInt (UInt8.ofNat payload.length)).toNat) = _
    rw [indexValue, lengthValue, Int.toNat_natCast, List.take_left]
    congr 1
    omega
  rw [receive_eq, if_pos ⟨checked_encodeFrame payloadFits, addressed⟩, stored]
  rfl

end EncodedFrame

/-! ## Frames of a message -/

/-- A frame of some message, as it travels. -/
abbrev Part := Message × ℕ

namespace Part

def frame (part : Part) : List UInt8 :=
  part.1.frame part.2

def stored (part : Part) : ℕ × List UInt8 :=
  (16 * part.2, part.1.payload part.2)

def Valid (part : Part) : Prop :=
  part.2 < part.1.frameCount

/-- The part is the last frame of a message short enough to be completed. -/
def Completes (part : Part) : Prop :=
  part.2 + 1 = part.1.frameCount ∧ part.1.frameCount ≤ 127

instance (part : Part) : Decidable part.Completes :=
  inferInstanceAs (Decidable (_ ∧ _))

theorem covering_stored (part : Part) (position : ℕ) :
    covering part.stored position =
      if position / 16 = part.2 then part.1.bytes[position]? else none := by
  rw [covering, stored]
  dsimp only
  by_cases here : position / 16 = part.2
  · rw [if_pos (by omega), if_pos here, Message.getElem?_payload _ (by omega)]
    congr 1
    omega
  · rw [if_neg here]
    by_cases before : 16 * part.2 ≤ position
    · rw [if_pos before, List.getElem?_eq_none]
      have := part.1.length_payload_le part.2
      omega
    · rw [if_neg before]

end Part

section ReceivePart

variable {protocol : BleProtocol} {part : Part}

theorem receive_part_fst (valid : part.Valid) :
    (receive protocol part.frame).1 =
      if part.2 < 128 then protocol.store (16 * part.2) (part.1.payload part.2)
      else protocol := by
  have payloadFits := part.1.length_payload_le part.2
  have := part.1.frameCount_le
  by_cases small : part.2 < 128
  · rw [if_pos small, Part.frame, Message.frame, receive_encodeFrame_of_small payloadFits small]
  · rw [if_neg small, Part.frame, Message.frame,
      receive_encodeFrame_of_large (by omega) (by unfold Part.Valid at valid; omega)]

/-- Only the last frame of a message with at most 127 frames is reported as completing it, and
then the message is read off the buffer. -/
theorem completions_receive_part (listening : protocol.mBleCallback.isSome) (valid : part.Valid) :
    completions (receive protocol part.frame).2 =
      if part.Completes then
        [(receive protocol part.frame).1.readBuffer.take part.1.bytes.length]
      else [] := by
  have payloadFits := part.1.length_payload_le part.2
  have countBound := part.1.frameCount_le
  have indexBound : part.2 < part.1.frameCount := valid
  by_cases small : part.2 < 128
  · have signedCount : byteToInt (UInt8.ofNat part.1.frameCount) - 1 = part.2 ↔
        part.Completes := by
      rw [byteToInt_eq, UInt8.toNat_ofNat', Part.Completes]
      split <;> omega
    rw [Part.frame, Message.frame, receive_encodeFrame_of_small payloadFits small,
      if_pos listening, storedCalls_encodeFrame _ payloadFits small]
    by_cases completes : part.Completes
    · have whole : ((byteToInt (UInt8.ofNat part.1.frameCount) - 1) * (DATA_CAPACITY : ℤ) +
          (part.1.payload part.2).length).toNat = part.1.bytes.length := by
        rw [signedCount.mpr completes, ← part.1.length_of_last completes.1, DATA_CAPACITY]
        omega
      rw [if_pos (signedCount.mpr completes), if_pos completes]
      simp [completions, whole]
    · rw [if_neg (mt signedCount.mp completes), if_neg completes]
      simp [completions]
  · have incomplete : ¬part.Completes := by
      rintro ⟨last, short⟩
      omega
    rw [Part.frame, Message.frame,
      receive_encodeFrame_of_large (by omega) (by omega), if_neg incomplete]
    rfl

end ReceivePart

/-! ## Runs -/

/-- What a run of received arrays reports as completed, array by array. -/
def deliveries (protocol : BleProtocol) (arrays : List (List UInt8)) : List (List (List UInt8)) :=
  (Machine.outputs receive protocol arrays).map completions

theorem deliveries_append (protocol : BleProtocol) (first second : List (List UInt8)) :
    deliveries protocol (first ++ second) =
      deliveries protocol first ++
        deliveries (Machine.after receive protocol first) second := by
  rw [deliveries, Machine.outputs_append, List.map_append]
  rfl

theorem deliveries_cons (protocol : BleProtocol) (array : List UInt8)
    (arrays : List (List UInt8)) :
    deliveries protocol (array :: arrays) =
      completions (receive protocol array).2 :: deliveries (receive protocol array).1 arrays :=
  rfl

@[simp]
theorem length_deliveries (protocol : BleProtocol) (arrays : List (List UInt8)) :
    (deliveries protocol arrays).length = arrays.length := by
  simp [deliveries]

end AndroidCollection.Ble
