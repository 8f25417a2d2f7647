import AndroidCollection.Java.Basic

/-!
# The documented BLE frame format

The protocol sends a message as frames of twenty bytes: a check value, the
number of frames, the index of this frame, the number of payload bytes, and
sixteen payload bytes filled up with zeros. A message has at most 4096 bytes
and thus at most 256 frames, so the count of the longest messages wraps to
zero in its byte. The definitions here state that format; the code
which is meant to write and to read it is modelled in
`AndroidCollection.Ble.Protocol`.
-/

namespace AndroidCollection.Ble

/-- The largest message, in bytes. -/
def MAX_SIZE : ℕ := 4096

/-- The payload bytes of a full frame. -/
def DATA_CAPACITY : ℕ := 16

def FRAME_CAPACITY : ℕ := 20

/-- A message which the protocol can carry. -/
structure Message where
  bytes : List UInt8
  nonempty : 0 < bytes.length
  bounded : bytes.length ≤ MAX_SIZE

/-- The documented check value: the sum of the bytes after it, in one byte. -/
def checksum (body : List UInt8) : UInt8 :=
  UInt8.ofNat (body.map UInt8.toNat).sum

/-- The bytes after the check value. -/
def frameBody (count index : ℕ) (payload : List UInt8) : List UInt8 :=
  UInt8.ofNat count :: UInt8.ofNat index :: UInt8.ofNat payload.length ::
    (payload ++ List.replicate (DATA_CAPACITY - payload.length) 0)

/-- One frame of the documented layout. -/
def encodeFrame (count index : ℕ) (payload : List UInt8) : List UInt8 :=
  checksum (frameBody count index payload) :: frameBody count index payload

namespace Message

variable (message : Message)

def frameCount : ℕ :=
  (message.bytes.length + 15) / DATA_CAPACITY

def payload (index : ℕ) : List UInt8 :=
  (message.bytes.drop (DATA_CAPACITY * index)).take DATA_CAPACITY

def frame (index : ℕ) : List UInt8 :=
  encodeFrame message.frameCount index (message.payload index)

def frames : List (List UInt8) :=
  (List.range message.frameCount).map message.frame

theorem frameCount_pos : 0 < message.frameCount := by
  have := message.nonempty
  simp only [frameCount, DATA_CAPACITY]
  omega

theorem frameCount_le : message.frameCount ≤ 256 := by
  have := message.bounded
  simp only [MAX_SIZE] at this
  simp only [frameCount, DATA_CAPACITY]
  omega

theorem length_payload (index : ℕ) :
    (message.payload index).length = min 16 (message.bytes.length - 16 * index) := by
  simp [payload, DATA_CAPACITY]

theorem length_payload_le (index : ℕ) : (message.payload index).length ≤ 16 := by
  rw [length_payload]
  omega

/-- The last frame ends where the message ends. -/
theorem length_of_last {index : ℕ} (last : index + 1 = message.frameCount) :
    16 * index + (message.payload index).length = message.bytes.length := by
  have := message.nonempty
  simp only [frameCount, DATA_CAPACITY] at last
  rw [length_payload]
  omega

theorem getElem?_payload {index offset : ℕ} (inside : offset < 16) :
    (message.payload index)[offset]? = message.bytes[16 * index + offset]? := by
  rw [payload, DATA_CAPACITY, List.getElem?_take_of_lt inside, List.getElem?_drop]

end Message

@[simp]
theorem length_frameBody (count index : ℕ) {payload : List UInt8}
    (payloadFits : payload.length ≤ 16) : (frameBody count index payload).length = 19 := by
  simp only [frameBody, DATA_CAPACITY, List.length_cons, List.length_append,
    List.length_replicate]
  omega

@[simp]
theorem length_encodeFrame (count index : ℕ) {payload : List UInt8}
    (payloadFits : payload.length ≤ 16) : (encodeFrame count index payload).length = 20 := by
  simp [encodeFrame, payloadFits]

/-- The index byte tells frames of up to 256 apart. -/
theorem index_of_encodeFrame_eq {count count' index index' : ℕ} {payload payload' : List UInt8}
    (bound : index < 256) (bound' : index' < 256)
    (same : encodeFrame count index payload = encodeFrame count' index' payload') :
    index = index' := by
  simp only [encodeFrame, frameBody, List.cons.injEq] at same
  have bytes := congrArg UInt8.toNat same.2.2.1
  simpa [Nat.mod_eq_of_lt bound, Nat.mod_eq_of_lt bound'] using bytes

/-- The arrays are the documented frames of some cut of `bytes` into payloads: every array has
the documented layout, the indices run from zero without a gap, and the payloads make up `bytes`. -/
def Carries (arrays : List (List UInt8)) (bytes : List UInt8) : Prop :=
  ∃ payloads : List (List UInt8),
    arrays = payloads.mapIdx (encodeFrame payloads.length) ∧
      (∀ payload ∈ payloads, 1 ≤ payload.length ∧ payload.length ≤ DATA_CAPACITY) ∧
      payloads.flatten = bytes

theorem Message.flatten_payloads (message : Message) (count : ℕ) :
    ((List.range count).map message.payload).flatten = message.bytes.take (16 * count) := by
  induction count with
  | zero => simp
  | succ count ih =>
      rw [List.range_succ, List.map_append, List.flatten_append, ih, Nat.mul_succ, List.take_add]
      simp [payload, DATA_CAPACITY]

theorem Message.carries_frames (message : Message) : Carries message.frames message.bytes := by
  refine ⟨(List.range message.frameCount).map message.payload, ?_, ?_, ?_⟩
  · apply List.ext_getElem
    · simp [frames]
    · intro index inside inside'
      simp [frames, frame]
  · intro payload payloadMem
    rcases List.mem_map.mp payloadMem with ⟨index, indexMem, rfl⟩
    have inside := List.mem_range.mp indexMem
    simp only [frameCount, DATA_CAPACITY] at inside ⊢
    rw [length_payload]
    omega
  · rw [flatten_payloads, List.take_of_length_le]
    simp only [frameCount, DATA_CAPACITY]
    omega

/-- Repetitions of the bytes themselves are not frames which carry them. -/
theorem not_carries_replicate {bytes : List UInt8} (nonempty : bytes ≠ []) (count : ℕ) :
    ¬Carries (List.replicate count bytes) bytes := by
  rintro ⟨payloads, layout, sizes, content⟩
  match payloads with
  | [] => exact nonempty content.symm
  | [payload] =>
      have sizeBound := (sizes payload (by simp)).2
      have single : bytes = encodeFrame 1 0 payload := by
        have arrays := congrArg List.length layout
        simp only [List.length_replicate, List.length_mapIdx, List.length_singleton] at arrays
        subst arrays
        simpa using layout
      have size : bytes.length = payload.length := by
        rw [← content, List.flatten_singleton]
      have frameLength := congrArg List.length single
      rw [length_encodeFrame _ _ sizeBound, size] at frameLength
      simp only [DATA_CAPACITY] at sizeBound
      omega
  | first :: second :: rest =>
      have arrays := congrArg List.length layout
      simp only [List.length_replicate, List.length_mapIdx, List.length_cons] at arrays
      have head : bytes = encodeFrame (rest.length + 1 + 1) 0 first := by
        have entry := congrArg (fun frames => frames[0]?) layout
        simpa [arrays] using entry
      have next : bytes = encodeFrame (rest.length + 1 + 1) 1 second := by
        have entry := congrArg (fun frames => frames[1]?) layout
        simpa [arrays] using entry
      exact absurd (index_of_encodeFrame_eq (by decide) (by decide) (head.symm.trans next))
        (by decide)

end AndroidCollection.Ble
