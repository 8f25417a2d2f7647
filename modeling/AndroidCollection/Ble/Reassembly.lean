import AndroidCollection.Ble.Decoder

/-!
# Runs of the BLE decoder

A run of received frames leaves in the buffer, at every position, what the last
frame covering the position has put there. This file draws the consequences
for one sender: messages of up to 127 frames survive an ordered delivery from
any state of the buffer, longer ones are never completed, and under loss,
duplication and reordering the decoder reports the blocks it has received
together with whatever the buffer held in the others.
-/

namespace AndroidCollection.Ble

open Java Overwrite

theorem after_mBleCallback (protocol : BleProtocol) (arrays : List (List UInt8)) :
    (Machine.after receive protocol arrays).mBleCallback = protocol.mBleCallback :=
  Machine.after_invariant (fun state => state.mBleCallback = protocol.mBleCallback)
    (fun state array same => (receive_mBleCallback state array).trans same) rfl arrays

namespace Part

def Small (part : Part) : Prop :=
  part.2 < 128

theorem small_of_valid {part : Part} (valid : part.Valid)
    (short : part.1.frameCount ≤ 127) : part.Small := by
  unfold Valid at valid
  unfold Small
  omega

theorem stored_fits {part : Part} (small : part.Small) :
    part.stored.1 + part.stored.2.length ≤ MAX_SIZE := by
  have := part.1.length_payload_le part.2
  simp only [Small] at small
  simp only [stored, MAX_SIZE]
  omega

end Part

section Parts

variable {protocol : BleProtocol} {parts : List Part}

theorem after_parts_readBuffer (valid : ∀ part ∈ parts, part.Valid)
    (small : ∀ part ∈ parts, part.Small) :
    (Machine.after receive protocol (parts.map Part.frame)).readBuffer =
      overwriteAll protocol.readBuffer (parts.map Part.stored) := by
  induction parts generalizing protocol with
  | nil => rfl
  | cons part parts ih =>
      have head : (receive protocol part.frame).1.readBuffer =
          overwrite protocol.readBuffer part.stored.1 part.stored.2 := by
        rw [receive_part_fst (valid part List.mem_cons_self),
          if_pos (show part.2 < 128 from small part List.mem_cons_self)]
        rfl
      rw [List.map_cons, Machine.after_cons,
        ih (fun other otherMem => valid other (List.mem_cons_of_mem _ otherMem))
          (fun other otherMem => small other (List.mem_cons_of_mem _ otherMem)), head]
      rfl

/-- The buffer after received parts, position by position. -/
theorem getElem?_after_parts (valid : ∀ part ∈ parts, part.Valid)
    (small : ∀ part ∈ parts, part.Small) (position : ℕ) :
    (Machine.after receive protocol (parts.map Part.frame)).readBuffer[position]? =
      (lastWrite (parts.map Part.stored) position).or protocol.readBuffer[position]? := by
  rw [after_parts_readBuffer valid small]
  apply getElem?_overwriteAll
  intro write writeMem
  rcases List.mem_map.mp writeMem with ⟨part, partMem, rfl⟩
  rw [protocol.length_readBuffer]
  exact Part.stored_fits (small part partMem)

theorem deliveries_incomplete (listening : protocol.mBleCallback.isSome)
    (valid : ∀ part ∈ parts, part.Valid) (incomplete : ∀ part ∈ parts, ¬part.Completes) :
    deliveries protocol (parts.map Part.frame) = List.replicate parts.length [] := by
  induction parts generalizing protocol with
  | nil => rfl
  | cons part parts ih =>
      rw [List.map_cons, deliveries_cons,
        completions_receive_part listening (valid part List.mem_cons_self),
        if_neg (incomplete part List.mem_cons_self),
        ih (by rwa [receive_mBleCallback])
          (fun other otherMem => valid other (List.mem_cons_of_mem _ otherMem))
          (fun other otherMem => incomplete other (List.mem_cons_of_mem _ otherMem))]
      rfl

theorem completions_after_parts (listening : protocol.mBleCallback.isSome) {part : Part}
    (valid : part.Valid) :
    completions
        (receive (Machine.after receive protocol (parts.map Part.frame)) part.frame).2 =
      if part.Completes then
        [(Machine.after receive protocol ((parts ++ [part]).map Part.frame)).readBuffer.take
          part.1.bytes.length]
      else [] := by
  rw [completions_receive_part (by rwa [after_mBleCallback]) valid, List.map_append,
    Machine.after_append]
  rfl

end Parts

/-! ## One message -/

/-- `complete` is called exactly once, after the last array, and with exactly `bytes`. -/
def CompletesOnceWith (protocol : BleProtocol) (arrays : List (List UInt8))
    (bytes : List UInt8) : Prop :=
  deliveries protocol arrays = List.replicate (arrays.length - 1) [] ++ [[bytes]]

/-- The message in the received blocks and the old buffer in the others. -/
def patchwork (message : Message) (old : List UInt8) (received : List ℕ) : List UInt8 :=
  (List.range message.bytes.length).map fun position =>
    if position / 16 ∈ received then message.bytes.getD position 0 else old.getD position 0

section OneMessage

variable {protocol : BleProtocol} {message : Message} {indices : List ℕ}

theorem frames_eq_map_part (message : Message) (indices : List ℕ) :
    indices.map message.frame = (indices.map fun index => (message, index)).map Part.frame := by
  rw [List.map_map]
  rfl

/-- Frames of one message in any order leave the patchwork at the start of the buffer. -/
theorem take_after_frames (short : message.frameCount ≤ 127)
    (inRange : ∀ index ∈ indices, index < message.frameCount) :
    (Machine.after receive protocol (indices.map message.frame)).readBuffer.take
        message.bytes.length =
      patchwork message protocol.readBuffer indices := by
  have valid : ∀ part ∈ indices.map fun index => (message, index), Part.Valid part := by
    intro part partMem
    rcases List.mem_map.mp partMem with ⟨index, indexMem, rfl⟩
    exact inRange index indexMem
  have small : ∀ part ∈ indices.map fun index => (message, index), Part.Small part := by
    intro part partMem
    rcases List.mem_map.mp partMem with ⟨index, indexMem, rfl⟩
    exact Part.small_of_valid (inRange index indexMem) short
  have bounded : message.bytes.length ≤ protocol.readBuffer.length := by
    rw [protocol.length_readBuffer]
    exact message.bounded
  apply List.ext_getElem?
  intro position
  by_cases inside : position < message.bytes.length
  · rw [List.getElem?_take_of_lt inside, frames_eq_map_part, getElem?_after_parts valid small,
      patchwork, List.getElem?_map, List.getElem?_range inside]
    have written : lastWrite ((indices.map fun index => (message, index)).map Part.stored)
        position = if position / 16 ∈ indices then message.bytes[position]? else none := by
      rw [List.map_map]
      apply lastWrite_map
      intro index _
      simp only [Function.comp_apply, Part.covering_stored, eq_comm]
    have held : position < protocol.readBuffer.length := by omega
    rw [written]
    by_cases received : position / 16 ∈ indices <;> simp [received, inside, held]
  · rw [List.getElem?_eq_none (by simp; omega), List.getElem?_eq_none (by simp [patchwork]; omega)]

theorem patchwork_eq_iff (old : List UInt8) :
    patchwork message old indices = message.bytes ↔
      ∀ position < message.bytes.length, position / 16 ∈ indices ∨
        old.getD position 0 = message.bytes.getD position 0 := by
  constructor
  · intro same position inside
    by_cases received : position / 16 ∈ indices
    · exact Or.inl received
    · right
      have entry := congrArg (fun bytes => bytes.getD position 0) same
      simpa [patchwork, received, inside] using entry
  · intro present
    apply List.ext_getElem
    · simp [patchwork]
    · intro position inside inside'
      have here := present position inside'
      by_cases received : position / 16 ∈ indices
      · simp [patchwork, received, inside']
      · rcases here with here | here
        · exact absurd here received
        · simpa [patchwork, received, inside'] using here

theorem completions_after_frames (listening : protocol.mBleCallback.isSome) {index : ℕ}
    (inRange : ∀ other ∈ indices ++ [index], other < message.frameCount) :
    completions
        (receive (Machine.after receive protocol (indices.map message.frame))
          (message.frame index)).2 =
      if Part.Completes (message, index) then
        [patchwork message protocol.readBuffer (indices ++ [index])]
      else [] := by
  have valid : Part.Valid (message, index) := inRange index (by simp)
  have report : completions
      (receive (Machine.after receive protocol
        ((indices.map fun other => (message, other)).map Part.frame))
        (Part.frame (message, index))).2 = _ :=
    completions_after_parts listening valid
  rw [← frames_eq_map_part] at report
  refine report.trans ?_
  by_cases completes : Part.Completes (message, index)
  · have whole : ((indices.map fun other => (message, other)) ++ [(message, index)]).map
        Part.frame = (indices ++ [index]).map message.frame := by
      simp only [frames_eq_map_part, List.map_append, List.map_cons, List.map_nil]
      rfl
    rw [if_pos completes, if_pos completes, whole, take_after_frames completes.2 inRange]
  · rw [if_neg completes, if_neg completes]

theorem deliveries_frames (listening : protocol.mBleCallback.isSome) (message : Message) :
    deliveries protocol message.frames =
      List.replicate (message.frames.length - 1) [] ++
        [if message.frameCount ≤ 127 then [message.bytes] else []] := by
  have positive := message.frameCount_pos
  have split : List.range message.frameCount =
      List.range (message.frameCount - 1) ++ [message.frameCount - 1] := by
    rw [← List.range_succ]
    congr 1
    omega
  have inRange : ∀ other ∈ List.range (message.frameCount - 1) ++ [message.frameCount - 1],
      other < message.frameCount := by
    intro other otherMem
    rw [← split] at otherMem
    exact List.mem_range.mp otherMem
  have earlier : deliveries protocol
      ((List.range (message.frameCount - 1)).map message.frame) =
        List.replicate (message.frameCount - 1) [] := by
    rw [frames_eq_map_part, deliveries_incomplete listening]
    · simp
    · intro part partMem
      rcases List.mem_map.mp partMem with ⟨index, indexMem, rfl⟩
      exact inRange index (List.mem_append_left _ indexMem)
    · rintro part partMem ⟨last, _⟩
      rcases List.mem_map.mp partMem with ⟨index, indexMem, rfl⟩
      have := List.mem_range.mp indexMem
      simp only at last
      omega
  have complete : patchwork message protocol.readBuffer
      (List.range (message.frameCount - 1) ++ [message.frameCount - 1]) = message.bytes := by
    rw [patchwork_eq_iff, ← split]
    intro position inside
    left
    rw [List.mem_range, Message.frameCount, DATA_CAPACITY]
    omega
  rw [Message.frames, split, List.map_append, deliveries_append, earlier, List.map_singleton,
    deliveries_cons, completions_after_frames listening inRange, complete]
  by_cases short : message.frameCount ≤ 127
  · have completes : Part.Completes (message, message.frameCount - 1) :=
      ⟨Nat.sub_add_cancel positive, short⟩
    simp [completes, short, deliveries, Machine.outputs]
  · have incomplete : ¬Part.Completes (message, message.frameCount - 1) := fun completes =>
      short completes.2
    simp [incomplete, short, deliveries, Machine.outputs]

end OneMessage

/-- A message of up to 127 frames, delivered in order, is completed exactly once and exactly,
from any state of the buffer; a longer message is never completed. -/
theorem completesOnceWith_frames_iff (protocol : BleProtocol)
    (listening : protocol.mBleCallback.isSome) (message : Message) :
    CompletesOnceWith protocol message.frames message.bytes ↔
      message.bytes.length ≤ 127 * DATA_CAPACITY := by
  rw [CompletesOnceWith, deliveries_frames listening, List.append_cancel_left_eq]
  by_cases short : message.frameCount ≤ 127
  · rw [if_pos short]
    simp only [Message.frameCount, DATA_CAPACITY] at short ⊢
    simp only [true_iff]
    omega
  · rw [if_neg short]
    simp only [Message.frameCount, DATA_CAPACITY] at short ⊢
    simp
    omega

/-- A zero message of the shortest length which needs 128 frames. -/
def longMessage : Message where
  bytes := List.replicate 2033 0
  nonempty := by
    rw [List.length_replicate]
    decide
  bounded := by
    rw [List.length_replicate]
    decide

theorem longMessage_not_completed :
    ¬CompletesOnceWith (BleProtocol.new.setBleCallback (some 0)) longMessage.frames
      longMessage.bytes := by
  have long : ¬longMessage.frameCount ≤ 127 := by
    rw [Message.frameCount, longMessage, List.length_replicate]
    decide
  rw [CompletesOnceWith, deliveries_frames rfl, if_neg long]
  simp

theorem completesOnceWith_frames_iff_short :
    CompletesOnceWith (BleProtocol.new.setBleCallback (some 0))
      (Message.mk [1, 2, 3] (by decide) (by decide)).frames [1, 2, 3] :=
  (completesOnceWith_frames_iff (BleProtocol.new.setBleCallback (some 0)) rfl
    (Message.mk [1, 2, 3] (by decide) (by decide))).mpr (by decide)

/-! ## Loss, duplication and reordering -/

/-- Whatever frames of a message arrive in whatever order, `complete` is only called when the
last frame of a message of up to 127 frames arrives; its bytes are the message in the blocks
which have arrived and the old buffer in the others, so they are the message exactly if the
missing blocks were in the buffer already. -/
theorem deliveries_scrambled (protocol : BleProtocol) (listening : protocol.mBleCallback.isSome)
    (message : Message) (before : List ℕ) (index : ℕ) (later : List ℕ)
    (inRange : ∀ other ∈ before ++ index :: later, other < message.frameCount) :
    (deliveries protocol ((before ++ index :: later).map message.frame))[before.length]? =
        some (if index + 1 = message.frameCount ∧ message.frameCount ≤ 127 then
          [patchwork message protocol.readBuffer (before ++ [index])] else []) ∧
      (patchwork message protocol.readBuffer (before ++ [index]) = message.bytes ↔
        ∀ position < message.bytes.length, position / 16 ∈ before ++ [index] ∨
          protocol.readBuffer.getD position 0 = message.bytes.getD position 0) := by
  refine ⟨?_, patchwork_eq_iff _⟩
  have received : ∀ other ∈ before ++ [index], other < message.frameCount := by
    intro other otherMem
    apply inRange
    rcases List.mem_append.mp otherMem with earlier | last
    · exact List.mem_append_left _ earlier
    · exact List.mem_append_right _ (List.mem_cons.mpr (Or.inl (List.mem_singleton.mp last)))
  have report := completions_after_frames listening received
  rw [List.map_append, List.map_cons, deliveries_append, deliveries_cons, report,
    List.getElem?_append_right (by simp)]
  simp only [length_deliveries, List.length_map, Nat.sub_self, List.getElem?_cons_zero]
  rfl

/-- Every report of a run is the message. -/
def DeliversOnly (protocol : BleProtocol) (message : Message) (indices : List ℕ) : Prop :=
  ∀ report ∈ (deliveries protocol (indices.map message.frame)).flatten, report = message.bytes

def twoFrames : Message where
  bytes := List.replicate 17 1
  nonempty := by simp
  bounded := by simp [MAX_SIZE]

/-- The last frame arrives twice and the first one never. -/
theorem deliveries_scrambled_twoFrames :
    (deliveries (BleProtocol.new.setBleCallback (some 0))
        (([1] ++ 1 :: []).map twoFrames.frame))[1]? =
      some (if 1 + 1 = twoFrames.frameCount ∧ twoFrames.frameCount ≤ 127 then
        [patchwork twoFrames (BleProtocol.new.setBleCallback (some 0)).readBuffer ([1] ++ [1])]
        else []) :=
  (deliveries_scrambled (BleProtocol.new.setBleCallback (some 0)) rfl twoFrames [1] 1 []
    (by decide)).1

/-- Only the second frame of a message arrives and the first block is reported as zeros. -/
theorem twoFrames_lost_first :
    ¬DeliversOnly (BleProtocol.new.setBleCallback (some 0)) twoFrames [1] := by
  intro delivers
  let fresh := BleProtocol.new.setBleCallback (some 0)
  have onlyLast : ∀ other ∈ [] ++ [1], other < twoFrames.frameCount := by decide
  have report := completions_after_frames (show fresh.mBleCallback.isSome from rfl) onlyLast
  have reported : deliveries fresh [twoFrames.frame 1] =
      [[patchwork twoFrames fresh.readBuffer [1]]] := by
    rw [deliveries_cons]
    exact congrArg (fun reports => [reports]) report
  have same : patchwork twoFrames fresh.readBuffer [1] = twoFrames.bytes := by
    apply delivers
    rw [List.map_singleton, reported]
    exact List.mem_singleton_self _
  rcases (patchwork_eq_iff _).mp same 0 (by decide) with arrived | held
  · exact absurd arrived (by decide)
  · exact absurd held (by decide)

end AndroidCollection.Ble
