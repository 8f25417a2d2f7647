import AndroidCollection.Ble.Reassembly

/-!
# What `write` sends

`write` fills a frame buffer for every frame and then hands the whole string to
`sendBytes` instead of that buffer. The arrays which travel are thus copies of
the encoded string, one for each frame it should have had. No such list is a
list of documented frames, and no decoder reassembles the string from it: an
array which completes a message once completes it every time, and a string
sent once is too short to be taken for a frame.
-/

namespace AndroidCollection.Ble

open Java

section SentArrays

variable (bytes : List UInt8) (call : CallbackCall) (milliseconds : ℕ)
  (actions : List WriteAction)

@[simp]
theorem sentArrays_sendBytes :
    sentArrays (.sendBytes bytes :: actions) = bytes :: sentArrays actions :=
  rfl

@[simp]
theorem sentArrays_callback : sentArrays (.callback call :: actions) = sentArrays actions :=
  rfl

@[simp]
theorem sentArrays_sleep : sentArrays (.sleep milliseconds :: actions) = sentArrays actions :=
  rfl

end SentArrays

/-- Every round of the loop sends the whole string. -/
theorem sentArrays_writeFrames {protocol : BleProtocol} {send : Ref}
    (sender : protocol.mIBleSend = some send) (sourceBytes : List UInt8)
    (frames lastFrameDataLength remaining i : ℕ) (buffer : List UInt8) (sendDataSum : ℕ) :
    sentArrays (writeFrames protocol (fun _ => true) sourceBytes frames lastFrameDataLength
        remaining i buffer sendDataSum).actions =
      List.replicate remaining sourceBytes := by
  induction remaining generalizing i buffer sendDataSum with
  | zero => rfl
  | succ remaining ih =>
      simp only [writeFrames, sender, Bool.not_true, Bool.false_and, Bool.false_eq_true, if_false,
        List.replicate_succ, List.cons_append, sentArrays_sendBytes]
      split <;> simp [ih]

theorem sentArrays_writeFrames_of_none {protocol : BleProtocol}
    (noSender : protocol.mIBleSend = none) (accepts : ℕ → Bool) (sourceBytes : List UInt8)
    (frames lastFrameDataLength remaining i : ℕ) (buffer : List UInt8) (sendDataSum : ℕ) :
    sentArrays (writeFrames protocol accepts sourceBytes frames lastFrameDataLength
        remaining i buffer sendDataSum).actions = [] := by
  cases remaining with
  | zero => rfl
  | succ remaining =>
      simp only [writeFrames, noSender]
      rfl

theorem frames_eq (length : ℕ) :
    length / DATA_CAPACITY + (if length % DATA_CAPACITY = 0 then 0 else 1) =
      (length + 15) / DATA_CAPACITY := by
  by_cases whole : length % DATA_CAPACITY = 0
  · rw [if_pos whole]
    simp only [DATA_CAPACITY] at whole ⊢
    omega
  · rw [if_neg whole]
    simp only [DATA_CAPACITY] at whole ⊢
    omega

/-- When every array is accepted, `write` sends the string as often as it has frames. -/
theorem sentArrays_write (protocol : BleProtocol) (text : JString) :
    sentArrays (write protocol (fun _ => true) (some text)).actions =
      List.replicate
        (if text = [] ∨ MAX_SIZE < (utf8Bytes text).length ∨ protocol.mIBleSend = none then 0
          else ((utf8Bytes text).length + 15) / DATA_CAPACITY)
        (utf8Bytes text) := by
  simp only [write]
  by_cases empty : text = []
  · rw [if_pos empty, if_pos (Or.inl empty)]
    rfl
  · rw [if_neg empty]
    by_cases long : MAX_SIZE < (utf8Bytes text).length
    · rw [if_pos long, if_pos (Or.inr (Or.inl long))]
      rfl
    · rw [if_neg long]
      cases sender : protocol.mIBleSend with
      | none =>
          rw [if_pos (Or.inr (Or.inr rfl))]
          split
          · rfl
          · exact sentArrays_writeFrames_of_none sender _ _ _ _ _ _ _ _
      | some send =>
          have positive : 0 < (utf8Bytes text).length := by
            rw [List.length_pos_iff]
            simpa using empty
          simp only [empty, long, reduceCtorEq, or_self, if_false]
          by_cases single : (utf8Bytes text).length ≤ DATA_CAPACITY
          · rw [if_pos single]
            have one : ((utf8Bytes text).length + 15) / DATA_CAPACITY = 1 := by
              simp only [DATA_CAPACITY] at single ⊢
              omega
            rw [one]
            rfl
          · rw [if_neg single, sentArrays_writeFrames sender, frames_eq]

/-! ## The documented format -/

/-- Whatever `write` sends for a non-empty string, it is not a sequence of documented frames
carrying the string. -/
theorem write_not_carries (protocol : BleProtocol) (text : JString)
    (nonempty : 1 ≤ (utf8Bytes text).length) :
    ¬Carries (sentArrays (write protocol (fun _ => true) (some text)).actions)
      (utf8Bytes text) := by
  rw [sentArrays_write]
  exact not_carries_replicate (List.length_pos_iff.mp nonempty) _

theorem write_not_carries_a :
    ¬Carries (sentArrays (write (BleProtocol.new.setIBleSend (some 0)) (fun _ => true)
      (some (ascii ['a']))).actions) (utf8Bytes (ascii ['a'])) :=
  write_not_carries (BleProtocol.new.setIBleSend (some 0)) (ascii ['a']) (by decide)

/-- The two bytes of a short string are sent without a header. -/
theorem write_not_carries_hi :
    ¬Carries (sentArrays (write (BleProtocol.new.setIBleSend (some 0)) (fun _ => true)
      (some (ascii ['h', 'i']))).actions) (utf8Bytes (ascii ['h', 'i'])) := by
  have sent : sentArrays (write (BleProtocol.new.setIBleSend (some 0)) (fun _ => true)
      (some (ascii ['h', 'i']))).actions = [utf8Bytes (ascii ['h', 'i'])] := by decide
  rw [sent]
  exact not_carries_replicate (by decide) 1

/-! ## The round trip -/

/-- The arrays which the sender sends for the string, received in order, complete the string
exactly once and after the last of them. -/
def RoundTrips (sender receiver : BleProtocol) (text : JString) : Prop :=
  CompletesOnceWith receiver
    (sentArrays (write sender (fun _ => true) (some text)).actions) (utf8Bytes text)

theorem not_completesOnceWith_nil (protocol : BleProtocol) (bytes : List UInt8) :
    ¬CompletesOnceWith protocol [] bytes := by
  simp [CompletesOnceWith, deliveries, Machine.outputs]

theorem not_completesOnceWith_singleton (protocol : BleProtocol) {array : List UInt8}
    (notFrame : array.length ≠ FRAME_CAPACITY) (bytes : List UInt8) :
    ¬CompletesOnceWith protocol [array] bytes := by
  have ignored : receive protocol array = (protocol, []) := by
    rw [receive_eq, if_neg]
    rintro ⟨checked, _⟩
    exact notFrame checked.1
  rw [CompletesOnceWith, deliveries_cons, ignored]
  simp [completions, deliveries, Machine.outputs]

/-- A repeated array completes a message either every time or never. -/
theorem not_completesOnceWith_replicate (protocol : BleProtocol) (array bytes : List UInt8)
    (count : ℕ) : ¬CompletesOnceWith protocol (List.replicate (count + 2) array) bytes := by
  intro once
  have split : List.replicate (count + 2) array =
      (array :: List.replicate count array) ++ [array] := by
    rw [List.cons_append, ← List.replicate_succ', ← List.replicate_succ]
  rw [CompletesOnceWith, split, deliveries_append] at once
  have last := List.append_inj_right' once (by simp)
  have earlier := List.append_inj_left' once (by simp)
  have first : completions (receive protocol array).2 = [] := by
    have head := congrArg (fun reports => reports[0]?) earlier
    rw [deliveries_cons] at head
    simpa using head
  have final : completions (receive (Machine.after receive protocol
      (array :: List.replicate count array)) array).2 = [bytes] :=
    List.head_eq_of_cons_eq last
  have never := (completions_receive_eq_nil_congr
    (after_mBleCallback protocol (array :: List.replicate count array)).symm array).mp first
  rw [final] at never
  exact List.cons_ne_nil _ _ never

/-- No string survives the way from `write` to `read`, whatever the two protocol objects have
done before. -/
theorem not_roundTrips (sender receiver : BleProtocol) (text : JString) :
    ¬RoundTrips sender receiver text := by
  rw [RoundTrips, sentArrays_write]
  split
  · exact not_completesOnceWith_nil receiver _
  · match frames : ((utf8Bytes text).length + 15) / DATA_CAPACITY with
    | 0 => exact not_completesOnceWith_nil receiver _
    | 1 =>
        apply not_completesOnceWith_singleton
        simp only [DATA_CAPACITY, FRAME_CAPACITY] at frames ⊢
        omega
    | count + 2 => exact not_completesOnceWith_replicate receiver _ _ count

/-- The two bytes of a short string are not a frame and are ignored. -/
theorem hi_not_received :
    ¬RoundTrips (BleProtocol.new.setIBleSend (some 0)) (BleProtocol.new.setBleCallback (some 0))
      (ascii ['h', 'i']) := by
  have sent : sentArrays (write (BleProtocol.new.setIBleSend (some 0)) (fun _ => true)
      (some (ascii ['h', 'i']))).actions = [[0x68, 0x69]] := by decide
  rw [RoundTrips, sent]
  exact not_completesOnceWith_singleton _ (by decide) _

end AndroidCollection.Ble
