import AndroidCollection.Ble.Wiring

/-!
# Refused frames

`sendBytes` may refuse what it gets, which is to end the sending, to be reported
and to be seen in the result of `write`. `write` ends the sending only together
with the report, so that it goes on when nobody listens, and it returns `true`
for every string which it has begun to send. What it hands over is not a frame in
any case.
-/

namespace AndroidCollection.Ble

open Java
open Wiring (Sendable write_of_sender write_of_not_sendable)

/-- The documented frames of a string, none if it is empty or too long. -/
def documentedFrames (text : JString) : List (List UInt8) :=
  if sendable : 0 < (utf8Bytes text).length ∧ (utf8Bytes text).length ≤ MAX_SIZE then
    Message.frames ⟨utf8Bytes text, sendable.1, sendable.2⟩
  else []

/-- The frames up to the first one which is refused, and with it. -/
def untilRefused (accepts : ℕ → Bool) : ℕ → List (List UInt8) → List (List UInt8)
  | _, [] => []
  | index, frame :: frames =>
      frame :: if accepts index then untilRefused accepts (index + 1) frames else []

/-- The codes of the errors which the callback gets. -/
def reportedErrors (actions : List WriteAction) : List ℤ :=
  actions.filterMap fun
    | .callback (.error _ code) => some code
    | _ => none

def AllAccepted (accepts : ℕ → Bool) (text : JString) : Prop :=
  ∀ index < (documentedFrames text).length, accepts index = true

instance (accepts : ℕ → Bool) (text : JString) : Decidable (AllAccepted accepts text) :=
  inferInstanceAs (Decidable (∀ index < _, _))

/-- A refusal ends the sending, it is reported once if there is a callback, and the result says
whether everything has been sent; what the arrays hold is left open. -/
structure RefusalsHandled (protocol : BleProtocol) (accepts : ℕ → Bool) (text : JString) :
    Prop where
  stops : (sentArrays (write protocol accepts (some text)).actions).length =
    (untilRefused accepts 0 (documentedFrames text)).length
  reports : (reportedErrors (write protocol accepts (some text)).actions).length =
    if protocol.mBleCallback.isSome ∧ ¬AllAccepted accepts text then 1 else 0
  returns : (write protocol accepts (some text)).result =
    .ok (decide (documentedFrames text ≠ [] ∧ AllAccepted accepts text))

/-- Refusals are handled, and the arrays are the frames. -/
structure WriteCorrect (protocol : BleProtocol) (accepts : ℕ → Bool) (text : JString) : Prop
    extends RefusalsHandled protocol accepts text where
  inOrder : sentArrays (write protocol accepts (some text)).actions =
    untilRefused accepts 0 (documentedFrames text)

theorem sendable_iff (text : JString) :
    Sendable (some text) ↔
      0 < (utf8Bytes text).length ∧ (utf8Bytes text).length ≤ MAX_SIZE := by
  simp [Sendable, List.length_pos_iff]

theorem length_documentedFrames {text : JString} (sendable : Sendable (some text)) :
    (documentedFrames text).length = ((utf8Bytes text).length + 15) / DATA_CAPACITY := by
  rw [documentedFrames, dif_pos ((sendable_iff text).mp sendable)]
  simp [Message.frames, Message.frameCount]

theorem documentedFrames_of_not_sendable {text : JString} (silent : ¬Sendable (some text)) :
    documentedFrames text = [] :=
  dif_neg fun sendable => silent ((sendable_iff text).mpr sendable)

theorem length_documentedFrames_pos {text : JString} (sendable : Sendable (some text)) :
    0 < (documentedFrames text).length := by
  have nonempty := ((sendable_iff text).mp sendable).1
  rw [length_documentedFrames sendable, DATA_CAPACITY]
  omega

/-- The frames carry the string. -/
theorem carries_documentedFrames {text : JString} (sendable : Sendable (some text)) :
    Carries (documentedFrames text) (utf8Bytes text) := by
  rw [documentedFrames, dif_pos ((sendable_iff text).mp sendable)]
  exact Message.carries_frames _

theorem untilRefused_of_accepted {accepts : ℕ → Bool} {index : ℕ} {frames : List (List UInt8)}
    (accepted : ∀ other, index ≤ other → other < index + frames.length → accepts other = true) :
    untilRefused accepts index frames = frames := by
  induction frames generalizing index with
  | nil => rfl
  | cons frame frames ih =>
      rw [untilRefused, if_pos (accepted index le_rfl (by simp)), ih]
      intro other lower upper
      exact accepted other (by omega) (by simp only [List.length_cons]; omega)

/-! ## What `write` does -/

section Write

variable {protocol : BleProtocol}

/-- The results of `sendBytes` are used frame by frame. -/
theorem writeFrames_congr {first second : ℕ → Bool} {remaining i : ℕ}
    (agree : ∀ index, i ≤ index → index < i + remaining → first index = second index)
    (sourceBytes : List UInt8) (frames lastFrameDataLength : ℕ) (buffer : List UInt8)
    (sendDataSum : ℕ) :
    writeFrames protocol first sourceBytes frames lastFrameDataLength remaining i buffer
        sendDataSum =
      writeFrames protocol second sourceBytes frames lastFrameDataLength remaining i buffer
        sendDataSum := by
  induction remaining generalizing i buffer sendDataSum with
  | zero => rfl
  | succ remaining ih =>
      have here := agree i le_rfl (by omega)
      have later : ∀ index, i + 1 ≤ index → index < i + 1 + remaining →
          first index = second index :=
        fun index lower upper => agree index (by omega) (by omega)
      simp only [writeFrames, here, ih later]

theorem write_congr {accepts : ℕ → Bool} {text : JString} (accepted : AllAccepted accepts text) :
    write protocol accepts (some text) = write protocol (fun _ => true) (some text) := by
  by_cases sendable : Sendable (some text)
  · have count := length_documentedFrames sendable
    have first : accepts 0 = true := accepted 0 (length_documentedFrames_pos sendable)
    simp only [write, first]
    rw [writeFrames_congr]
    intro index _ upper
    apply accepted
    rw [count, ← frames_eq]
    omega
  · rw [write_of_not_sendable sendable, write_of_not_sendable sendable]

theorem reportedErrors_writeFrames {send : Ref} (wired : protocol.mIBleSend = some send)
    (sourceBytes : List UInt8) (frames lastFrameDataLength remaining i : ℕ) (buffer : List UInt8)
    (sendDataSum : ℕ) :
    reportedErrors (writeFrames protocol (fun _ => true) sourceBytes frames lastFrameDataLength
        remaining i buffer sendDataSum).actions = [] := by
  induction remaining generalizing i buffer sendDataSum with
  | zero => rfl
  | succ remaining ih =>
      simp only [writeFrames, wired, Bool.not_true, Bool.false_and, Bool.false_eq_true, if_false]
      split <;> simpa [reportedErrors] using ih _ _ _

theorem reportedErrors_write {send : Ref} (wired : protocol.mIBleSend = some send)
    (text : JString) :
    reportedErrors (write protocol (fun _ => true) (some text)).actions = [] := by
  simp only [write, wired, Bool.not_true, Bool.false_and, Bool.false_eq_true, if_false]
  split
  · rfl
  · split
    · rfl
    · split
      · rfl
      · exact reportedErrors_writeFrames wired _ _ _ _ _ _ _

end Write

theorem sentArrays_write_of_accepted {protocol : BleProtocol} {send : Ref}
    (wired : protocol.mIBleSend = some send) {accepts : ℕ → Bool} {text : JString}
    (sendable : Sendable (some text)) (accepted : AllAccepted accepts text) :
    sentArrays (write protocol accepts (some text)).actions =
      List.replicate (documentedFrames text).length (utf8Bytes text) := by
  have bounds := (sendable_iff text).mp sendable
  have some' : text ≠ [] := by
    rintro rfl
    cases bounds.1
  rw [write_congr accepted, sentArrays_write, length_documentedFrames sendable, if_neg]
  simp [some', wired, bounds.2]

/-! ## When refusals are handled -/

section Handled

variable {protocol : BleProtocol} {accepts : ℕ → Bool} {text : JString}

theorem refusalsHandled_of_not_sendable (silent : ¬Sendable (some text)) :
    RefusalsHandled protocol accepts text := by
  have nothing := write_of_not_sendable silent protocol accepts
  have none' := documentedFrames_of_not_sendable silent
  have accepted : AllAccepted accepts text := by
    intro index inside
    rw [none'] at inside
    cases inside
  refine ⟨?_, ?_, ?_⟩
  · rw [nothing, none']
    rfl
  · rw [nothing, if_neg fun refused => refused.2 accepted]
    rfl
  · rw [nothing]
    simp [none']

theorem refusalsHandled_of_accepted {send : Ref} (wired : protocol.mIBleSend = some send)
    (sendable : Sendable (some text)) (accepted : AllAccepted accepts text) :
    RefusalsHandled protocol accepts text := by
  have some' := List.ne_nil_of_length_pos (length_documentedFrames_pos sendable)
  refine ⟨?_, ?_, ?_⟩
  · rw [sentArrays_write_of_accepted wired sendable accepted, List.length_replicate,
      untilRefused_of_accepted]
    intro other _ inside
    exact accepted other (by simpa using inside)
  · rw [write_congr accepted, reportedErrors_write wired, if_neg fun refused => refused.2 accepted]
    rfl
  · rw [(write_of_sender sendable wired accepts).1]
    simp [some', accepted]

/-- The result does not tell of a refusal. -/
theorem accepted_of_returns {send : Ref} (wired : protocol.mIBleSend = some send)
    (sendable : Sendable (some text)) (handled : RefusalsHandled protocol accepts text) :
    AllAccepted accepts text := by
  have result := handled.returns
  rw [(write_of_sender sendable wired accepts).1, Except.ok.injEq, eq_comm,
    decide_eq_true_eq] at result
  exact result.2

theorem not_writeCorrect {send : Ref} (wired : protocol.mIBleSend = some send)
    (sendable : Sendable (some text)) : ¬WriteCorrect protocol accepts text := by
  intro correct
  have accepted := accepted_of_returns wired sendable correct.toRefusalsHandled
  have bytes := ((sendable_iff text).mp sendable).1
  have order := correct.inOrder
  rw [sentArrays_write_of_accepted wired sendable accepted, untilRefused_of_accepted] at order
  · apply not_carries_replicate (List.ne_nil_of_length_pos bytes) (documentedFrames text).length
    rw [order]
    exact carries_documentedFrames sendable
  · intro other _ inside
    exact accepted other (by simpa using inside)

end Handled

/-- With a sender, `write` does all that it is to do for the strings which it does not send, and
only for them. Apart from what the arrays hold it also does so when everything is accepted. -/
theorem writeCorrect_iff (protocol : BleProtocol) (send : Ref) (accepts : ℕ → Bool)
    (text : JString) :
    (WriteCorrect (protocol.setIBleSend (some send)) accepts text ↔
      text = [] ∨ MAX_SIZE < (utf8Bytes text).length) ∧
      (RefusalsHandled (protocol.setIBleSend (some send)) accepts text ↔
        text = [] ∨ MAX_SIZE < (utf8Bytes text).length ∨ AllAccepted accepts text) := by
  have wired : (protocol.setIBleSend (some send)).mIBleSend = some send := rfl
  have unsent : text = [] ∨ MAX_SIZE < (utf8Bytes text).length ↔ ¬Sendable (some text) := by
    simp only [Sendable, Option.some.injEq, exists_eq_left', not_and_or, not_not, not_le]
  rw [← or_assoc, unsent]
  by_cases sendable : Sendable (some text)
  · simp only [sendable, not_true_eq_false, false_or]
    refine ⟨iff_of_false (not_writeCorrect wired sendable) not_false, ?_⟩
    exact ⟨accepted_of_returns wired sendable, refusalsHandled_of_accepted wired sendable⟩
  · have handled : RefusalsHandled (protocol.setIBleSend (some send)) accepts text :=
      refusalsHandled_of_not_sendable sendable
    refine ⟨iff_of_true ⟨handled, ?_⟩ sendable, iff_of_true handled (Or.inl sendable)⟩
    rw [write_of_not_sendable sendable, documentedFrames_of_not_sendable sendable]
    rfl

/-- The only frame of a string is refused, and nobody listens. -/
theorem refused_letter_not_correct :
    ¬∀ (protocol : BleProtocol) (send : Ref) (accepts : ℕ → Bool) (text : JString),
      WriteCorrect (protocol.setIBleSend (some send)) accepts text := by
  intro always
  have returns := (always .new 0 (fun _ => false) (ascii ['a'])).returns
  revert returns
  decide

end AndroidCollection.Ble
