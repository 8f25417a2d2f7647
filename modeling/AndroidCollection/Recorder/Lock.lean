import AndroidCollection.Recorder.Basic

/-!
# The lock of the camera

The permit is taken by `openCamera` and returned by the first report of the
camera, or taken and returned by `closeCamera`. It is accounted for as long as
every camera which is opened reports once, and nothing else returns a permit.
Four things break this: an exception on the way to the camera, which returns no
permit; the loss of a camera which has reported before, and an interrupt while
waiting in `closeCamera`, which return one too many; and waiting in
`closeCamera` on the thread on which the camera is to report.
-/

namespace AndroidCollection.Recorder

open Java Android

namespace OpenOutcome

/-- The camera which will report to the callback, if any. -/
def report : OpenOutcome → Option Ref
  | .noCharacteristics _ => none
  | .noSizes _ _ => none
  | .noTransform _ _ _ => none
  | .refused _ _ _ report => report
  | .opens _ _ device => some device

end OpenOutcome

/-! ## What the steps do to the permits -/

theorem openAcquired_permits (self : RecorderImpl) (outcome : OpenOutcome) :
    (self.openAcquired outcome).1.permits = self.permits ∧
      (self.openAcquired outcome).2.2 = outcome.report := by
  cases outcome <;> exact ⟨rfl, rfl⟩

/-- Setting up a recording does not touch the permits. -/
theorem setUpMediaRecorder_permits (self : RecorderImpl) (path : JString) (rotation : ℕ)
    (prepares : Bool) :
    (self.setUpMediaRecorder path rotation prepares).1.permits = self.permits := by
  simp only [RecorderImpl.setUpMediaRecorder]
  split
  · rfl
  · split <;> rfl

theorem startRecordingVideo_permits (self : RecorderImpl) (path : JString) (rotation : ℕ)
    (outcome : RecorderImpl.StartOutcome) :
    (self.startRecordingVideo path rotation outcome).1.permits = self.permits := by
  simp only [RecorderImpl.startRecordingVideo]
  split <;> exact setUpMediaRecorder_permits self path rotation _

/-! ## The condition and the property -/

/-- A step which keeps the account of the permit. -/
def LockSafe (world : World) : Input → Prop
  | .openCamera outcome => world.uiBusy ∨ world.permits = 0 ∨ outcome.report ≠ none
  | .onDisconnected device => world.uiBusy ∨ device ∈ world.opening ∨ device ∉ world.opened
  | .onError device => world.uiBusy ∨ device ∈ world.opening ∨ device ∉ world.opened
  | .closeCamera caller => caller = .ui → world.opening = []
  | .interrupted caller => caller ∉ world.waiting
  | _ => True

/-- The steps which are bound to happen: a camera which is opening reports when its thread is
free, and a `closeCamera` which holds the lock comes to its end. -/
def Owed (world : World) : Input → Prop
  | .onOpened device => ¬world.uiBusy ∧ device ∈ world.opening
  | .onDisconnected device => ¬world.uiBusy ∧ device ∈ world.opening
  | .onError device => ¬world.uiBusy ∧ device ∈ world.opening
  | .closed caller => caller ∈ world.closing
  | _ => False

structure LockSound (world : World) : Prop where
  binary : world.permits = 0 ∨ world.permits = 1
  free : world.opening = [] → world.closing = [] → world.permits = 1
  exclusive : world.opening.length + world.closing.length ≤ 1
  progress : world.permits = 0 → (∃ input, Owed world input) ∧
    ∀ input, Owed world input → 0 < (react world input).1.permits

/-! ## The account -/

/-- Whoever is opening or closing holds the only permit, and the thread on which cameras report
does not wait for a camera. -/
structure Balanced (world : World) : Prop where
  account : world.permits + world.opening.length + world.closing.length = 1
  unobstructed : .ui ∈ world.waiting → world.opening = []

theorem balanced_initial : Balanced initial :=
  ⟨rfl, fun waiting => by simp [initial] at waiting⟩

theorem permits_of_owed {world : World} {input : Input} (owed : Owed world input) :
    0 < (react world input).1.permits := by
  cases input with
  | onOpened device =>
      simp only [react, if_pos (show ¬world.uiBusy ∧ device ∈ world.opening from owed)]
      exact Nat.succ_pos _
  | onDisconnected device =>
      simp only [react, World.lose, if_neg owed.1, if_pos owed.2]
      exact Nat.succ_pos _
  | onError device =>
      simp only [react, World.lose, if_neg owed.1, if_pos owed.2]
      exact Nat.succ_pos _
  | closed caller =>
      simp only [react, if_pos (show caller ∈ world.closing from owed)]
      exact Nat.succ_pos _
  | _ => exact owed.elim

theorem lockSound_of_balanced {world : World} (balanced : Balanced world) : LockSound world := by
  rcases balanced with ⟨account, unobstructed⟩
  refine ⟨by omega, ?_, by omega, ?_⟩
  · intro noOpening noClosing
    simpa [noOpening, noClosing] using account
  · intro taken
    refine ⟨?_, fun input owed => permits_of_owed owed⟩
    cases closing : world.closing with
    | cons caller others => exact ⟨.closed caller, by simp [Owed, closing]⟩
    | nil =>
        cases opening : world.opening with
        | nil => simp [taken, opening, closing] at account
        | cons device others =>
            refine ⟨.onOpened device, ?_, by simp [opening]⟩
            rintro (waiting | inside)
            · simp [unobstructed waiting] at opening
            · simp [closing] at inside

theorem balanced_lose {world : World} {device : Ref} (balanced : Balanced world)
    (safe : world.uiBusy ∨ device ∈ world.opening ∨ device ∉ world.opened) :
    Balanced (world.lose device) := by
  unfold World.lose
  split
  · exact balanced
  · next free =>
      split
      · next opening =>
          have length := List.length_erase_of_mem opening
          have positive := List.length_pos_of_mem opening
          rcases balanced with ⟨account, unobstructed⟩
          refine ⟨?_, ?_⟩
          · change world.permits + 1 + (world.opening.erase device).length +
              world.closing.length = 1
            omega
          · intro waiting
            exact absurd (Or.inl waiting) free
      · next notOpening =>
          rcases safe with busy | opening | notOpened
          · exact absurd busy free
          · exact absurd opening notOpening
          · rw [if_neg notOpened]
            exact balanced

/-- The account does not depend on the fields of a recording. -/
theorem balanced_of_unchanged {world next : World} (balanced : Balanced world)
    (permits : next.permits = world.permits) (opening : next.opening = world.opening)
    (waiting : next.waiting = world.waiting) (closing : next.closing = world.closing) :
    Balanced next := by
  refine ⟨?_, ?_⟩
  · rw [permits, opening, closing]
    exact balanced.account
  · rw [waiting, opening]
    exact balanced.unobstructed

/-- The permit goes from the lock to the camera which will report. -/
theorem balanced_openCamera {world : World} {outcome : OpenOutcome} (balanced : Balanced world)
    (safe : LockSafe world (.openCamera outcome)) :
    Balanced (react world (.openCamera outcome)).1 := by
  simp only [react]
  split
  · exact balanced
  · next free =>
      by_cases taken : world.permits = 0
      · simp only [RecorderImpl.openCamera, if_pos taken]
        exact balanced_of_unchanged balanced rfl (by simp) rfl rfl
      · rcases Option.ne_none_iff_exists'.mp ((safe.resolve_left free).resolve_left taken) with
          ⟨device, reports⟩
        rcases openAcquired_permits { world.toRecorderImpl with permits := world.permits - 1 }
          outcome with ⟨permits, report⟩
        have account := balanced.account
        simp only [RecorderImpl.openCamera, if_neg taken]
        refine ⟨?_, fun waiting => absurd (Or.inl waiting) free⟩
        simp only [permits, report, reports, Option.toList_some, List.length_append,
          List.length_singleton]
        omega

/-- The permit goes from the camera back to the lock. -/
theorem balanced_onOpened {world : World} (device : Ref) (balanced : Balanced world) :
    Balanced (react world (.onOpened device)).1 := by
  simp only [react]
  split
  · next enabled =>
      have length := List.length_erase_of_mem enabled.2
      have positive := List.length_pos_of_mem enabled.2
      have account := balanced.account
      refine ⟨?_, fun waiting => absurd (Or.inl waiting) enabled.1⟩
      simp only [RecorderImpl.onOpened]
      omega
  · exact balanced

/-- The permit goes from the lock to a caller of `closeCamera`. -/
theorem balanced_acquired {world : World} (caller : Caller) (balanced : Balanced world) :
    Balanced (react world (.acquired caller)).1 := by
  simp only [react]
  split
  · have account := balanced.account
    refine ⟨?_, fun waiting => balanced.unobstructed (List.mem_of_mem_erase waiting)⟩
    simp only [List.length_cons]
    omega
  · exact balanced

/-- The permit goes from the caller back to the lock. -/
theorem balanced_closed {world : World} (caller : Caller) (balanced : Balanced world) :
    Balanced (react world (.closed caller)).1 := by
  simp only [react]
  split
  · next inside =>
      have length := List.length_erase_of_mem inside
      have positive := List.length_pos_of_mem inside
      have account := balanced.account
      refine ⟨?_, balanced.unobstructed⟩
      simp only [length]
      omega
  · exact balanced

/-- Each safe step keeps the account. -/
theorem balanced_react {world : World} {input : Input} (balanced : Balanced world)
    (safe : LockSafe world input) : Balanced (react world input).1 := by
  cases input with
  | openCamera outcome => exact balanced_openCamera balanced safe
  | onOpened device => exact balanced_onOpened device balanced
  | onDisconnected device => exact balanced_lose balanced safe
  | onError device => exact balanced_lose balanced safe
  | closeCamera caller =>
      simp only [react]
      split
      · exact balanced
      · refine ⟨balanced.account, ?_⟩
        intro waiting
        rcases List.mem_cons.mp waiting with self | earlier
        · exact safe self.symm
        · exact balanced.unobstructed earlier
  | acquired caller => exact balanced_acquired caller balanced
  | interrupted caller =>
      simp only [react, if_neg (show caller ∉ world.waiting from safe)]
      exact balanced
  | closed caller => exact balanced_closed caller balanced
  | startRecord path available rotation outcome =>
      simp only [react]
      split
      · exact balanced_of_unchanged balanced (startRecordingVideo_permits _ _ _ _) rfl rfl rfl
      · exact balanced
  | setRecordCallback callback => exact balanced_of_unchanged balanced rfl rfl rfl rfl
  | _ =>
      simp only [react]
      split
      · exact balanced_of_unchanged balanced rfl rfl rfl rfl
      · exact balanced

/-- In every run of safe steps, the lock is sound in every state which is reached. -/
theorem lockSound_after {inputs : List Input}
    (safe : Machine.Every react LockSafe initial inputs) :
    LockSound (Machine.after react initial inputs) := by
  apply lockSound_of_balanced
  exact safe.invariant_after Balanced (fun _ _ balanced step => balanced_react balanced step)
    balanced_initial

theorem lockSound_after_session :
    LockSound (Machine.after react initial
      [.openCamera (.opens (some 90) (640, 480) 1), .onOpened 1, .closeCamera .ui, .acquired .ui,
        .closed .ui]) := by
  apply lockSound_after
  simp only [Machine.every_cons, Machine.every_nil, and_true]
  exact ⟨Or.inr (Or.inr (Option.some_ne_none 1)), trivial, fun _ => rfl, trivial, trivial⟩

/-- `openCamera` fails with a `CameraAccessException` and leaves no permit behind. -/
theorem not_lockSound_after_failed_open :
    ¬LockSound (Machine.after react initial
      [.openCamera (.noCharacteristics .cameraAccessException)]) := by
  intro sound
  have permit : 0 = 1 := sound.free rfl rfl
  omega

end AndroidCollection.Recorder
