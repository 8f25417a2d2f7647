import AndroidCollection.Recorder.Status

/-!
# The path of a recording

`mNextVideoAbsolutePath` takes the path of a call of `startRecord` only when it is
empty, and it is emptied only when a recording is stopped. A call which fails after
it has set the field leaves its path behind. The next call on a new recorder then
writes to this path and not to its own.

An observer keeps the path of the latest call which prepared a recorder, and from
the start of a recording to its end the path which that call asked for. A recorder
can be started only after it has been prepared, so this call led to the recording.
-/

namespace AndroidCollection.Recorder

open Java Android

/-- The calls of `startRecord` behind a recording. -/
structure Credit where
  /-- The path of the latest call which prepared a recorder. -/
  requested : Option JString := none
  /-- The path of the call which led to the recording that has been started and not stopped. -/
  recording : Option JString := none

/-- The call passes the guards and sets a recorder up to its end. -/
def Prepares (world : World) (path : Option JString) (available : Bool)
    (outcome : RecorderImpl.StartOutcome) : Prop :=
  world.Starts path available ∧ Fresh world.toRecorderImpl ∧
    world.mSensorOrientation ≠ none ∧ outcome ≠ .prepareFails

/-- The posted step starts a recording. -/
def Begins (world : World) (succeeds : Bool) : Prop :=
  ¬world.uiBusy ∧ 0 < world.posted ∧ world.recorderState = some .prepared ∧ succeeds = true

instance (self : RecorderImpl) : Decidable (Fresh self) :=
  inferInstanceAs (Decidable (_ ∨ _))

instance (world : World) (path : Option JString) (available : Bool)
    (outcome : RecorderImpl.StartOutcome) : Decidable (Prepares world path available outcome) :=
  inferInstanceAs (Decidable (_ ∧ _))

instance (world : World) (succeeds : Bool) : Decidable (Begins world succeeds) :=
  inferInstanceAs (Decidable (_ ∧ _))

def credit (before : Credit) (world : World) (input : Input) (_ : List Effect) : Credit :=
  match input with
  | .startRecord path available _ outcome =>
      if Prepares world path available outcome then { before with requested := path } else before
  | .runPosted succeeds =>
      if Begins world succeeds then { before with recording := before.requested } else before
  | .stopRecord _ =>
      if world.mIsRecordingVideo then { before with recording := none } else before
  | _ => before

/-- The recorder with the observer beside it. -/
abbrev credited :=
  Machine.observed react credit

/-- In this step a recorder which records writes to the path which was asked for, and `onStop` is
given that path at the end of a recording. -/
structure PathSound (world : World × Credit) (input : Input) : Prop where
  file : ∀ recorder, (credited world input).1.1.mMediaRecorder = some recorder →
    recorder.state = .recording → ∃ path, recorder.outputFile = some path ∧
      (credited world input).1.2.recording = some path
  stop : ∀ path asked, .onStop path ∈ (credited world input).2 →
    world.2.recording = some asked → path = some asked

/-- A call which sets a recorder up finds no path from before, or its own. -/
def PathSafe (world : World × Credit) : Input → Prop
  | .startRecord path available _ outcome =>
      Prepares world.1 path available outcome → ∀ earlier,
        world.1.mNextVideoAbsolutePath = some earlier → earlier = [] ∨ some earlier = path
  | _ => True

/-! ## Setting up and starting -/

/-- The first call on any other recorder throws. -/
theorem setUpMediaRecorder_eq_self {self : RecorderImpl} (stale : ¬Fresh self) (path : JString)
    (rotation : ℕ) (prepares : Bool) :
    (self.setUpMediaRecorder path rotation prepares).1 = self ∧
      (self.setUpMediaRecorder path rotation prepares).2.2 = false := by
  rcases self with ⟨permits, device, size, sensor, recorder, flag, next, callback⟩
  cases recorder with
  | none => exact ⟨rfl, rfl⟩
  | some recorder =>
      rcases recorder with ⟨state, file⟩
      cases state with
      | initial => exact absurd (Or.inl rfl) stale
      | initialized => exact absurd (Or.inr rfl) stale
      | dataSourceConfigured => exact ⟨rfl, rfl⟩
      | prepared => exact ⟨rfl, rfl⟩
      | recording => exact ⟨rfl, rfl⟩
      | error => exact ⟨rfl, rfl⟩
      | released => exact ⟨rfl, rfl⟩

/-- After setting up, a start asks a prepared recorder for its surface and changes nothing. -/
theorem startRecordingVideo_eq (self : RecorderImpl) (path : JString) (rotation : ℕ)
    (outcome : RecorderImpl.StartOutcome) :
    (self.startRecordingVideo path rotation outcome).1 =
      (self.setUpMediaRecorder path rotation (outcome ≠ .prepareFails)).1 := by
  simp only [RecorderImpl.startRecordingVideo]
  split
  · rfl
  · next proceeds =>
      simp only [Bool.or_eq_true, not_or, Bool.not_eq_true, Bool.not_eq_false'] at proceeds
      by_cases fresh : Fresh self
      · rcases setUpMediaRecorder_eq fresh path rotation (outcome ≠ .prepareFails) with
          ⟨setUp, completed, -⟩
        rcases completed.mp proceeds.1 with ⟨known, prepares⟩
        rw [if_neg known, if_pos prepares] at setUp
        rw [setUp, CallProtocol.invokeAll_single rfl]
        rfl
      · rw [(setUpMediaRecorder_eq_self fresh path rotation _).2] at proceeds
        cases proceeds.1

/-! ## The invariant -/

/-- A recorder which is prepared or records writes to the path which was asked for, and the field
keeps that path until the recording is stopped. -/
structure Follows (world : World × Credit) : Prop where
  ready : ∀ recorder, world.1.mMediaRecorder = some recorder → recorder.state = .prepared →
    ∃ path, path ≠ [] ∧ recorder.outputFile = some path ∧ world.2.requested = some path ∧
      world.1.mNextVideoAbsolutePath = some path
  running : ∀ recorder, world.1.mMediaRecorder = some recorder → recorder.state = .recording →
    ∃ path, recorder.outputFile = some path ∧ world.2.recording = some path
  ending : ∀ path, world.2.recording = some path →
    world.1.mIsRecordingVideo = true ∧ path ≠ [] ∧ world.1.mNextVideoAbsolutePath = some path

theorem follows_initial : Follows (initial, {}) := by
  constructor
  · intro recorder current
    cases current
  · intro recorder current
    cases current
  · intro path recording
    cases recording

/-- A step which leaves the recorder, the path and the credit alone, and does not lower the
flag. -/
theorem Follows.of_same {world later : World} {before : Credit} (follows : Follows (world, before))
    (recorder : later.mMediaRecorder = world.mMediaRecorder)
    (flag : world.mIsRecordingVideo = true → later.mIsRecordingVideo = true)
    (next : later.mNextVideoAbsolutePath = world.mNextVideoAbsolutePath) :
    Follows (later, before) := by
  constructor
  · simpa only [recorder, next] using follows.ready
  · simpa only [recorder] using follows.running
  · intro path recording
    rcases follows.ending path recording with ⟨raised, nonempty, kept⟩
    exact ⟨flag raised, nonempty, next.trans kept⟩

/-- A recorder in another state, or none, instead. -/
theorem Follows.of_replaced {world later : World} {before : Credit}
    (follows : Follows (world, before))
    (idle : ∀ recorder, later.mMediaRecorder = some recorder →
      recorder.state ≠ .prepared ∧ recorder.state ≠ .recording)
    (flag : world.mIsRecordingVideo = true → later.mIsRecordingVideo = true)
    (next : later.mNextVideoAbsolutePath = world.mNextVideoAbsolutePath) :
    Follows (later, before) := by
  constructor
  · intro recorder current prepared
    exact absurd prepared (idle recorder current).1
  · intro recorder current records
    exact absurd records (idle recorder current).2
  · intro path recording
    rcases follows.ending path recording with ⟨raised, nonempty, kept⟩
    exact ⟨flag raised, nonempty, next.trans kept⟩

/-! ## One step -/

theorem openCamera_fields (self : RecorderImpl) (outcome : OpenOutcome) :
    ((self.openCamera outcome).1.mMediaRecorder = self.mMediaRecorder ∨
        (self.openCamera outcome).1.mMediaRecorder = some MediaRecorder.create) ∧
      (self.openCamera outcome).1.mIsRecordingVideo = self.mIsRecordingVideo ∧
      (self.openCamera outcome).1.mNextVideoAbsolutePath = self.mNextVideoAbsolutePath := by
  rw [RecorderImpl.openCamera]
  split
  · exact ⟨Or.inl rfl, rfl, rfl⟩
  · cases outcome with
    | noCharacteristics exception => exact ⟨Or.inl rfl, rfl, rfl⟩
    | noSizes exception orientation => exact ⟨Or.inl rfl, rfl, rfl⟩
    | noTransform exception orientation previewSize => exact ⟨Or.inl rfl, rfl, rfl⟩
    | refused exception orientation previewSize report => exact ⟨Or.inr rfl, rfl, rfl⟩
    | opens orientation previewSize device => exact ⟨Or.inr rfl, rfl, rfl⟩

theorem follows_openCamera {world : World} {before : Credit} (follows : Follows (world, before))
    (outcome : OpenOutcome) : Follows ((react world (.openCamera outcome)).1, before) := by
  rw [react]
  split
  · exact follows
  · rcases openCamera_fields world.toRecorderImpl outcome with ⟨same | made, flag, next⟩
    · exact follows.of_same same flag.trans next
    · refine follows.of_replaced ?_ flag.trans next
      intro recorder current
      rcases Option.some.inj (made.symm.trans current) with rfl
      exact ⟨by decide, by decide⟩

theorem follows_closed {world : World} {before : Credit} (follows : Follows (world, before))
    (caller : Caller) : Follows ((react world (.closed caller)).1, before) := by
  rw [react]
  split
  · rcases reference : world.mMediaRecorder with _ | recorder
    · refine follows.of_same ?_ ?_ ?_ <;> simp [RecorderImpl.closeHeld, reference]
    · refine follows.of_replaced ?_ ?_ ?_ <;> simp [RecorderImpl.closeHeld, reference]
  · exact follows

theorem Follows.not_recording {world : World} {before : Credit} (follows : Follows (world, before))
    (lowered : world.mIsRecordingVideo = false) (path : JString) :
    before.recording ≠ some path := by
  intro recording
  have raised := (follows.ending path recording).1
  rw [lowered] at raised
  cases raised

/-- A path from before which is empty or the same does not win. -/
theorem nextPath_eq {self : RecorderImpl} {path : JString}
    (safe : ∀ earlier, self.mNextVideoAbsolutePath = some earlier →
      earlier = [] ∨ some earlier = some path) : self.nextPath path = path := by
  rw [RecorderImpl.nextPath]
  cases left : self.mNextVideoAbsolutePath with
  | none => rfl
  | some earlier =>
      dsimp only
      split
      · rfl
      · next nonempty => exact Option.some.inj ((safe earlier left).resolve_left nonempty)

/-- A start on a fresh recorder: it is prepared with the path which is asked for, or it is left in
a state from which it cannot be started. -/
theorem follows_setUp {world later : World} {before : Credit} (follows : Follows (world, before))
    {path : JString} {available : Bool} {rotation : ℕ} {outcome : RecorderImpl.StartOutcome}
    (starts : world.Starts (some path) available) (fresh : Fresh world.toRecorderImpl)
    (safe : PathSafe (world, before) (.startRecord (some path) available rotation outcome))
    (step : later.toRecorderImpl =
      (world.setUpMediaRecorder path rotation (outcome ≠ .prepareFails)).1) :
    Follows (later, if Prepares world (some path) available outcome
      then { before with requested := some path } else before) := by
  have idle := follows.not_recording starts.1
  have setUp := step.trans (setUpMediaRecorder_eq fresh path rotation _).1
  have recorder := congrArg RecorderImpl.mMediaRecorder setUp
  have next := congrArg RecorderImpl.mNextVideoAbsolutePath setUp
  dsimp only at recorder next
  split_ifs with prepares
  · rcases prepares with ⟨-, -, known, succeeds⟩
    rw [nextPath_eq (safe ⟨starts, fresh, known, succeeds⟩)] at recorder next
    rw [if_neg known, if_pos (by simpa using succeeds)] at recorder
    constructor
    · intro current reference _
      rcases Option.some.inj (recorder.symm.trans reference) with rfl
      exact ⟨path, starts.2.2.2.2, rfl, rfl, next⟩
    · intro current reference records
      rcases Option.some.inj (recorder.symm.trans reference) with rfl
      cases records
    · intro asked recording
      exact absurd recording (idle asked)
  · have unprepared : ∀ current : MediaRecorder, later.mMediaRecorder = some current →
        current.state ≠ .prepared ∧ current.state ≠ .recording := by
      intro current reference
      rcases Option.some.inj (recorder.symm.trans reference) with rfl
      dsimp only
      split_ifs with unknown succeeds
      · exact ⟨by decide, by decide⟩
      · exact absurd ⟨starts, fresh, unknown, by simpa using succeeds⟩ prepares
      · exact ⟨by decide, by decide⟩
    constructor
    · intro current reference prepared
      exact absurd prepared (unprepared current reference).1
    · intro current reference records
      exact absurd records (unprepared current reference).2
    · intro asked recording
      exact absurd recording (idle asked)

theorem follows_startRecord {world : World} {before : Credit} (follows : Follows (world, before))
    {path : Option JString} {available : Bool} {rotation : ℕ}
    {outcome : RecorderImpl.StartOutcome}
    (safe : PathSafe (world, before) (.startRecord path available rotation outcome)) :
    Follows (credited (world, before) (.startRecord path available rotation outcome)).1 := by
  simp only [Machine.observed, credit]
  by_cases starts : world.Starts path available
  · have step : (react world (.startRecord path available rotation outcome)).1.toRecorderImpl =
        (world.setUpMediaRecorder (path.getD []) rotation (outcome ≠ .prepareFails)).1 := by
      rw [react, if_pos starts]
      exact startRecordingVideo_eq _ _ _ _
    by_cases fresh : Fresh world.toRecorderImpl
    · cases path with
      | none => exact absurd rfl starts.2.2.2.2
      | some path => exact follows_setUp follows starts fresh safe step
    · rw [if_neg fun prepares => fresh prepares.2.1]
      rw [(setUpMediaRecorder_eq_self fresh _ _ _).1] at step
      exact follows.of_same (congrArg RecorderImpl.mMediaRecorder step)
        (congrArg RecorderImpl.mIsRecordingVideo step).trans
        (congrArg RecorderImpl.mNextVideoAbsolutePath step)
  · rw [if_neg fun prepares => starts prepares.1, react, if_neg starts]
    exact follows

theorem stopRecordingVideo_fields (self : RecorderImpl) (succeeds : Bool) :
    (self.stopRecordingVideo succeeds).1.mMediaRecorder = some MediaRecorder.create := by
  rcases self with ⟨permits, device, size, sensor, recorder, flag, next, callback⟩
  cases recorder with
  | none => rfl
  | some recorder =>
      rcases recorder with ⟨state, file⟩
      cases state <;> cases succeeds <;> rfl

theorem follows_stopRecord {world : World} {before : Credit} (follows : Follows (world, before))
    (succeeds : Bool) : Follows (credited (world, before) (.stopRecord succeeds)).1 := by
  simp only [Machine.observed, credit]
  by_cases raised : world.mIsRecordingVideo = true
  · have stopped : ∀ recorder, (react world (.stopRecord succeeds)).1.mMediaRecorder =
        some recorder → recorder = MediaRecorder.create := by
      intro recorder current
      rw [react, if_pos raised] at current
      exact (Option.some.inj ((stopRecordingVideo_fields _ succeeds).symm.trans current)).symm
    rw [if_pos raised]
    constructor
    · intro recorder current prepared
      rw [stopped recorder current] at prepared
      cases prepared
    · intro recorder current records
      rw [stopped recorder current] at records
      cases records
    · intro path recording
      cases recording
  · rw [if_neg raised, react, if_neg raised]
    exact follows

theorem runPosted_fields (self : RecorderImpl) (succeeds : Bool) :
    (self.runPosted succeeds).1.mMediaRecorder = self.mMediaRecorder.map fun recorder =>
      if recorder.state = .prepared then
        { recorder with state := if succeeds then .recording else .error }
      else recorder := by
  rcases self with ⟨permits, device, size, sensor, recorder, flag, next, callback⟩
  cases recorder with
  | none => rfl
  | some recorder =>
      rcases recorder with ⟨state, file⟩
      cases state <;> cases succeeds <;> rfl

/-- A recording begins with the request which prepared its recorder, whose path is in the field. -/
theorem follows_runPosted {world : World} {before : Credit} (follows : Follows (world, before))
    (succeeds : Bool) : Follows (credited (world, before) (.runPosted succeeds)).1 := by
  simp only [Machine.observed, credit]
  by_cases runs : ¬world.uiBusy ∧ 0 < world.posted
  · have recorders := runPosted_fields world.toRecorderImpl succeeds
    rw [react, if_pos runs]
    by_cases prepared : world.recorderState = some .prepared
    · rcases Option.map_eq_some_iff.mp prepared with ⟨recorder, reference, ready⟩
      rcases follows.ready recorder reference ready with ⟨path, given, file, requested, next⟩
      rw [reference, Option.map_some, if_pos ready] at recorders
      cases succeeds with
      | true =>
          rw [if_pos ⟨runs.1, runs.2, prepared, rfl⟩]
          constructor
          · intro current reference' prepared'
            rcases Option.some.inj (recorders.symm.trans reference') with rfl
            cases prepared'
          · intro current reference' _
            rcases Option.some.inj (recorders.symm.trans reference') with rfl
            exact ⟨path, file, requested⟩
          · intro asked recording
            rcases Option.some.inj (requested.symm.trans recording) with rfl
            exact ⟨rfl, given, next⟩
      | false =>
          rw [if_neg fun begins => Bool.false_ne_true begins.2.2.2]
          refine follows.of_replaced ?_ (fun _ => rfl) rfl
          intro current reference'
          rcases Option.some.inj (recorders.symm.trans reference') with rfl
          exact ⟨by simp, by simp⟩
    · have same : (world.toRecorderImpl.runPosted succeeds).1.mMediaRecorder =
          world.mMediaRecorder := by
        rw [recorders]
        cases reference : world.mMediaRecorder with
        | none => rfl
        | some recorder =>
            rw [Option.map_some, if_neg]
            intro ready
            exact prepared (by rw [RecorderImpl.recorderState, reference, Option.map_some, ready])
      rw [if_neg fun begins => prepared begins.2.2.1]
      exact follows.of_same same (fun _ => rfl) rfl
  · rw [if_neg fun begins => runs ⟨begins.1, begins.2.1⟩, react, if_neg runs]
    exact follows

theorem lose_path (world : World) (device : Ref) :
    (world.lose device).mNextVideoAbsolutePath = world.mNextVideoAbsolutePath := by
  simp only [World.lose]
  split
  · rfl
  · split
    · rfl
    · split <;> rfl

theorem follows_credited {world : World × Credit} {input : Input} (follows : Follows world)
    (safe : PathSafe world input) : Follows (credited world input).1 := by
  rcases world with ⟨world, before⟩
  cases input with
  | openCamera outcome => exact follows_openCamera follows outcome
  | closed caller => exact follows_closed follows caller
  | startRecord path available rotation outcome => exact follows_startRecord follows safe
  | stopRecord succeeds => exact follows_stopRecord follows succeeds
  | runPosted succeeds => exact follows_runPosted follows succeeds
  | onDisconnected device =>
      have kept := recorder_lose world device
      exact follows.of_same kept.1 kept.2.trans (lose_path world device)
  | onError device =>
      have kept := recorder_lose world device
      exact follows.of_same kept.1 kept.2.trans (lose_path world device)
  | setRecordCallback callback => exact follows.of_same rfl id rfl
  | _ =>
      refine follows.of_same ?_ ?_ ?_ <;> simp only [react] <;> split <;> first | rfl | exact id

theorem onStop_notMem_setErrorMsg (self : RecorderImpl) (message : String) (path : Option JString) :
    Effect.onStop path ∉ self.setErrorMsg message := by
  rw [RecorderImpl.setErrorMsg]
  split <;> simp

theorem onStop_notMem_openCamera (self : RecorderImpl) (outcome : OpenOutcome)
    (path : Option JString) : Effect.onStop path ∉ (self.openCamera outcome).2.1 := by
  have notCaught (other : RecorderImpl) (exception : OpenException) :
      Effect.onStop path ∉ other.caught exception := by
    cases exception with
    | cameraAccessException => exact onStop_notMem_setErrorMsg other _ path
    | nullPointerException => exact onStop_notMem_setErrorMsg other _ path
    | runtimeException => exact List.not_mem_nil
  rw [RecorderImpl.openCamera]
  split
  · exact List.not_mem_nil
  · cases outcome with
    | opens orientation previewSize device => exact List.not_mem_nil
    | _ => exact notCaught _ _

/-- `onStop` comes from stopping only, and gets what is in the field. -/
theorem onStop_mem {world : World} {input : Input} {path : Option JString}
    (stopped : .onStop path ∈ (react world input).2) : path = world.mNextVideoAbsolutePath := by
  cases input with
  | stopRecord succeeds =>
      rw [react] at stopped
      split at stopped
      · simp only [RecorderImpl.stopRecordingVideo, List.mem_append] at stopped
        rcases stopped with call | reported
        · simp at call
        · split at reported <;> simp at reported
          exact reported
      · cases stopped
  | openCamera outcome =>
      rw [react] at stopped
      split at stopped
      · cases stopped
      · exact absurd stopped (onStop_notMem_openCamera _ outcome path)
  | onConfigureFailed =>
      rw [react] at stopped
      split at stopped
      · exact absurd stopped (onStop_notMem_setErrorMsg _ _ path)
      · cases stopped
  | runPosted succeeds =>
      rw [react] at stopped
      split at stopped
      · simp only [RecorderImpl.runPosted, List.mem_append] at stopped
        rcases stopped with call | reported
        · simp at call
        · split at reported <;> simp at reported
      · cases stopped
  | closed caller =>
      rw [react] at stopped
      split at stopped <;> simp at stopped
  | startRecord asked available rotation outcome =>
      rw [react] at stopped
      split at stopped <;> simp at stopped
  | onDisconnected device => cases stopped
  | onError device => cases stopped
  | setRecordCallback callback => cases stopped
  | _ =>
      rw [react] at stopped
      split at stopped <;> cases stopped

theorem pathSound_of_pathSafe {world : World × Credit} {input : Input} (follows : Follows world)
    (safe : PathSafe world input) : PathSound world input := by
  constructor
  · exact (follows_credited follows safe).running
  · intro path asked stopped recording
    rw [onStop_mem stopped, (follows.ending asked recording).2.2]

/-- In a run in which no call sets a recorder up while another path is left from before, every
recording is written to the path of the call which led to it, and `onStop` is given this path. -/
theorem every_pathSound_of_pathSafe {inputs : List Input}
    (safe : Machine.Every credited PathSafe (initial, {}) inputs) :
    Machine.Every credited PathSound (initial, {}) inputs :=
  safe.of_invariant Follows (fun _ _ follows meets => pathSound_of_pathSafe follows meets)
    (fun _ _ follows meets => follows_credited follows meets) follows_initial

/-- The camera is opened and reports. -/
def opening (device : Ref) : List Input :=
  [.openCamera (.opens (some 90) (640, 480) device), .onOpened device]

/-- A recording from its start to its end. -/
def recordingRun (path : JString) : List Input :=
  [.startRecord (some path) true 0 .accepted, .onConfigured, .runPosted true, .stopRecord true]

theorem every_pathSound_recordingRun :
    Machine.Every credited PathSound (initial, {}) (opening 1 ++ recordingRun [0x62]) :=
  every_pathSound_of_pathSafe (by
    simp only [opening, recordingRun, List.cons_append, List.nil_append, Machine.every_cons,
      Machine.every_nil, PathSafe, and_true, true_and]
    intro _ earlier left
    cases left)

/-- A start fails while preparing, the camera is closed and opened again, and another start is
made on the new recorder. -/
def failingRun : List Input :=
  opening 1 ++ [.startRecord (some [0x61]) true 0 .prepareFails, .closeCamera .ui, .acquired .ui,
    .closed .ui] ++ opening 2 ++ [.startRecord (some [0x62]) true 0 .accepted, .onConfigured]

/-- The recording of the second start is written to the path of the first one, which failed. -/
theorem not_every_pathSound :
    ¬∀ inputs, Machine.Every credited PathSound (initial, {}) inputs := by
  intro always
  have sound := always (failingRun ++ [.runPosted true]) failingRun (.runPosted true) [] rfl
  have recorder : (credited (Machine.after credited (initial, {}) failingRun)
      (.runPosted true)).1.1.mMediaRecorder = some ⟨.recording, some [0x61]⟩ := by
    decide +kernel
  have asked : (credited (Machine.after credited (initial, {}) failingRun)
      (.runPosted true)).1.2.recording = some [0x62] := by
    decide +kernel
  rcases sound.file _ recorder rfl with ⟨path, file, recorded⟩
  rw [asked] at recorded
  cases file
  cases recorded

end AndroidCollection.Recorder
