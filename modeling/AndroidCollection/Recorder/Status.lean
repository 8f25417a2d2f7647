import AndroidCollection.Recorder.Basic

/-!
# The recording flag

`mIsRecordingVideo` is to be true exactly while the current media recorder is
recording, and every call of the recorder is to be allowed in its state. Both
are kept by a step unless it replaces or releases a recorder which is recording,
sets up one which is not fresh, or starts one which is not prepared or fails to
start. The condition below says so of the state before the step, and no step
which breaks it keeps both.
-/

namespace AndroidCollection.Recorder

open Java Android

/-- The state of the current recorder, `none` for a null reference. -/
def RecorderImpl.recorderState (self : RecorderImpl) : Option MediaRecorder.State :=
  self.mMediaRecorder.map (·.state)

/-- The flag agrees with the recorder. -/
def InStep (self : RecorderImpl) : Prop :=
  self.mIsRecordingVideo = true ↔ self.recorderState = some .recording

/-- A recorder which can be set up. -/
def Fresh (self : RecorderImpl) : Prop :=
  self.recorderState = some .initial ∨ self.recorderState = some .initialized

/-- The calls made in a step. -/
def calls (effects : List Effect) : List MediaRecorder.Call :=
  effects.filterMap fun
    | .call call => some call
    | _ => none

/-- The step makes only legal calls, and the flag agrees with the recorder afterwards. -/
def StatusSound (world : World) (input : Input) : Prop :=
  MediaRecorder.protocol.AllLegal (calls (react world input).2) ∧
    InStep (react world input).1.toRecorderImpl

def OpenOutcome.makesRecorder : OpenOutcome → Prop
  | .refused _ _ _ _ => True
  | .opens _ _ _ => True
  | _ => False

/-- The steps which keep the flag and the recorder in step. -/
def StatusSafe (world : World) : Input → Prop
  | .openCamera outcome =>
      ¬world.uiBusy → world.permits ≠ 0 → outcome.makesRecorder →
        world.recorderState ≠ some .recording
  | .closed caller => caller ∈ world.closing → world.recorderState ≠ some .recording
  | .startRecord path available _ _ => world.Starts path available → Fresh world.toRecorderImpl
  | .runPosted succeeds =>
      ¬world.uiBusy → 0 < world.posted → world.recorderState = some .prepared ∧ succeeds = true
  | _ => True

/-! ## The calls of a method -/

@[simp]
theorem calls_map_call (made : List MediaRecorder.Call) : calls (made.map .call) = made := by
  simp [calls, List.filterMap_map]

@[simp]
theorem calls_append (first second : List Effect) :
    calls (first ++ second) = calls first ++ calls second :=
  List.filterMap_append

/-- A fresh recorder takes the calls up to the output format. -/
theorem afterAll_sources {recorder : MediaRecorder}
    (fresh : recorder.state = .initial ∨ recorder.state = .initialized) :
    MediaRecorder.protocol.afterAll recorder RecorderImpl.sourceMethods =
      some { recorder with state := .dataSourceConfigured } := by
  rcases recorder with ⟨state, file⟩
  dsimp only at fresh
  rcases fresh with rfl | rfl <;> rfl

theorem afterAll_settings (recorder : MediaRecorder)
    (configured : recorder.state = .dataSourceConfigured) (path : JString) :
    MediaRecorder.protocol.afterAll recorder (RecorderImpl.settingMethods path) =
      some { recorder with outputFile := some path } := by
  rcases recorder with ⟨state, file⟩
  dsimp only at configured
  subst configured
  rfl

theorem afterAll_preparing (recorder : MediaRecorder)
    (configured : recorder.state = .dataSourceConfigured) (orientation : ℤ) (rotation : ℕ)
    (prepares : Bool) :
    MediaRecorder.protocol.afterAll recorder
        (RecorderImpl.hintMethods orientation rotation ++
          [(MediaRecorder.Method.prepare, prepares)]) =
      some { recorder with state := if prepares then .prepared else .error } := by
  rcases recorder with ⟨state, file⟩
  dsimp only at configured
  subst configured
  unfold RecorderImpl.hintMethods
  split
  · cases prepares <;> rfl
  · split <;> cases prepares <;> rfl

theorem all_preparing (orientation : ℤ) (rotation : ℕ) (prepares : Bool) :
    (RecorderImpl.hintMethods orientation rotation ++
      [(MediaRecorder.Method.prepare, prepares)]).all (·.2) = prepares := by
  unfold RecorderImpl.hintMethods
  split
  · cases prepares <;> rfl
  · split <;> cases prepares <;> rfl

/-- What setting up makes of a fresh recorder, by legal calls. -/
theorem setUpMediaRecorder_eq {self : RecorderImpl} (fresh : Fresh self) (path : JString)
    (rotation : ℕ) (prepares : Bool) :
    (self.setUpMediaRecorder path rotation prepares).1 =
      { self with
        mMediaRecorder := some
          ⟨if self.mSensorOrientation = none then .dataSourceConfigured
            else if prepares then .prepared else .error, some (self.nextPath path)⟩
        mNextVideoAbsolutePath := some (self.nextPath path) } ∧
      ((self.setUpMediaRecorder path rotation prepares).2.2 = true ↔
        self.mSensorOrientation ≠ none ∧ prepares = true) ∧
      MediaRecorder.protocol.AllLegal (self.setUpMediaRecorder path rotation prepares).2.1 := by
  obtain ⟨recorder, reference, recorderFresh⟩ :
      ∃ recorder, self.mMediaRecorder = some recorder ∧
        (recorder.state = .initial ∨ recorder.state = .initialized) := by
    simpa [Fresh, RecorderImpl.recorderState, ← exists_or, ← and_or_left] using fresh
  rcases CallProtocol.invokeAll_of_afterAll (afterAll_sources recorderFresh) with
    ⟨sourcesLegal, sources, sourcesDone⟩
  obtain ⟨settingsLegal, settings, settingsDone⟩ :=
    CallProtocol.invokeAll_of_afterAll (afterAll_settings
      { recorder with state := .dataSourceConfigured } rfl (self.nextPath path))
  rw [← reference] at sourcesLegal sources sourcesDone
  rw [← sources] at settingsLegal settings settingsDone
  have sourcesSucceed : RecorderImpl.sourceMethods.all (·.2) = true := rfl
  have settingsSucceed : (RecorderImpl.settingMethods (self.nextPath path)).all (·.2) = true := rfl
  rw [sourcesSucceed] at sourcesDone
  rw [settingsSucceed] at settingsDone
  simp only [RecorderImpl.setUpMediaRecorder, sourcesDone, settingsDone, Bool.not_true,
    Bool.false_eq_true, if_false]
  cases self.mSensorOrientation with
  | none => simp [settings, CallProtocol.allLegal_append, sourcesLegal, settingsLegal]
  | some orientation =>
      obtain ⟨preparingLegal, preparing, preparingDone⟩ :=
        CallProtocol.invokeAll_of_afterAll (afterAll_preparing
          ⟨.dataSourceConfigured, some (self.nextPath path)⟩ rfl orientation rotation prepares)
      rw [← settings] at preparingLegal preparing preparingDone
      dsimp only
      rw [preparing, preparingDone, all_preparing]
      simp [CallProtocol.allLegal_append, sourcesLegal, settingsLegal, preparingLegal]

/-- Setting up a fresh recorder never starts it; when it succeeds the recorder is prepared. -/
theorem setUpMediaRecorder_of_fresh {self : RecorderImpl} (fresh : Fresh self) (path : JString)
    (rotation : ℕ) (prepares : Bool) :
    MediaRecorder.protocol.AllLegal (self.setUpMediaRecorder path rotation prepares).2.1 ∧
      ∃ state, (self.setUpMediaRecorder path rotation prepares).1.recorderState = some state ∧
        state ≠ .recording ∧
        ((self.setUpMediaRecorder path rotation prepares).2.2 = true → state = .prepared) := by
  rcases setUpMediaRecorder_eq fresh path rotation prepares with ⟨setUp, completed, legal⟩
  refine ⟨legal, if self.mSensorOrientation = none then .dataSourceConfigured
    else if prepares then .prepared else .error, ?_, ?_, ?_⟩
  · rw [RecorderImpl.recorderState, setUp]
    rfl
  · split
    · decide
    · cases prepares <;> decide
  · intro succeeds
    rcases completed.1 succeeds with ⟨known, prepared⟩
    rw [if_neg known, if_pos prepared]

/-- Setting up any other recorder begins with a call which is not allowed. -/
theorem setUpMediaRecorder_of_not_fresh {self : RecorderImpl} (stale : ¬Fresh self)
    (path : JString) (rotation : ℕ) (prepares : Bool) :
    ¬MediaRecorder.protocol.AllLegal (self.setUpMediaRecorder path rotation prepares).2.1 := by
  have refused : ¬MediaRecorder.protocol.Legal ⟨self.mMediaRecorder, .setAudioSource⟩ := by
    rintro ⟨recorder, current, allowed⟩
    dsimp only at current
    apply stale
    simpa [Fresh, RecorderImpl.recorderState, current, MediaRecorder.protocol,
      MediaRecorder.State.allows] using allowed
  have unfinished : (MediaRecorder.protocol.invokeAll self.mMediaRecorder
      RecorderImpl.sourceMethods).completed = false :=
    CallProtocol.completed_of_not_legal refused
  have made : ⟨self.mMediaRecorder, .setAudioSource⟩ ∈ (MediaRecorder.protocol.invokeAll
      self.mMediaRecorder RecorderImpl.sourceMethods).calls :=
    CallProtocol.mem_invokeAll_cons _ _ _ _ _
  simp only [RecorderImpl.setUpMediaRecorder, unfinished, Bool.not_false, if_true]
  exact fun legal => refused (legal _ made)

theorem startRecordingVideo_of_fresh {self : RecorderImpl} (fresh : Fresh self) (path : JString)
    (rotation : ℕ) (outcome : RecorderImpl.StartOutcome) :
    MediaRecorder.protocol.AllLegal (self.startRecordingVideo path rotation outcome).2.1 ∧
      (self.startRecordingVideo path rotation outcome).1.recorderState ≠ some .recording := by
  rcases setUpMediaRecorder_of_fresh fresh path rotation (outcome ≠ .prepareFails) with
    ⟨legal, state, current, notRecording, prepared⟩
  simp only [RecorderImpl.startRecordingVideo]
  split
  · refine ⟨legal, ?_⟩
    rw [current]
    simpa using notRecording
  · next proceeds =>
      have setUpDone : (self.setUpMediaRecorder path rotation (outcome ≠ .prepareFails)).2.2 =
          true := by
        simp only [Bool.or_eq_true, not_or, Bool.not_eq_true, Bool.not_eq_false'] at proceeds
        exact proceeds.1
      rcases prepared setUpDone with rfl
      rcases Option.map_eq_some_iff.mp current with ⟨recorder, reference, ready⟩
      have permitted : MediaRecorder.protocol.allows recorder .getSurface = true := by
        simp [MediaRecorder.protocol, MediaRecorder.State.allows, ready]
      rw [reference, CallProtocol.invokeAll_single permitted]
      refine ⟨?_, ?_⟩
      · rw [CallProtocol.allLegal_append]
        exact ⟨legal, by simpa using CallProtocol.legal_some.mpr permitted⟩
      · change some recorder.state ≠ some .recording
        rw [ready]
        decide

theorem startRecordingVideo_of_not_fresh {self : RecorderImpl} (stale : ¬Fresh self)
    (path : JString) (rotation : ℕ) (outcome : RecorderImpl.StartOutcome) :
    ¬MediaRecorder.protocol.AllLegal (self.startRecordingVideo path rotation outcome).2.1 := by
  have illegal := setUpMediaRecorder_of_not_fresh stale path rotation (outcome ≠ .prepareFails)
  simp only [RecorderImpl.startRecordingVideo]
  split
  · exact illegal
  · rw [CallProtocol.allLegal_append]
    exact fun legal => illegal legal.1

theorem setUpMediaRecorder_flag (self : RecorderImpl) (path : JString) (rotation : ℕ)
    (prepares : Bool) :
    (self.setUpMediaRecorder path rotation prepares).1.mIsRecordingVideo =
      self.mIsRecordingVideo := by
  simp only [RecorderImpl.setUpMediaRecorder]
  split
  · rfl
  · split <;> rfl

theorem startRecordingVideo_flag (self : RecorderImpl) (path : JString) (rotation : ℕ)
    (outcome : RecorderImpl.StartOutcome) :
    (self.startRecordingVideo path rotation outcome).1.mIsRecordingVideo =
      self.mIsRecordingVideo := by
  simp only [RecorderImpl.startRecordingVideo]
  split <;> exact setUpMediaRecorder_flag self path rotation _

@[simp]
theorem calls_setErrorMsg (self : RecorderImpl) (message : String) :
    calls (self.setErrorMsg message) = [] := by
  unfold RecorderImpl.setErrorMsg
  split <;> rfl

@[simp]
theorem calls_caught (self : RecorderImpl) (exception : OpenException) :
    calls (self.caught exception) = [] := by
  cases exception with
  | cameraAccessException => exact calls_setErrorMsg self _
  | nullPointerException => exact calls_setErrorMsg self _
  | runtimeException => rfl

/-- Stopping a recorder which records is legal and leaves a fresh one, also when it fails. -/
theorem stopRecordingVideo_of_recording {self : RecorderImpl}
    (recording : self.recorderState = some .recording) (succeeds : Bool) :
    MediaRecorder.protocol.AllLegal (calls (self.stopRecordingVideo succeeds).2) ∧
      (self.stopRecordingVideo succeeds).1.mIsRecordingVideo = false ∧
      (self.stopRecordingVideo succeeds).1.recorderState = some .initial := by
  rcases Option.map_eq_some_iff.mp recording with ⟨recorder, reference, running⟩
  have stops : MediaRecorder.protocol.allows recorder .stop = true := by
    simp [MediaRecorder.protocol, MediaRecorder.State.allows, running]
  have resets : ∀ current : MediaRecorder, current.state = .initial →
      MediaRecorder.protocol.allows current .reset = true := by
    intro current idle
    simp [MediaRecorder.protocol, MediaRecorder.State.allows, idle]
  have stopLegal := CallProtocol.legal_some.mpr stops
  obtain ⟨current, replaced, idle⟩ : ∃ current : MediaRecorder,
      (if succeeds then some (if succeeds then MediaRecorder.protocol.perform recorder .stop
        else MediaRecorder.protocol.fail recorder) else some MediaRecorder.create) = some current ∧
      current.state = .initial := by
    cases succeeds with
    | true => exact ⟨_, rfl, rfl⟩
    | false => exact ⟨_, rfl, rfl⟩
  have resetLegal := CallProtocol.legal_some.mpr (resets current idle)
  simp only [RecorderImpl.stopRecordingVideo, reference, CallProtocol.invokeAll_single stops,
    replaced, CallProtocol.invokeAll_single (resets current idle), calls_append, calls_map_call,
    CallProtocol.allLegal_append, CallProtocol.allLegal_cons, CallProtocol.allLegal_nil]
  refine ⟨⟨⟨⟨stopLegal, trivial⟩, resetLegal, trivial⟩, ?_⟩, trivial, rfl⟩
  split <;> simp [calls]

theorem calls_runPosted (self : RecorderImpl) (succeeds : Bool) :
    calls (self.runPosted succeeds).2 =
      (MediaRecorder.protocol.invokeAll self.mMediaRecorder [(.start, succeeds)]).calls := by
  simp only [RecorderImpl.runPosted, calls_append, calls_map_call]
  split <;> simp [calls]

/-- The posted step is sound exactly on a prepared recorder which starts. -/
theorem runPosted_sound_iff (self : RecorderImpl) (succeeds : Bool) :
    MediaRecorder.protocol.AllLegal (calls (self.runPosted succeeds).2) ∧
        InStep (self.runPosted succeeds).1 ↔
      self.recorderState = some .prepared ∧ succeeds = true := by
  rw [calls_runPosted]
  have starts : ∀ recorder : MediaRecorder,
      MediaRecorder.protocol.allows recorder .start = true ↔ recorder.state = .prepared := by
    simp [MediaRecorder.protocol, MediaRecorder.State.allows]
  constructor
  · rintro ⟨legal, agrees⟩
    have made := MediaRecorder.protocol.mem_invokeAll_cons self.mMediaRecorder .start succeeds []
    rcases legal _ made with ⟨recorder, current, allowed⟩
    dsimp only at current allowed
    have running := agrees.mp rfl
    simp only [RecorderImpl.runPosted, RecorderImpl.recorderState, current,
      CallProtocol.invokeAll_single allowed] at running
    refine ⟨?_, ?_⟩
    · rw [RecorderImpl.recorderState, current, Option.map_some, (starts recorder).mp allowed]
    · cases succeeds with
      | true => rfl
      | false => cases running
  · rintro ⟨current, rfl⟩
    rcases Option.map_eq_some_iff.mp current with ⟨recorder, reference, ready⟩
    have permitted := (starts recorder).mpr ready
    simp only [RecorderImpl.runPosted, reference, CallProtocol.invokeAll_single permitted]
    exact ⟨by simpa using CallProtocol.legal_some.mpr permitted, iff_of_true rfl rfl⟩

/-! ## One step -/

/-- A step which makes no call and leaves the recorder and the flag alone is sound. -/
theorem statusSound_of_unchanged {world : World} {input : Input}
    (inStep : InStep world.toRecorderImpl) (quiet : calls (react world input).2 = [])
    (recorder : (react world input).1.mMediaRecorder = world.mMediaRecorder)
    (flag : (react world input).1.mIsRecordingVideo = world.mIsRecordingVideo) :
    StatusSound world input := by
  refine ⟨by simp [quiet], ?_⟩
  simpa only [InStep, RecorderImpl.recorderState, recorder, flag] using inStep

theorem openCamera_sound_iff {world : World} (inStep : InStep world.toRecorderImpl)
    (outcome : OpenOutcome) :
    StatusSound world (.openCamera outcome) ↔ StatusSafe world (.openCamera outcome) := by
  by_cases busy : world.uiBusy
  · have same : react world (.openCamera outcome) = (world, []) := by rw [react, if_pos busy]
    refine iff_of_true ?_ fun free => absurd busy free
    apply statusSound_of_unchanged inStep <;> simp [same, calls]
  · by_cases taken : world.permits = 0
    · refine iff_of_true ?_ fun _ available => absurd taken available
      apply statusSound_of_unchanged inStep <;>
        simp [react, busy, RecorderImpl.openCamera, taken, calls]
    · have step : StatusSound world (.openCamera outcome) ↔
          MediaRecorder.protocol.AllLegal (calls ({ world.toRecorderImpl with
            permits := world.permits - 1 }.openAcquired outcome).2.1) ∧
          InStep ({ world.toRecorderImpl with
            permits := world.permits - 1 }.openAcquired outcome).1 := by
        simp only [StatusSound, react, busy, if_false, RecorderImpl.openCamera, taken]
      -- a new recorder is not recording, so the flag must not be set
      have replaced : ∀ orientation previewSize,
          InStep ({ world.toRecorderImpl with
            permits := world.permits - 1 }.withRecorder orientation previewSize) ↔
            world.recorderState ≠ some .recording := by
        intro orientation previewSize
        simp only [InStep] at inStep ⊢
        change (world.mIsRecordingVideo = true ↔
          some MediaRecorder.State.initial = some .recording) ↔ _
        rw [inStep]
        simp
      rw [step]
      cases outcome with
      | noCharacteristics exception =>
          exact iff_of_true ⟨by simp [RecorderImpl.openAcquired], inStep⟩ fun _ _ made => made.elim
      | noSizes exception orientation =>
          exact iff_of_true ⟨by simp [RecorderImpl.openAcquired], inStep⟩ fun _ _ made => made.elim
      | noTransform exception orientation previewSize =>
          exact iff_of_true ⟨by simp [RecorderImpl.openAcquired], inStep⟩ fun _ _ made => made.elim
      | refused exception orientation previewSize report =>
          simp only [RecorderImpl.openAcquired, calls_caught, CallProtocol.allLegal_nil, true_and,
            replaced]
          simp [StatusSafe, busy, taken, OpenOutcome.makesRecorder]
      | opens orientation previewSize device =>
          simp only [RecorderImpl.openAcquired, replaced]
          simp [StatusSafe, busy, taken, OpenOutcome.makesRecorder, calls]

theorem closed_sound_iff {world : World} (inStep : InStep world.toRecorderImpl)
    (caller : Caller) :
    StatusSound world (.closed caller) ↔ StatusSafe world (.closed caller) := by
  by_cases inside : caller ∈ world.closing
  · have step : StatusSound world (.closed caller) ↔
        MediaRecorder.protocol.AllLegal world.closeHeld.2 ∧ InStep world.closeHeld.1 := by
      simp only [StatusSound, react, if_pos inside, calls_map_call]
      rfl
    have condition : StatusSafe world (.closed caller) ↔
        world.recorderState ≠ some .recording :=
      ⟨fun safe => safe inside, fun idle _ => idle⟩
    rw [step, condition]
    have agrees := inStep
    simp only [InStep] at agrees
    cases reference : world.mMediaRecorder with
    | none =>
        have idle : world.recorderState = none := by rw [RecorderImpl.recorderState, reference]; rfl
        rw [idle] at agrees
        simp [RecorderImpl.closeHeld, reference, InStep, RecorderImpl.recorderState, agrees]
    | some recorder =>
        have legal : MediaRecorder.protocol.AllLegal [⟨some recorder, .release⟩] := by
          simp [CallProtocol.legal_some, MediaRecorder.protocol, MediaRecorder.State.allows]
        simp only [RecorderImpl.closeHeld, reference, legal, true_and]
        rw [InStep, agrees]
        simp [RecorderImpl.recorderState]
  · refine iff_of_true ?_ fun held => absurd held inside
    apply statusSound_of_unchanged inStep <;> simp [react, inside, calls]

theorem startRecord_sound_iff {world : World} (inStep : InStep world.toRecorderImpl)
    (path : Option JString) (available : Bool) (rotation : ℕ)
    (outcome : RecorderImpl.StartOutcome) :
    StatusSound world (.startRecord path available rotation outcome) ↔
      StatusSafe world (.startRecord path available rotation outcome) := by
  by_cases starts : world.Starts path available
  · have step : StatusSound world (.startRecord path available rotation outcome) ↔
        MediaRecorder.protocol.AllLegal
            (world.startRecordingVideo (path.getD []) rotation outcome).2.1 ∧
          InStep (world.startRecordingVideo (path.getD []) rotation outcome).1 := by
      simp only [StatusSound, react, if_pos starts, calls_map_call]
    have condition : StatusSafe world (.startRecord path available rotation outcome) ↔
        Fresh world.toRecorderImpl :=
      ⟨fun safe => safe starts, fun fresh _ => fresh⟩
    rw [step, condition]
    constructor
    · rintro ⟨legal, -⟩
      by_contra stale
      exact startRecordingVideo_of_not_fresh stale _ rotation outcome legal
    · intro fresh
      rcases startRecordingVideo_of_fresh fresh (path.getD []) rotation outcome with
        ⟨legal, notRecording⟩
      refine ⟨legal, iff_of_false ?_ notRecording⟩
      rw [startRecordingVideo_flag, starts.1]
      decide
  · refine iff_of_true ?_ fun passes => absurd passes starts
    apply statusSound_of_unchanged inStep <;> simp [react, starts, calls]

theorem recorder_lose (world : World) (device : Ref) :
    (world.lose device).mMediaRecorder = world.mMediaRecorder ∧
      (world.lose device).mIsRecordingVideo = world.mIsRecordingVideo := by
  simp only [World.lose]
  split
  · exact ⟨rfl, rfl⟩
  · split
    · exact ⟨rfl, rfl⟩
    · split <;> exact ⟨rfl, rfl⟩

theorem stopRecord_sound {world : World} (inStep : InStep world.toRecorderImpl)
    (succeeds : Bool) : StatusSound world (.stopRecord succeeds) := by
  by_cases flag : world.mIsRecordingVideo = true
  · rcases stopRecordingVideo_of_recording (inStep.mp flag) succeeds with ⟨legal, lowered, fresh⟩
    simp only [StatusSound, react, if_pos flag]
    refine ⟨legal, iff_of_false ?_ ?_⟩
    · rw [lowered]
      decide
    · rw [fresh]
      decide
  · apply statusSound_of_unchanged inStep <;> simp [react, flag, calls]

theorem posted_sound_iff {world : World} (inStep : InStep world.toRecorderImpl)
    (succeeds : Bool) :
    StatusSound world (.runPosted succeeds) ↔ StatusSafe world (.runPosted succeeds) := by
  by_cases enabled : ¬world.uiBusy ∧ 0 < world.posted
  · have condition : StatusSafe world (.runPosted succeeds) ↔
        world.recorderState = some .prepared ∧ succeeds = true :=
      ⟨fun safe => safe enabled.1 enabled.2, fun ready _ _ => ready⟩
    simp only [condition, StatusSound, react, if_pos enabled]
    exact runPosted_sound_iff world.toRecorderImpl succeeds
  · refine iff_of_true ?_ fun free posted => absurd ⟨free, posted⟩ enabled
    apply statusSound_of_unchanged inStep <;> simp [react, if_neg enabled, calls]

/-- As long as the flag agrees with the recorder, the sound steps are the safe ones. -/
theorem statusSound_iff_statusSafe {world : World} (inStep : InStep world.toRecorderImpl)
    (input : Input) : StatusSound world input ↔ StatusSafe world input := by
  cases input with
  | openCamera outcome => exact openCamera_sound_iff inStep outcome
  | closed caller => exact closed_sound_iff inStep caller
  | startRecord path available rotation outcome =>
      exact startRecord_sound_iff inStep path available rotation outcome
  | stopRecord succeeds => exact iff_of_true (stopRecord_sound inStep succeeds) trivial
  | runPosted succeeds => exact posted_sound_iff inStep succeeds
  | onDisconnected device =>
      have kept := recorder_lose world device
      exact iff_of_true (statusSound_of_unchanged inStep rfl kept.1 kept.2) trivial
  | onError device =>
      have kept := recorder_lose world device
      exact iff_of_true (statusSound_of_unchanged inStep rfl kept.1 kept.2) trivial
  | onConfigureFailed =>
      refine iff_of_true ?_ trivial
      by_cases pending : 0 < world.sessions
      · apply statusSound_of_unchanged inStep <;> simp [react, pending]
      · apply statusSound_of_unchanged inStep <;> simp [react, pending, calls]
  | setRecordCallback callback =>
      exact iff_of_true (statusSound_of_unchanged inStep rfl rfl rfl) trivial
  | _ =>
      refine iff_of_true ?_ trivial
      apply statusSound_of_unchanged inStep <;> simp only [react] <;> split <;> rfl

/-- In every run, all steps are sound exactly when all are safe. -/
theorem statusSound_iff (inputs : List Input) :
    Machine.Every react StatusSound initial inputs ↔
      Machine.Every react StatusSafe initial inputs := by
  apply Machine.every_iff_of_invariant (fun world => InStep world.toRecorderImpl)
  · intro world input inStep
    exact statusSound_iff_statusSafe inStep input
  · intro world input inStep safe
    exact ((statusSound_iff_statusSafe inStep input).mpr safe).2
  · simp [InStep, initial, RecorderImpl.recorderState]

/-- A camera is opened and a recording requested. -/
def requested : List Input :=
  [.openCamera (.opens (some 90) (640, 480) 1), .onOpened 1,
    .startRecord (some (ascii ['a'])) true 0 .accepted]

/-- A second request before the session is configured sets up a prepared recorder again. -/
theorem second_start_not_sound :
    ¬Machine.Every react StatusSound initial
      (requested ++ [.startRecord (some (ascii ['a'])) true 0 .accepted]) := by
  intro every
  have sound := every requested (.startRecord (some (ascii ['a'])) true 0 .accepted) [] rfl
  have legal := sound.1 ⟨some ⟨.prepared, some (ascii ['a'])⟩, .setAudioSource⟩ (by decide)
  rw [CallProtocol.legal_some] at legal
  cases legal

end AndroidCollection.Recorder
