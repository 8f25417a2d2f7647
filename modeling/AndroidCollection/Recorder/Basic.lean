import AndroidCollection.Android.MediaRecorder
import AndroidCollection.Lib.Machine

/-!
# The camera recorder

`RecorderImpl` opens a camera under a semaphore, sets up a media recorder when
recording is to start, and starts it in a step posted from the callback of the
capture session. Its methods are run by the user interface thread and by other
threads, and the platform answers later, in any order.

`World` holds the fields of the class together with what is outstanding: the
cameras which have not reported yet, those which are open and may still fail,
the callers inside `closeCamera`, the capture sessions which have not been
configured and the steps which have been posted. An input which cannot happen
in a state, such as a report of a camera which is not open, changes nothing.
`openCamera` runs on the user interface thread, and the cameras report there
as well, because they are opened with a null handler; while that thread waits
in `closeCamera`, neither happens.

The preview session and its callbacks do not touch these fields and are left
out, as is the text which is drawn and measured.
-/

namespace AndroidCollection.Recorder

open Java Android

/-- A thread which can run `closeCamera`. -/
inductive Caller where
  | ui
  | other (number : ℕ)
deriving DecidableEq

/-- The fields of the class; `permits` are those of `mCameraOpenCloseLock`. -/
structure RecorderImpl where
  permits : ℕ := 1
  mCameraDevice : Option Ref := none
  mPreviewSize : Option (ℕ × ℕ) := none
  mSensorOrientation : Option ℤ := none
  mMediaRecorder : Option MediaRecorder := none
  mIsRecordingVideo : Bool := false
  mNextVideoAbsolutePath : Option JString := none
  mCallback : Option Ref := none

structure World extends RecorderImpl where
  opening : List Ref := []
  opened : List Ref := []
  waiting : List Caller := []
  closing : List Caller := []
  sessions : ℕ := 0
  posted : ℕ := 0

/-- What a step does besides changing the fields. -/
inductive Effect where
  | call (call : MediaRecorder.Call)
  | onStart
  | onStop (path : Option JString)
  | onError (message : String)

/-! ## Opening -/

/-- The exceptions of `openCamera`; a `runtimeException` is not caught. -/
inductive OpenException where
  | cameraAccessException
  | nullPointerException
  | runtimeException

/-- What the platform makes of a call of `openCamera`: an exception before the characteristics of
the camera are known, before a preview size is chosen, before the new media recorder, or from
opening the camera itself, which can be reported to the callback as well; or a camera. -/
inductive OpenOutcome where
  | noCharacteristics (exception : OpenException)
  | noSizes (exception : OpenException) (orientation : Option ℤ)
  | noTransform (exception : OpenException) (orientation : Option ℤ) (previewSize : ℕ × ℕ)
  | refused (exception : OpenException) (orientation : Option ℤ) (previewSize : ℕ × ℕ)
      (report : Option Ref)
  | opens (orientation : Option ℤ) (previewSize : ℕ × ℕ) (device : Ref)

namespace RecorderImpl

variable (self : RecorderImpl)

def setErrorMsg (message : String) : List Effect :=
  if self.mCallback.isSome then [.onError message] else []

/-- The `catch` clauses of `openCamera`. -/
def caught : OpenException → List Effect
  | .cameraAccessException => self.setErrorMsg "Cannot access the camera."
  | .nullPointerException =>
      self.setErrorMsg "The Camera2API is used but not supported on the device this code runs."
  | .runtimeException => []

/-- The fields when the new media recorder has been made. -/
def withRecorder (orientation : Option ℤ) (previewSize : ℕ × ℕ) : RecorderImpl :=
  { self with
    mSensorOrientation := orientation
    mPreviewSize := some previewSize
    mMediaRecorder := some MediaRecorder.create }

/-- `openCamera` with a permit in hand: the fields, the effects, and the camera which will
report. -/
def openAcquired : OpenOutcome → RecorderImpl × List Effect × Option Ref
  | .noCharacteristics exception => (self, self.caught exception, none)
  | .noSizes exception orientation =>
      ({ self with mSensorOrientation := orientation }, self.caught exception, none)
  | .noTransform exception orientation previewSize =>
      ({ self with mSensorOrientation := orientation, mPreviewSize := some previewSize },
        self.caught exception, none)
  | .refused exception orientation previewSize report =>
      (self.withRecorder orientation previewSize, self.caught exception, report)
  | .opens orientation previewSize device =>
      (self.withRecorder orientation previewSize, [], some device)

/-- `openCamera`; without a permit it times out and throws. -/
def openCamera (outcome : OpenOutcome) : RecorderImpl × List Effect × Option Ref :=
  if self.permits = 0 then (self, [], none)
  else { self with permits := self.permits - 1 }.openAcquired outcome

/-! ## Camera callbacks and closing -/

def onOpened (cameraDevice : Ref) : RecorderImpl :=
  { self with mCameraDevice := some cameraDevice, permits := self.permits + 1 }

/-- `onDisconnected` and `onError` have the same body. -/
def onLost : RecorderImpl :=
  { self with permits := self.permits + 1, mCameraDevice := none }

/-- The body of `closeCamera` between `acquire` and `release`. -/
def closeHeld : RecorderImpl × List MediaRecorder.Call :=
  match self.mMediaRecorder with
  | none => ({ self with mCameraDevice := none }, [])
  | some recorder =>
      ({ self with mCameraDevice := none, mMediaRecorder := none },
        [⟨some recorder, .release⟩])

/-! ## Recording -/

/-- `DEFAULT_ORIENTATIONS.get(rotation)`. -/
def DEFAULT_ORIENTATIONS : ℕ → ℕ
  | 0 => 90
  | 1 => 0
  | 2 => 270
  | 3 => 180
  | _ => 0

/-- `INVERSE_ORIENTATIONS.get(rotation)`. -/
def INVERSE_ORIENTATIONS : ℕ → ℕ
  | 0 => 270
  | 1 => 180
  | 2 => 90
  | 3 => 0
  | _ => 0

def sourceMethods : List (MediaRecorder.Method × Bool) :=
  [(.setAudioSource, true), (.setVideoSource, true), (.setOutputFormat, true)]

def settingMethods (path : JString) : List (MediaRecorder.Method × Bool) :=
  [(.setOutputFile path, true), (.setVideoEncodingBitRate, true), (.setVideoFrameRate, true),
    (.setVideoSize, true), (.setVideoEncoder, true), (.setAudioEncoder, true)]

def hintMethods (orientation : ℤ) (rotation : ℕ) : List (MediaRecorder.Method × Bool) :=
  if orientation = 90 then [(.setOrientationHint (DEFAULT_ORIENTATIONS rotation), true)]
  else if orientation = 270 then [(.setOrientationHint (INVERSE_ORIENTATIONS rotation), true)]
  else []

/-- The file of the next recording: a path left from before wins over the new one. -/
def nextPath (path : JString) : JString :=
  match self.mNextVideoAbsolutePath with
  | none => path
  | some earlier => if earlier = [] then path else earlier

/-- `setUpMediaRecorder`, and whether it returned without an exception. A sensor orientation which
is null is unboxed in the `switch` before `prepare`. -/
def setUpMediaRecorder (path : JString) (rotation : ℕ) (prepares : Bool) :
    RecorderImpl × List MediaRecorder.Call × Bool :=
  let sources := MediaRecorder.protocol.invokeAll self.mMediaRecorder sourceMethods
  if !sources.completed then
    ({ self with mMediaRecorder := sources.reference }, sources.calls, false)
  else
    let settings := MediaRecorder.protocol.invokeAll sources.reference
      (settingMethods (self.nextPath path))
    let set := { self with
      mMediaRecorder := settings.reference
      mNextVideoAbsolutePath := some (self.nextPath path) }
    match settings.completed, self.mSensorOrientation with
    | true, some orientation =>
        let preparing := MediaRecorder.protocol.invokeAll settings.reference
          (hintMethods orientation rotation ++ [(.prepare, prepares)])
        ({ set with mMediaRecorder := preparing.reference },
          sources.calls ++ settings.calls ++ preparing.calls, preparing.completed)
    | _, _ => (set, sources.calls ++ settings.calls, false)

/-- What the platform makes of a start after the calls of the recorder which are allowed:
`prepare` fails, the capture request fails, creating the session fails, or a session will
report. -/
inductive StartOutcome where
  | prepareFails
  | requestFails
  | sessionFails
  | accepted
deriving DecidableEq

/-- `startRecordingVideo` behind its guard, and whether a capture session will report. -/
def startRecordingVideo (path : JString) (rotation : ℕ) (outcome : StartOutcome) :
    RecorderImpl × List MediaRecorder.Call × Bool :=
  let setUp := self.setUpMediaRecorder path rotation (outcome ≠ .prepareFails)
  if !setUp.2.2 || outcome = .requestFails then
    (setUp.1, setUp.2.1, false)
  else
    let surface := MediaRecorder.protocol.invokeAll setUp.1.mMediaRecorder [(.getSurface, true)]
    ({ setUp.1 with mMediaRecorder := surface.reference }, setUp.2.1 ++ surface.calls,
      surface.completed && outcome = .accepted)

/-- The guards of `startRecord` and `startRecordingVideo`. -/
def Starts (path : Option JString) (available : Bool) : Prop :=
  self.mIsRecordingVideo = false ∧ self.mCameraDevice ≠ none ∧ available = true ∧
    self.mPreviewSize ≠ none ∧ path.getD [] ≠ []

instance (path : Option JString) (available : Bool) : Decidable (self.Starts path available) :=
  inferInstanceAs (Decidable (_ ∧ _))

/-- `stopRecordingVideo`: a recorder which cannot be stopped is replaced by a new one. -/
def stopRecordingVideo (succeeds : Bool) : RecorderImpl × List Effect :=
  let stopping := MediaRecorder.protocol.invokeAll self.mMediaRecorder [(.stop, succeeds)]
  let stopped := if stopping.completed then stopping.reference else some MediaRecorder.create
  let resetting := MediaRecorder.protocol.invokeAll stopped [(.reset, true)]
  ({ self with
      mIsRecordingVideo := false
      mMediaRecorder := resetting.reference
      mNextVideoAbsolutePath := none },
    (stopping.calls ++ resetting.calls).map .call ++
      if self.mCallback.isSome then [.onStop self.mNextVideoAbsolutePath] else [])

/-- The posted step: the flag is set before the recorder is started. -/
def runPosted (succeeds : Bool) : RecorderImpl × List Effect :=
  let starting := MediaRecorder.protocol.invokeAll self.mMediaRecorder [(.start, succeeds)]
  ({ self with mIsRecordingVideo := true, mMediaRecorder := starting.reference },
    starting.calls.map .call ++
      if starting.completed && self.mCallback.isSome then [.onStart] else [])

end RecorderImpl

/-! ## Runs -/

inductive Input where
  | openCamera (outcome : OpenOutcome)
  | onOpened (device : Ref)
  | onDisconnected (device : Ref)
  | onError (device : Ref)
  | closeCamera (caller : Caller)
  | acquired (caller : Caller)
  | interrupted (caller : Caller)
  | closed (caller : Caller)
  | startRecord (path : Option JString) (available : Bool) (rotation : ℕ)
      (outcome : RecorderImpl.StartOutcome)
  | stopRecord (succeeds : Bool)
  | onConfigured
  | onConfigureFailed
  | runPosted (succeeds : Bool)
  | setRecordCallback (callback : Option Ref)

namespace World

/-- The user interface thread is inside `closeCamera` and runs nothing else. -/
def uiBusy (world : World) : Prop :=
  .ui ∈ world.waiting ∨ .ui ∈ world.closing

instance (world : World) : Decidable world.uiBusy :=
  inferInstanceAs (Decidable (_ ∨ _))

/-- A camera can be lost before or after its first report. -/
def lose (world : World) (device : Ref) : World :=
  if world.uiBusy then
    world
  else if device ∈ world.opening then
    { world with
      toRecorderImpl := world.onLost
      opening := world.opening.erase device }
  else if device ∈ world.opened then
    { world with
      toRecorderImpl := world.onLost
      opened := world.opened.erase device }
  else
    world

/-- The camera which the application closes does not report any more. -/
def closeDevice (world : World) : List Ref :=
  match world.mCameraDevice with
  | none => world.opened
  | some device => world.opened.erase device

end World

open World

def react (world : World) : Input → World × List Effect
  | .openCamera outcome =>
      if world.uiBusy then (world, [])
      else
        let (self, effects, report) := world.openCamera outcome
        ({ world with toRecorderImpl := self, opening := world.opening ++ report.toList }, effects)
  | .onOpened device =>
      if ¬world.uiBusy ∧ device ∈ world.opening then
        ({ world with
            toRecorderImpl := world.onOpened device
            opening := world.opening.erase device
            opened := device :: world.opened }, [])
      else (world, [])
  | .onDisconnected device => (world.lose device, [])
  | .onError device => (world.lose device, [])
  | .closeCamera caller =>
      if caller ∈ world.waiting ∨ caller ∈ world.closing then (world, [])
      else ({ world with waiting := caller :: world.waiting }, [])
  | .acquired caller =>
      if caller ∈ world.waiting ∧ 0 < world.permits then
        ({ world with
            permits := world.permits - 1
            waiting := world.waiting.erase caller
            closing := caller :: world.closing }, [])
      else (world, [])
  | .interrupted caller =>
      -- the `finally` clause releases a permit which was not acquired
      if caller ∈ world.waiting then
        ({ world with
            permits := world.permits + 1
            waiting := world.waiting.erase caller }, [])
      else (world, [])
  | .closed caller =>
      if caller ∈ world.closing then
        ({ world with
            toRecorderImpl := { world.closeHeld.1 with permits := world.permits + 1 }
            opened := world.closeDevice
            closing := world.closing.erase caller }, world.closeHeld.2.map .call)
      else (world, [])
  | .startRecord path available rotation outcome =>
      if world.Starts path available then
        let (self, calls, reports) :=
          world.startRecordingVideo (path.getD []) rotation outcome
        ({ world with
            toRecorderImpl := self
            sessions := if reports then world.sessions + 1 else world.sessions },
          calls.map .call)
      else (world, [])
  | .stopRecord succeeds =>
      if world.mIsRecordingVideo then
        ({ world with toRecorderImpl := (world.stopRecordingVideo succeeds).1 },
          (world.stopRecordingVideo succeeds).2)
      else (world, [])
  | .onConfigured =>
      if 0 < world.sessions then
        ({ world with sessions := world.sessions - 1, posted := world.posted + 1 }, [])
      else (world, [])
  | .onConfigureFailed =>
      if 0 < world.sessions then
        ({ world with sessions := world.sessions - 1 },
          world.setErrorMsg "TEMPLATE_RECORD createCaptureSession onConfigureFailed")
      else (world, [])
  | .runPosted succeeds =>
      if ¬world.uiBusy ∧ 0 < world.posted then
        ({ world with
            toRecorderImpl := (world.toRecorderImpl.runPosted succeeds).1
            posted := world.posted - 1 },
          (world.toRecorderImpl.runPosted succeeds).2)
      else (world, [])
  | .setRecordCallback callback => ({ world with mCallback := callback }, [])

/-- The instance after construction, before anything is opened. -/
def initial : World := {}

end AndroidCollection.Recorder
