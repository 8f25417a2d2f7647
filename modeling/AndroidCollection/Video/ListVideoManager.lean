import AndroidCollection.Android.MediaPlayer
import AndroidCollection.Lib.Machine

/-!
# The video manager of a list

`ListVideoManager` plays one video at a time on a media player, on the surface
which was pushed last, and keeps a playing status of its own. Its only instance
makes the player in its constructor and never gives it up.

The player prepares, completes and fails on its own; a callback is modelled
together with the transition it reports. A callback which arrives when the
player is not in a state to make that transition, for instance after a reset,
finds the player as it is. Buffering and information callbacks only log.
-/

namespace AndroidCollection.Video

open Java Android

inductive Status where
  | STATUS_IDLE
  | STATUS_PREPARE
  | STATUS_PLAYING
  | STATUS_PAUSE
deriving DecidableEq, Repr

/-- The exceptions which leave a method: a null surface, the top of an empty stack, and what the
player throws. -/
inductive Exception where
  | illegalArgument
  | emptyStack
  | mediaPlayer
deriving DecidableEq

/-- What a method does besides changing the fields: the calls of the player, the listeners which
are told a status, and the exception with which it ends. -/
structure Output where
  calls : List MediaPlayer.Call := []
  notified : List (Ref × Status) := []
  thrown : Option Exception := none

/-- What the player makes of a data source in the idle state: it is taken, or refused with an
`IOException` or with another exception. -/
inductive SourceOutcome where
  | accepted
  | ioException
  | rejected
deriving DecidableEq

/-- The fields of the class, the stacks with their tops first. -/
structure ListVideoManager where
  mSurfaceStack : List Ref := []
  mSurfaceTextureStack : List (Option Ref) := []
  mOnPlayCallbackList : List Ref := []
  currStatus : Status := .STATUS_IDLE
  mMediaPlayer : Option MediaPlayer := none
  mCurrPlayUrl : Option JString := none
  onPausePosition : ℤ := 0

/-- `AudioManager.STREAM_MUSIC`. -/
def STREAM_MUSIC : ℕ :=
  3

/-- Statements in order; an exception ends the method. -/
def andThen (step : ListVideoManager × Output)
    (next : ListVideoManager → ListVideoManager × Output) : ListVideoManager × Output :=
  match step.2.thrown with
  | some _ => step
  | none =>
      let last := next step.1
      (last.1, ⟨step.2.calls ++ last.2.calls, step.2.notified ++ last.2.notified, last.2.thrown⟩)

namespace ListVideoManager

variable (self : ListVideoManager)

/-- Calls of `mMediaPlayer`. -/
def drive (methods : List (MediaPlayer.Method × Bool)) : ListVideoManager × Output :=
  let invocations := MediaPlayer.protocol.invokeAll self.mMediaPlayer methods
  ({ self with mMediaPlayer := invocations.reference },
    { calls := invocations.calls
      thrown := if invocations.completed then none else some .mediaPlayer })

def notifyMediaStatus (status : Status) : Output where
  notified := self.mOnPlayCallbackList.map fun callback => (callback, status)

def getMediaPlayer : ListVideoManager :=
  match self.mMediaPlayer with
  | none => { self with mMediaPlayer := some .idle }
  | some _ => self

/-- The search for the surface among the textures never finds it. -/
def setSurface (surface surfaceTexture : Option Ref) : ListVideoManager × Output :=
  match surface with
  | none => (self, { thrown := some .illegalArgument })
  | some surface =>
      ({ self with
          mSurfaceStack :=
            if surface ∈ self.mSurfaceStack then self.mSurfaceStack
            else surface :: self.mSurfaceStack
          mSurfaceTextureStack := surfaceTexture :: self.mSurfaceTextureStack }, {})

def start : ListVideoManager × Output :=
  andThen (self.drive [(.start, true)]) fun self =>
    ({ self with currStatus := .STATUS_PLAYING }, self.notifyMediaStatus .STATUS_PLAYING)

/-- The part of `play` which prepares a new url; an `IOException` is caught. -/
def prepare (url : JString) (source : SourceOutcome) : ListVideoManager × Output :=
  let (self, output) := { self with
    mCurrPlayUrl := some url
    currStatus := .STATUS_PREPARE }.drive
      [(.reset, true), (.setDataSource url, source = SourceOutcome.accepted),
        (.setAudioStreamType STREAM_MUSIC, true), (.prepareAsync, true)]
  (self, { output with
    thrown := if source = SourceOutcome.ioException then none else output.thrown })

def play (url : Option JString) (source : SourceOutcome) : ListVideoManager × Output :=
  if self.currStatus ≠ .STATUS_IDLE ∧ self.currStatus ≠ .STATUS_PAUSE then
    (self, {})
  else if url.getD [] = [] then
    (self, {})
  else
    let self := self.getMediaPlayer
    match self.mSurfaceStack with
    | [] => (self, { thrown := some .emptyStack })
    | surface :: _ =>
        andThen (self.drive [(.setSurface surface, true)]) fun self =>
          if url = self.mCurrPlayUrl then self.start
          else self.prepare (url.getD []) source

def stop : ListVideoManager × Output :=
  if self.mMediaPlayer ≠ none ∧
      (self.currStatus = .STATUS_PLAYING ∨ self.currStatus = .STATUS_PAUSE) then
    andThen (self.drive [(.stop, true)]) fun self =>
      ({ self with currStatus := .STATUS_IDLE }, {})
  else
    (self, {})

def pause : ListVideoManager × Output :=
  if self.mMediaPlayer ≠ none ∧ self.currStatus = .STATUS_PLAYING then
    andThen (self.drive [(.pause, true)]) fun self =>
      ({ self with currStatus := .STATUS_PAUSE }, self.notifyMediaStatus .STATUS_PAUSE)
  else
    (self, {})

def reset : ListVideoManager × Output :=
  if self.mMediaPlayer ≠ none then
    { self with mCurrPlayUrl := none, currStatus := .STATUS_IDLE }.drive [(.reset, true)]
  else
    (self, {})

/-- The part of `release` which stops a player that is playing. -/
def halt : ListVideoManager × Output :=
  if self.mMediaPlayer ≠ none then
    andThen (self.drive [(.isPlaying, true)]) fun self =>
      if self.mMediaPlayer = some .started then self.drive [(.stop, true), (.reset, true)]
      else (self, {})
  else
    (self, {})

def release : ListVideoManager × Output :=
  andThen { self with mCurrPlayUrl := none, currStatus := .STATUS_IDLE }.halt fun self =>
    ({ self with
        mSurfaceStack := self.mSurfaceStack.tail
        mSurfaceTextureStack := self.mSurfaceTextureStack.tail }, {})

def onResume : ListVideoManager × Output :=
  if self.mMediaPlayer ≠ none then
    andThen (self.drive [(.seekTo self.onPausePosition, true)]) fun self =>
      ({ self with onPausePosition := 0 }, {})
  else
    (self, {})

def onPause (position : ℤ) : ListVideoManager × Output :=
  if self.mMediaPlayer ≠ none then
    andThen self.pause fun self =>
      andThen (self.drive [(.getCurrentPosition, true)]) fun self =>
        ({ self with onPausePosition := position }, {})
  else
    (self, {})

/-- The player of the callback is the one of the field. -/
def onPrepared : ListVideoManager × Output :=
  { self with mMediaPlayer := self.mMediaPlayer.map .whenPrepared }.start

def onCompletion : ListVideoManager × Output :=
  andThen { self with mMediaPlayer := self.mMediaPlayer.map .whenCompleted }.reset fun self =>
    (self, self.notifyMediaStatus .STATUS_IDLE)

def onError : ListVideoManager × Output :=
  andThen { self with mMediaPlayer := self.mMediaPlayer.map fun _ => .error }.reset fun self =>
    (self, self.notifyMediaStatus .STATUS_IDLE)

/-- Removing a listener appends it, as the source has it. -/
def removeListener (onPlayCallback : Ref) : ListVideoManager :=
  { self with mOnPlayCallbackList := self.mOnPlayCallbackList ++ [onPlayCallback] }

/-- Adding a listener takes out its first occurrence. -/
def addListener (onPlayCallback : Ref) : ListVideoManager :=
  { self with mOnPlayCallbackList := self.mOnPlayCallbackList.erase onPlayCallback }

end ListVideoManager

/-! ## Runs -/

inductive Input where
  | setSurface (surface surfaceTexture : Option Ref)
  | play (url : Option JString) (source : SourceOutcome)
  | stop
  | pause
  | reset
  | release
  | onResume
  | onPause (position : ℤ)
  | onPrepared
  | onCompletion
  | onError
  | removeListener (onPlayCallback : Ref)
  | addListener (onPlayCallback : Ref)

def react (self : ListVideoManager) : Input → ListVideoManager × Output
  | .setSurface surface surfaceTexture => self.setSurface surface surfaceTexture
  | .play url source => self.play url source
  | .stop => self.stop
  | .pause => self.pause
  | .reset => self.reset
  | .release => self.release
  | .onResume => self.onResume
  | .onPause position => self.onPause position
  | .onPrepared => self.onPrepared
  | .onCompletion => self.onCompletion
  | .onError => self.onError
  | .removeListener onPlayCallback => (self.removeListener onPlayCallback, {})
  | .addListener onPlayCallback => (self.addListener onPlayCallback, {})

/-- The instance after its constructor. -/
def initial : ListVideoManager :=
  ListVideoManager.getMediaPlayer {}

end AndroidCollection.Video
