import AndroidCollection.Java.Text
import AndroidCollection.Lib.CallProtocol

/-!
# The states of a media recorder

The documented state diagram of `android.media.MediaRecorder`: which method may
be called in which state, and where a successful call leads. A call which is
not allowed throws an `IllegalStateException` and changes nothing; an allowed
call which fails for another reason leaves the recorder in the error state.
-/

namespace AndroidCollection.Android

open Java

namespace MediaRecorder

inductive State where
  | initial
  | initialized
  | dataSourceConfigured
  | prepared
  | recording
  | error
  | released
deriving DecidableEq, Repr

inductive Method where
  | setAudioSource
  | setVideoSource
  | setOutputFormat
  | setOutputFile (path : JString)
  | setVideoEncodingBitRate
  | setVideoFrameRate
  | setVideoSize
  | setVideoEncoder
  | setAudioEncoder
  | setOrientationHint (degrees : ℕ)
  | prepare
  | getSurface
  | start
  | stop
  | reset
  | release
deriving DecidableEq

/-- The states in which a method may be called. -/
def State.allows : State → Method → Bool
  | state, .setAudioSource | state, .setVideoSource =>
      state = .initial || state = .initialized
  | state, .setOutputFormat => state = .initialized
  | state, .setOutputFile _ | state, .setVideoEncodingBitRate | state, .setVideoFrameRate
  | state, .setVideoSize | state, .setVideoEncoder | state, .setAudioEncoder =>
      state = .dataSourceConfigured
  | state, .setOrientationHint _ =>
      state = .initial || state = .initialized || state = .dataSourceConfigured
  | state, .prepare => state = .dataSourceConfigured
  | state, .getSurface => state = .prepared || state = .recording
  | state, .start => state = .prepared
  | state, .stop => state = .recording
  | state, .reset => state ≠ .released
  | _, .release => true

/-- The state after a successful call. -/
def State.after (state : State) : Method → State
  | .setAudioSource | .setVideoSource => .initialized
  | .setOutputFormat => .dataSourceConfigured
  | .prepare => .prepared
  | .start => .recording
  | .stop | .reset => .initial
  | .release => .released
  | _ => state

end MediaRecorder

/-- A recorder, with the file it has been told to write to. -/
structure MediaRecorder where
  state : MediaRecorder.State
  outputFile : Option JString
deriving DecidableEq

namespace MediaRecorder

def create : MediaRecorder :=
  ⟨.initial, none⟩

def perform (recorder : MediaRecorder) (method : Method) : MediaRecorder where
  state := recorder.state.after method
  outputFile :=
    match method with
    | .setOutputFile path => some path
    | .reset => none
    | _ => recorder.outputFile

/-- Calls which are not allowed change nothing; a failing one leads to the error state. -/
def protocol : CallProtocol MediaRecorder Method where
  allows recorder method := recorder.state.allows method
  perform := perform
  fail recorder := { recorder with state := .error }
  refuse recorder _ := recorder

abbrev Call :=
  CallProtocol.Call MediaRecorder Method

end MediaRecorder

end AndroidCollection.Android
