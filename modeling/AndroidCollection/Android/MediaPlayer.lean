import AndroidCollection.Java.Text
import AndroidCollection.Lib.CallProtocol

/-!
# The states of a media player

The documented state diagram of `android.media.MediaPlayer`. A call which is not
allowed throws; it leads to the error state, unless it only configures the
player. A data source which is not accepted leaves the player idle.

The player also moves by itself, and reports it: from preparing to prepared, from
started to the completed playback, and from any state to the error state. It is
never released here.
-/

namespace AndroidCollection.Android

open Java

/-- A media player, as the state it is in. -/
inductive MediaPlayer where
  | idle
  | initialized
  | preparing
  | prepared
  | started
  | paused
  | stopped
  | playbackCompleted
  | error
deriving DecidableEq, Repr

namespace MediaPlayer

inductive Method where
  | setSurface (surface : Ref)
  | reset
  | setDataSource (path : JString)
  | setAudioStreamType (streamtype : ℕ)
  | prepareAsync
  | start
  | stop
  | pause
  | seekTo (msec : ℤ)
  | isPlaying
  | getCurrentPosition
deriving DecidableEq

/-- The states in which playback can be controlled. -/
def isReady : MediaPlayer → Bool
  | .prepared | .started | .paused | .playbackCompleted => true
  | _ => false

/-- The states in which a method may be called. -/
def allows : MediaPlayer → Method → Bool
  | _, .setSurface _ | _, .reset => true
  | player, .setDataSource _ => player = .idle
  | player, .setAudioStreamType _ => player ≠ .error && player ≠ .preparing
  | player, .prepareAsync => player = .initialized || player = .stopped
  | player, .start | player, .seekTo _ => player.isReady
  | player, .stop => player.isReady || player = .stopped
  | player, .pause => player.isReady && player ≠ .prepared
  | player, .isPlaying | player, .getCurrentPosition => player ≠ .error

/-- The state after a successful call. -/
def perform (player : MediaPlayer) : Method → MediaPlayer
  | .reset => .idle
  | .setDataSource _ => .initialized
  | .prepareAsync => .preparing
  | .start => .started
  | .stop => .stopped
  | .pause => .paused
  | _ => player

/-- The state after a call which was not allowed. -/
def refuse (player : MediaPlayer) : Method → MediaPlayer
  | .setDataSource _ | .prepareAsync => player
  | _ => .error

@[simp]
theorem allows_reset (player : MediaPlayer) : player.allows .reset = true := by
  cases player <;> rfl

@[simp]
theorem allows_setSurface (player : MediaPlayer) (surface : Ref) :
    player.allows (.setSurface surface) = true := by
  cases player <;> rfl

theorem allows_start (player : MediaPlayer) : player.allows .start = player.isReady := by
  cases player <;> rfl

theorem allows_seekTo (player : MediaPlayer) (msec : ℤ) :
    player.allows (.seekTo msec) = player.isReady := by
  cases player <;> rfl

/-- What only asks the player is refused in the error state alone. -/
theorem allows_of_ne_error {player : MediaPlayer} (intact : player ≠ .error) :
    player.allows .isPlaying = true ∧ player.allows .getCurrentPosition = true := by
  cases player <;> first | exact ⟨rfl, rfl⟩ | exact absurd rfl intact

def protocol : CallProtocol MediaPlayer Method where
  allows := allows
  perform := perform
  fail player := player
  refuse := refuse

abbrev Call :=
  CallProtocol.Call MediaPlayer Method

/-! ## Transitions which the player reports -/

def whenPrepared : MediaPlayer → MediaPlayer
  | .preparing => .prepared
  | player => player

def whenCompleted : MediaPlayer → MediaPlayer
  | .started => .playbackCompleted
  | player => player

end MediaPlayer

end AndroidCollection.Android
