import AndroidCollection.Java.Text
import AndroidCollection.Lib.Machine
import Mathlib.Algebra.Order.Group.Unbundled.Abs
import Mathlib.Algebra.Order.Group.Int

/-!
# The time of a network clock

`NtpUtil` keeps the time which it got from a server, together with the time since
boot at that moment, and answers with the local clock as long as that is within six
minutes of the stored time. The stored time gets old, and is not moved on before it
is compared. When no server answers and nothing is stored, the local clock is
stored instead, without a time since boot.

Times are milliseconds, of which a `long` holds far more than any clock shows, so
they are integers here. True time and the time since boot go on together, the local
clock too unless it is set. A server which answers gives the true time.
-/

namespace AndroidCollection.Ntp

open Java

structure Clocks where
  trueTime : ℤ
  afterEpoch : 0 < trueTime
  elapsedRealtime : ℤ
  currentTimeMillis : ℤ

namespace Clocks

def pass (clocks : Clocks) (millis : ℕ) : Clocks where
  trueTime := clocks.trueTime + millis
  afterEpoch := by
    have := clocks.afterEpoch
    omega
  elapsedRealtime := clocks.elapsedRealtime + millis
  currentTimeMillis := clocks.currentTimeMillis + millis

def setClock (clocks : Clocks) (millis : ℤ) : Clocks :=
  { clocks with currentTimeMillis := millis }

/-- The true time of the boot. -/
def bootTime (clocks : Clocks) : ℤ :=
  clocks.trueTime - clocks.elapsedRealtime

@[simp]
theorem bootTime_pass (clocks : Clocks) (millis : ℕ) :
    (clocks.pass millis).bootTime = clocks.bootTime := by
  simp [bootTime, pass]

end Clocks

/-- The static fields. -/
structure NtpUtil where
  ntpTime : ℤ := 0
  systemRunTime : ℤ := 0

def NTP_POOL : List JString :=
  [ascii "cn.ntp.org.cn".toList, ascii "us.ntp.org.cn".toList, ascii "de.ntp.org.cn".toList]

/-- What becomes of a request to a server: how long it takes, and whether it succeeds. -/
abbrev RequestTime := JString → ℕ × Bool

/-- Six minutes. -/
def limit : ℤ :=
  1000 * 60 * 6

structure World where
  util : NtpUtil := {}
  clocks : Clocks
  /-- Tasks which have been executed and have not run yet. -/
  tasks : ℕ := 0

namespace World

variable (world : World)

/-- The time stored is far from the local clock. -/
def isFar : Bool :=
  limit < |world.util.ntpTime - world.clocks.currentTimeMillis|

def getTime : ℤ :=
  if world.util.ntpTime ≠ 0 ∧ world.isFar = true then
    world.util.ntpTime + world.clocks.elapsedRealtime - world.util.systemRunTime
  else world.clocks.currentTimeMillis

/-- The loop over the servers, and whether one has answered. -/
def requestPool (requestTime : RequestTime) : List JString → World → World × Bool
  | [], world => (world, false)
  | server :: servers, world =>
      let later := { world with clocks := world.clocks.pass (requestTime server).1 }
      if (requestTime server).2 then
        ({ later with
            util := ⟨later.clocks.trueTime, later.clocks.elapsedRealtime⟩ }, true)
      else requestPool requestTime servers later

/-- The common body of `getNTPTime` and of the task. -/
def synchronise (requestTime : RequestTime) : World × Bool :=
  let (world, succeeded) := requestPool requestTime NTP_POOL world
  let ntpTime :=
    if world.util.ntpTime ≤ 0 then world.clocks.currentTimeMillis else world.util.ntpTime
  ({ world with util := { world.util with ntpTime := ntpTime } }, succeeded)

end World

/-! ## Runs -/

inductive Input where
  | pass (millis : ℕ)
  | setClock (millis : ℤ)
  | getNTPTime (requestTime : RequestTime)
  | getNTPTimeAsync
  | doInBackground (requestTime : RequestTime)

/-- What a step answers: whether a server has answered, and the state which `getNTPTime` returns or
the callback is told. -/
structure Output where
  succeeded : Bool := false
  state : Option Bool := none

def react (world : World) : Input → World × Output
  | .pass millis => ({ world with clocks := world.clocks.pass millis }, {})
  | .setClock millis => ({ world with clocks := world.clocks.setClock millis }, {})
  | .getNTPTime requestTime =>
      let (after, succeeded) := world.synchronise requestTime
      (after, ⟨succeeded, some (after.util.ntpTime ≠ 0)⟩)
  | .getNTPTimeAsync =>
      if world.util.ntpTime ≠ 0 then (world, { state := some true })
      else ({ world with tasks := world.tasks + 1 }, {})
  | .doInBackground requestTime =>
      match world.tasks with
      | 0 => (world, {})
      | tasks + 1 =>
          let (after, succeeded) := { world with tasks := tasks }.synchronise requestTime
          (after, ⟨succeeded, some (after.util.ntpTime ≠ 0)⟩)

/-- Whether a synchronisation has succeeded. -/
def observe (synced : Bool) (_world : World) (_input : Input) (output : Output) : Bool :=
  synced || output.succeeded

/-- A run, with whether a synchronisation has succeeded in it. -/
def run (clocks : Clocks) (inputs : List Input) : World × Bool :=
  Machine.after (Machine.observed react observe) ({ clocks := clocks }, false) inputs

/-! ## The time which is answered -/

/-- After a synchronisation the answer is within the limit of true time, and before it is the local
clock. -/
structure Correct (state : World × Bool) : Prop where
  synced : state.2 = true → |state.1.getTime - state.1.clocks.trueTime| ≤ limit
  unsynced : state.2 = false → state.1.getTime = state.1.clocks.currentTimeMillis

/-- After a synchronisation the local clock is far from the stored time or near to true time. Before
it nothing is stored, or the local clock is near to the stored time, or it shows the stored time
moved on by the time since boot. -/
structure ClockHelps (state : World × Bool) : Prop where
  synced : state.2 = true →
    limit < |state.1.util.ntpTime - state.1.clocks.currentTimeMillis| ∨
      |state.1.clocks.currentTimeMillis - state.1.clocks.trueTime| ≤ limit
  unsynced : state.2 = false →
    state.1.util.ntpTime = 0 ∨
      |state.1.util.ntpTime - state.1.clocks.currentTimeMillis| ≤ limit ∨
      state.1.clocks.currentTimeMillis =
        state.1.util.ntpTime + state.1.clocks.elapsedRealtime

/-- What is stored: a true time with its time since boot after a synchronisation, and no time since
boot before it. -/
structure Stored (state : World × Bool) : Prop where
  synced : state.2 = true → 0 < state.1.util.ntpTime ∧
    state.1.util.ntpTime - state.1.util.systemRunTime = state.1.clocks.bootTime
  unsynced : state.2 = false → state.1.util.systemRunTime = 0

theorem getTime_of_far {world : World} (some' : world.util.ntpTime ≠ 0)
    (far : limit < |world.util.ntpTime - world.clocks.currentTimeMillis|) :
    world.getTime =
      world.util.ntpTime + world.clocks.elapsedRealtime - world.util.systemRunTime := by
  simp [World.getTime, World.isFar, some', far]

theorem getTime_of_near {world : World}
    (near : world.util.ntpTime = 0 ∨
      |world.util.ntpTime - world.clocks.currentTimeMillis| ≤ limit) :
    world.getTime = world.clocks.currentTimeMillis := by
  rcases near with none' | near
  · simp [World.getTime, none']
  · simp [World.getTime, World.isFar, near]

/-- Far from the clock of the device, the answer is the stored start with the time since boot added
to it. -/
theorem correct_iff_of_synced {world : World} (positive : 0 < world.util.ntpTime)
    (sample : world.util.ntpTime - world.util.systemRunTime = world.clocks.bootTime) :
    Correct (world, true) ↔ ClockHelps (world, true) := by
  have answer : Correct (world, true) ↔ |world.getTime - world.clocks.trueTime| ≤ limit :=
    ⟨fun correct => correct.synced rfl, fun within => ⟨fun _ => within, by simp⟩⟩
  have helps : ClockHelps (world, true) ↔
      limit < |world.util.ntpTime - world.clocks.currentTimeMillis| ∨
        |world.clocks.currentTimeMillis - world.clocks.trueTime| ≤ limit :=
    ⟨fun helps => helps.synced rfl, fun helps => ⟨fun _ => helps, by simp⟩⟩
  rw [answer, helps]
  by_cases far : limit < |world.util.ntpTime - world.clocks.currentTimeMillis|
  · have exactly : world.getTime = world.clocks.trueTime := by
      rw [getTime_of_far positive.ne' far]
      rw [Clocks.bootTime] at sample
      omega
    refine iff_of_true ?_ (Or.inl far)
    simp [exactly, limit]
  · rw [getTime_of_near (Or.inr (not_lt.1 far)), or_iff_right far]

theorem correct_iff_of_unsynced {world : World} (unmoved : world.util.systemRunTime = 0) :
    Correct (world, false) ↔ ClockHelps (world, false) := by
  have answer : Correct (world, false) ↔ world.getTime = world.clocks.currentTimeMillis :=
    ⟨fun correct => correct.unsynced rfl, fun local' => ⟨by simp, fun _ => local'⟩⟩
  have helps : ClockHelps (world, false) ↔
      world.util.ntpTime = 0 ∨
        |world.util.ntpTime - world.clocks.currentTimeMillis| ≤ limit ∨
        world.clocks.currentTimeMillis = world.util.ntpTime + world.clocks.elapsedRealtime :=
    ⟨fun helps => helps.unsynced rfl, fun helps => ⟨by simp, fun _ => helps⟩⟩
  rw [answer, helps, ← or_assoc]
  by_cases near : world.util.ntpTime = 0 ∨
      |world.util.ntpTime - world.clocks.currentTimeMillis| ≤ limit
  · exact iff_of_true (getTime_of_near near) (Or.inl near)
  · rw [or_iff_right near]
    rw [not_or, not_le] at near
    rw [getTime_of_far near.1 near.2, unmoved, sub_zero]
    exact eq_comm

theorem correct_iff_of_stored {state : World × Bool} (stored : Stored state) :
    Correct state ↔ ClockHelps state := by
  rcases state with ⟨world, synced⟩
  cases synced with
  | true => exact correct_iff_of_synced (stored.synced rfl).1 (stored.synced rfl).2
  | false => exact correct_iff_of_unsynced (stored.unsynced rfl)

/-! ## What is stored in a run -/

/-- The loop stores a true time with its time since boot if a server answers, and else nothing. -/
theorem requestPool_spec (requestTime : RequestTime) (servers : List JString) (world : World) :
    (World.requestPool requestTime servers world).1.clocks.bootTime = world.clocks.bootTime ∧
      (World.requestPool requestTime servers world).1.util =
        if (World.requestPool requestTime servers world).2 then
          ⟨(World.requestPool requestTime servers world).1.clocks.trueTime,
            (World.requestPool requestTime servers world).1.clocks.elapsedRealtime⟩
        else world.util := by
  induction servers generalizing world with
  | nil => simp [World.requestPool]
  | cons server servers ih =>
      simp only [World.requestPool]
      split
      · simp
      · have later := ih { world with clocks := world.clocks.pass (requestTime server).1 }
        simpa using later

theorem stored_synchronise {world : World} {synced : Bool} (stored : Stored (world, synced))
    (requestTime : RequestTime) :
    Stored ((world.synchronise requestTime).1, synced || (world.synchronise requestTime).2) := by
  rcases requestPool_spec requestTime NTP_POOL world with ⟨boot, util⟩
  simp only [World.synchronise]
  generalize World.requestPool requestTime NTP_POOL world = requested at boot util
  rcases requested with ⟨after, succeeded⟩
  cases succeeded with
  | true =>
      have positive := after.clocks.afterEpoch
      simp only [if_true] at util
      constructor
      · intro _
        simp [util, not_le.2 positive, positive, Clocks.bootTime]
      · simp
  | false =>
      simp only [Bool.false_eq_true, if_false] at util
      constructor
      · intro already
        have sample := stored.synced (by simpa using already)
        simp only [util, boot, not_le.2 sample.1, if_false]
        exact sample
      · intro never
        have unmoved := stored.unsynced (by simpa using never)
        simp only [util]
        exact unmoved

theorem stored_of_unchanged {before after : World} {synced : Bool}
    (stored : Stored (before, synced)) (util : after.util = before.util)
    (boot : after.clocks.bootTime = before.clocks.bootTime) : Stored (after, synced) := by
  constructor
  · intro already
    simp only [util, boot]
    exact stored.synced already
  · intro never
    simp only [util]
    exact stored.unsynced never

theorem stored_observed {state : World × Bool} (stored : Stored state) (input : Input) :
    Stored (Machine.observed react observe state input).1 := by
  rcases state with ⟨world, synced⟩
  have unchanged : Stored (world, synced || false) := by rwa [Bool.or_false]
  cases input with
  | pass millis => exact stored_of_unchanged unchanged rfl (Clocks.bootTime_pass _ _)
  | setClock millis => exact stored_of_unchanged unchanged rfl rfl
  | getNTPTime requestTime => exact stored_synchronise stored requestTime
  | getNTPTimeAsync =>
      simp only [Machine.observed, react, observe]
      split
      · exact unchanged
      · exact stored_of_unchanged unchanged rfl rfl
  | doInBackground requestTime =>
      cases pending : world.tasks with
      | zero =>
          simp only [Machine.observed, react, observe, pending]
          exact unchanged
      | succ tasks =>
          simp only [Machine.observed, react, observe, pending]
          apply stored_synchronise
          exact stored_of_unchanged stored rfl rfl

theorem stored_run (clocks : Clocks) (inputs : List Input) : Stored (run clocks inputs) := by
  apply Machine.after_invariant Stored
  · exact fun state input stored => stored_observed stored input
  · exact ⟨by simp, fun _ => rfl⟩

/-- At every moment of every run, `getTime` is right exactly if the local clock is far enough from
the stored time or near enough to the time which is asked for. -/
theorem getTime_correct_iff (clocks : Clocks) (inputs : List Input) :
    Correct (run clocks inputs) ↔ ClockHelps (run clocks inputs) :=
  correct_iff_of_stored (stored_run clocks inputs)

def someClocks : Clocks :=
  ⟨1600000000000, by decide, 5000, 1600000000000⟩

/-- Ten minutes after a synchronisation the clock is put back by ten minutes. -/
theorem stale_sample_not_correct :
    ¬Correct (run someClocks
      [.getNTPTime fun _ => (0, true), .pass 600000, .setClock 1600000000000]) := by
  intro correct
  have within := correct.synced rfl
  revert within
  decide

end AndroidCollection.Ntp
