import AndroidCollection.Lib.Machine
import AndroidCollection.Lib.SlidingWindow
import Mathlib.Algebra.Group.Int.Defs
import Mathlib.Data.List.GetD

/-!
# Counting clicks

`ViewClickTimes` keeps the times of the latest clicks in an array and runs its action
when the first entry is recent enough. The array is made by a field initialiser, which
runs before the body of the constructor, so it has five entries whatever the
constructor is given. Only the array which replaces it at the first firing has as many
entries as clicks are asked for. Each new array is full of zeros, and these count as
clicks at the time of booting.

The two readings of the clock during a click are taken to agree. Fewer than one click
cannot be asked for: the array which a firing makes would be empty.
-/

universe u

namespace AndroidCollection.Ui

open SlidingWindow

/-- The milliseconds since booting, as the clock gives them. -/
structure Uptime where
  time : Int64
  nonnegative : 0 ≤ time

theorem Uptime.toInt_nonneg (uptime : Uptime) : 0 ≤ uptime.time.toInt :=
  Int64.le_iff_toInt_le.1 uptime.nonnegative

structure ViewClickTimes (Runnable : Type u) where
  counts : Int32
  duration : Int64
  mHits : List Int64
  action : Option Runnable
  counted : 0 < counts
  nonempty : mHits ≠ []

namespace ViewClickTimes

variable {Runnable : Type u}

def newLongs (length : Int32) : List Int64 :=
  List.replicate length.toNatClampNeg 0

theorem newLongs_ne_nil {length : Int32} (positive : 0 < length) : newLongs length ≠ [] := by
  have positive := Int32.lt_iff_toInt_lt.1 positive
  simp only [newLongs, ne_eq, List.replicate_eq_nil_iff, Int32.toNatClampNeg]
  change 0 < length.toInt at positive
  omega

/-- The constructor. The field initialisers give the array five entries. -/
def construct (counts : Int32) (duration : Int64) (counted : 0 < counts) :
    ViewClickTimes Runnable where
  counts := counts
  duration := duration
  mHits := newLongs 5
  action := none
  counted := counted
  nonempty := newLongs_ne_nil (by decide)

def setAction (view : ViewClickTimes Runnable) (action : Runnable) : ViewClickTimes Runnable :=
  { view with action := some action }

def checkTimes (view : ViewClickTimes Runnable) (uptime : Uptime) :
    ViewClickTimes Runnable × Option Runnable :=
  let mHits := push view.mHits uptime.time
  if uptime.time - view.duration ≤ mHits.head (by simp [mHits, push]) then
    ({ view with mHits := newLongs view.counts, nonempty := newLongs_ne_nil view.counted },
      view.action)
  else ({ view with mHits := mHits, nonempty := by simp [mHits, push] }, none)

/-! ## The clicks since the last firing -/

/-- What an observer of the clicks remembers. -/
structure Clicks where
  /-- The clicks since the last firing, the latest one first. -/
  since : List Uptime
  fired : Bool

def Clicks.none : Clicks :=
  ⟨[], false⟩

def observe (clicks : Clicks) (_ : ViewClickTimes Runnable) (uptime : Uptime)
    (run : Option Runnable) : Clicks :=
  if run.isSome then ⟨[], true⟩ else ⟨uptime :: clicks.since, clicks.fired⟩

/-- There have been so many clicks, and the last of them lie within the duration. -/
def LastWithin (count : ℕ) (duration : Int64) (since : List Uptime) (uptime : Uptime) : Prop :=
  ∃ first, (uptime :: since)[count - 1]? = some first ∧
    uptime.time.toInt - first.time.toInt ≤ duration.toInt

variable (counts : Int32) (duration : Int64)

instance (count : ℕ) (duration : Int64) (since : List Uptime) (uptime : Uptime) :
    Decidable (LastWithin count duration since uptime) :=
  decidable_of_iff
    ((uptime :: since)[count - 1]?.any fun first =>
      decide (uptime.time.toInt - first.time.toInt ≤ duration.toInt)) (by
    simp only [LastWithin, Option.any_eq_true, decide_eq_true_eq])

/-- The action is run exactly if it is due. -/
def FiresRightly : ViewClickTimes Runnable × Clicks → Uptime → Prop
  | (view, clicks), uptime =>
      (view.checkTimes uptime).2.isSome = true ↔
        LastWithin counts.toNatClampNeg duration clicks.since uptime

/-- The five entries of the first array, and the zeros of each, make no difference to a click, and
the subtraction does not overflow. -/
def Regular : ViewClickTimes Runnable × Clicks → Uptime → Prop
  | (_, clicks), uptime =>
      let clicked := clicks.since.length + 1
      uptime.time.toInt - duration.toInt < 2 ^ 63 ∧
        if clicks.fired then
          counts.toNatClampNeg ≤ clicked ∨ duration < uptime.time
        else if 5 ≤ clicked then
          LastWithin 5 duration clicks.since uptime ↔
            LastWithin counts.toNatClampNeg duration clicks.since uptime
        else if uptime.time ≤ duration then
          counts.toNatClampNeg ≤ clicked
        else ¬LastWithin counts.toNatClampNeg duration clicks.since uptime

/-! ## The array as a window on the clicks -/

def windowSize (clicks : Clicks) : ℕ :=
  if clicks.fired then counts.toNatClampNeg else 5

def firstEntry (clicks : Clicks) (uptime : Uptime) : Int64 :=
  ((uptime :: clicks.since).map Uptime.time).getD (windowSize counts clicks - 1) 0

/-- The array holds the latest clicks since the last firing. -/
structure Follows (action : Runnable) (view : ViewClickTimes Runnable) (clicks : Clicks) :
    Prop where
  counts_eq : view.counts = counts
  duration_eq : view.duration = duration
  action_eq : view.action = some action
  hits : view.mHits = window (windowSize counts clicks) 0 (clicks.since.map Uptime.time)

variable {counts duration} {action : Runnable} {view : ViewClickTimes Runnable} {clicks : Clicks}

theorem toNatClampNeg_pos (counted : 0 < counts) : 0 < counts.toNatClampNeg := by
  have counted := Int32.lt_iff_toInt_lt.1 counted
  change 0 < counts.toInt at counted
  rw [Int32.toNatClampNeg]
  omega

theorem windowSize_pos (counted : 0 < counts) : 0 < windowSize counts clicks := by
  rw [windowSize]
  split
  · exact toNatClampNeg_pos counted
  · decide

theorem follows_construct (counted : 0 < counts) :
    Follows counts duration action ((construct counts duration counted).setAction action)
      Clicks.none :=
  ⟨rfl, rfl, rfl, window_nil.symm⟩

section Step

variable (follows : Follows counts duration action view clicks) (uptime : Uptime)
include follows

theorem push_of_follows :
    push view.mHits uptime.time =
      window (windowSize counts clicks) 0 ((uptime :: clicks.since).map Uptime.time) := by
  rw [follows.hits, push_window (windowSize_pos (follows.counts_eq ▸ view.counted))]
  rfl

theorem follows_checkTimes :
    Follows counts duration action (Machine.observed checkTimes observe (view, clicks) uptime).1.1
      (Machine.observed checkTimes observe (view, clicks) uptime).1.2 := by
  rw [Machine.observed, checkTimes]
  split
  · refine ⟨follows.counts_eq, follows.duration_eq, follows.action_eq, ?_⟩
    simp only [observe, follows.action_eq, Option.isSome_some, if_true, windowSize, List.map_nil,
      window_nil, newLongs, follows.counts_eq]
  · exact ⟨follows.counts_eq, follows.duration_eq, follows.action_eq,
      push_of_follows follows uptime⟩

theorem isSome_checkTimes :
    (view.checkTimes uptime).2.isSome = true ↔
      uptime.time - duration ≤ firstEntry counts clicks uptime := by
  have nonempty : push view.mHits uptime.time ≠ [] := by simp [push]
  have first : (push view.mHits uptime.time).head nonempty = firstEntry counts clicks uptime := by
    apply Option.some.inj
    rw [← List.head?_eq_some_head, push_of_follows follows,
      head?_window (windowSize_pos (follows.counts_eq ▸ view.counted)), firstEntry]
  simp only [checkTimes, first, follows.duration_eq]
  split
  · next recent => simp only [follows.action_eq, Option.isSome_some, recent]
  · next old => simp only [Option.isSome_none, Bool.false_eq_true, old]

end Step

/-! ## Single clicks -/

/-- The comparison, when the subtraction may overflow. -/
theorem sub_le_iff (uptime : Uptime) (duration : Int64) {entry : Int64} (past : 0 ≤ entry) :
    uptime.time - duration ≤ entry ↔
      2 ^ 63 ≤ uptime.time.toInt - duration.toInt ∨
        uptime.time.toInt - entry.toInt ≤ duration.toInt := by
  have nonnegative := uptime.toInt_nonneg
  have past : 0 ≤ entry.toInt := Int64.le_iff_toInt_le.1 past
  have timeLess := uptime.time.toInt_lt
  have durationLess := duration.toInt_lt
  have lessDuration := duration.le_toInt
  rw [Int64.le_iff_toInt_le, Int64.toInt_sub, Int.bmod_def]
  split <;> omega

theorem sub_le_of_lastWithin {count : ℕ} {uptime : Uptime} {since : List Uptime}
    (within : LastWithin count duration since uptime) :
    uptime.time.toInt - duration.toInt < 2 ^ 63 := by
  rcases within with ⟨first, _, recent⟩
  have less := first.time.toInt_lt
  omega

/-- Booting is within the duration of each click within the duration of booting. -/
theorem lastWithin_of_early {count : ℕ} (given : 0 < count) {uptime : Uptime}
    {since : List Uptime} (early : uptime.time ≤ duration) :
    LastWithin count duration since uptime ↔ count ≤ since.length + 1 := by
  have early := Int64.le_iff_toInt_le.1 early
  constructor
  · rintro ⟨first, at_, _⟩
    have inside := (List.getElem?_eq_some_iff.1 at_).1
    simp only [List.length_cons] at inside
    omega
  · intro enough
    have inside : count - 1 < (uptime :: since).length := by
      simp only [List.length_cons]
      omega
    refine ⟨_, List.getElem?_eq_getElem inside, ?_⟩
    have nonnegative := (uptime :: since)[count - 1].toInt_nonneg
    omega

theorem firstEntry_of_few {uptime : Uptime}
    (few : clicks.since.length + 1 < windowSize counts clicks) :
    firstEntry counts clicks uptime = 0 := by
  rw [firstEntry, List.getD_eq_default]
  simp only [List.length_map, List.length_cons]
  omega

theorem firstEntry_of_enough {uptime : Uptime}
    (inside : windowSize counts clicks - 1 < (uptime :: clicks.since).length) :
    firstEntry counts clicks uptime =
      (uptime :: clicks.since)[windowSize counts clicks - 1].time := by
  rw [firstEntry, List.getD_eq_getElem _ _ (by simpa only [List.length_map] using inside),
    List.getElem_map]

theorem firstEntry_nonneg (uptime : Uptime) : 0 ≤ firstEntry counts clicks uptime := by
  rcases Nat.lt_or_ge (windowSize counts clicks - 1) (uptime :: clicks.since).length with
    inside | beyond
  · rw [firstEntry_of_enough inside]
    exact Uptime.nonnegative _
  · rw [firstEntry, List.getD_eq_default _ _ (by simpa only [List.length_map] using beyond)]
    decide

/-- Without an overflow, a full array decides whether its clicks lie within the duration. -/
theorem lastWithin_windowSize {uptime : Uptime} (given : 0 < windowSize counts clicks)
    (enough : windowSize counts clicks ≤ clicks.since.length + 1) :
    LastWithin (windowSize counts clicks) duration clicks.since uptime ↔
      uptime.time.toInt - (firstEntry counts clicks uptime).toInt ≤ duration.toInt := by
  have inside : windowSize counts clicks - 1 < (uptime :: clicks.since).length := by
    simp only [List.length_cons]
    omega
  rw [LastWithin, List.getElem?_eq_getElem inside, firstEntry_of_enough inside]
  simp only [Option.some.injEq, exists_eq_left']

theorem not_lastWithin_of_few {count : ℕ} {since : List Uptime} {uptime : Uptime}
    (few : since.length + 1 < count) : ¬LastWithin count duration since uptime := by
  rintro ⟨first, at_, _⟩
  have inside := (List.getElem?_eq_some_iff.1 at_).1
  simp only [List.length_cons] at inside
  omega

section Regularity

variable (follows : Follows counts duration action view clicks) (uptime : Uptime)
include follows

/-- As long as the array is not full, booting counts as a click. -/
theorem isSome_of_few (small : uptime.time.toInt - duration.toInt < 2 ^ 63)
    (few : clicks.since.length + 1 < windowSize counts clicks) :
    (view.checkTimes uptime).2.isSome = true ↔ uptime.time ≤ duration := by
  rw [isSome_checkTimes follows, sub_le_iff uptime duration (firstEntry_nonneg uptime),
    firstEntry_of_few few, Int64.le_iff_toInt_le]
  change _ ∨ uptime.time.toInt - 0 ≤ duration.toInt ↔ _
  omega

theorem isSome_of_enough (small : uptime.time.toInt - duration.toInt < 2 ^ 63)
    (enough : windowSize counts clicks ≤ clicks.since.length + 1) :
    (view.checkTimes uptime).2.isSome = true ↔
      LastWithin (windowSize counts clicks) duration clicks.since uptime := by
  rw [isSome_checkTimes follows, sub_le_iff uptime duration (firstEntry_nonneg uptime),
    lastWithin_windowSize (windowSize_pos (follows.counts_eq ▸ view.counted)) enough]
  omega

theorem not_firesRightly_of_overflow
    (overflow : 2 ^ 63 ≤ uptime.time.toInt - duration.toInt) :
    ¬FiresRightly counts duration (view, clicks) uptime := by
  intro right
  have fires := (isSome_checkTimes follows uptime).2
    ((sub_le_iff uptime duration (firstEntry_nonneg uptime)).2 (Or.inl overflow))
  have small := sub_le_of_lastWithin (right.1 fires)
  omega

/-- After a firing, the array has as many entries as clicks are asked for. -/
theorem firesRightly_of_fired (small : uptime.time.toInt - duration.toInt < 2 ^ 63)
    (fired : clicks.fired = true) :
    FiresRightly counts duration (view, clicks) uptime ↔
      counts.toNatClampNeg ≤ clicks.since.length + 1 ∨ duration < uptime.time := by
  have size : windowSize counts clicks = counts.toNatClampNeg := if_pos fired
  rw [FiresRightly]
  rcases Nat.lt_or_ge (clicks.since.length + 1) counts.toNatClampNeg with few | enough
  · have never : ¬LastWithin counts.toNatClampNeg duration clicks.since uptime :=
      not_lastWithin_of_few few
    rw [isSome_of_few follows uptime small (size ▸ few), iff_false_right never, Int64.not_le,
      or_iff_right (Nat.not_le.2 few)]
  · rw [isSome_of_enough follows uptime small (size ▸ enough), size]
    exact iff_of_true Iff.rfl (Or.inl enough)

theorem firesRightly_of_five (small : uptime.time.toInt - duration.toInt < 2 ^ 63)
    (unfired : clicks.fired = false) (enough : 5 ≤ clicks.since.length + 1) :
    FiresRightly counts duration (view, clicks) uptime ↔
      (LastWithin 5 duration clicks.since uptime ↔
        LastWithin counts.toNatClampNeg duration clicks.since uptime) := by
  have size : windowSize counts clicks = 5 := if_neg (by simp only [unfired, Bool.false_eq_true,
    not_false_eq_true])
  rw [FiresRightly, isSome_of_enough follows uptime small (size ▸ enough), size]

theorem firesRightly_of_fewer (small : uptime.time.toInt - duration.toInt < 2 ^ 63)
    (unfired : clicks.fired = false) (few : clicks.since.length + 1 < 5) :
    FiresRightly counts duration (view, clicks) uptime ↔
      if uptime.time ≤ duration then counts.toNatClampNeg ≤ clicks.since.length + 1
      else ¬LastWithin counts.toNatClampNeg duration clicks.since uptime := by
  have counted := toNatClampNeg_pos (follows.counts_eq ▸ view.counted)
  have size : windowSize counts clicks = 5 := if_neg (by simp only [unfired, Bool.false_eq_true,
    not_false_eq_true])
  rw [FiresRightly, isSome_of_few follows uptime small (size ▸ few)]
  split
  · next early => rw [iff_true_left early, lastWithin_of_early counted early]
  · next late => rw [iff_false_left late]

theorem firesRightly_iff_regular :
    FiresRightly counts duration (view, clicks) uptime ↔
      Regular counts duration (view, clicks) uptime := by
  rcases Int.lt_or_le (uptime.time.toInt - duration.toInt) (2 ^ 63) with small | overflow
  · simp only [Regular, small, true_and]
    split
    · next fired => exact firesRightly_of_fired follows uptime small fired
    · next unfired =>
        have unfired := Bool.eq_false_iff.2 unfired
        split
        · next enough => exact firesRightly_of_five follows uptime small unfired enough
        · next few =>
            exact firesRightly_of_fewer follows uptime small unfired (Nat.lt_of_not_le few)
  · have wrong := not_firesRightly_of_overflow follows uptime overflow
    refine iff_of_false wrong ?_
    intro regular
    have small := regular.1
    omega

end Regularity

/-! ## Runs -/

/-- All clicks of a run fire rightly exactly when they are all regular. -/
theorem firesRightly_iff (counts : Int32) (duration : Int64) (counted : 0 < counts)
    (action : Runnable) (uptimes : List Uptime) :
    let start := ((construct counts duration counted).setAction action, Clicks.none)
    Machine.Every (Machine.observed checkTimes observe) (FiresRightly counts duration) start
        uptimes ↔
      Machine.Every (Machine.observed checkTimes observe) (Regular counts duration) start
        uptimes := by
  apply Machine.every_iff_of_invariant fun state =>
    Follows counts duration action state.1 state.2
  · intro state uptime follows
    exact firesRightly_iff_regular follows uptime
  · intro state uptime follows _
    exact follows_checkTimes follows uptime
  · exact follows_construct counted

/-- The fifth of five quick clicks runs the action. -/
theorem firesRightly_five :
    Machine.Every (Machine.observed checkTimes observe) (FiresRightly 5 1000)
      ((construct 5 1000 (by decide)).setAction (), Clicks.none)
      [⟨70000, by decide⟩, ⟨70100, by decide⟩, ⟨70200, by decide⟩, ⟨70300, by decide⟩,
        ⟨70400, by decide⟩] := by
  apply (firesRightly_iff 5 1000 (by decide) () _).2
  simp only [Machine.every_cons, Machine.every_nil]
  refine ⟨?_, ?_, ?_, ?_, ?_, trivial⟩
  all_goals exact ⟨by decide, by decide⟩

/-- The third of three quick clicks does not run the action, since the array has five entries. -/
theorem not_firesRightly_three :
    ¬Machine.Every (Machine.observed checkTimes observe) (FiresRightly 3 1000)
      ((construct 3 1000 (by decide)).setAction (), Clicks.none)
      [⟨70000, by decide⟩, ⟨70100, by decide⟩, ⟨70200, by decide⟩] := by
  intro every
  have third := every [⟨70000, by decide⟩, ⟨70100, by decide⟩] ⟨70200, by decide⟩ [] rfl
  exact absurd (third.2 (by decide)) (by decide)

end ViewClickTimes

end AndroidCollection.Ui
