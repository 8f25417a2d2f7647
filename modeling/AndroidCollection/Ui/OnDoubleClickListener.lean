import AndroidCollection.Ui.ViewClickTimes

/-!
# Double clicks

`OnDoubleClickListener` compares a click with the one before it, through an array of
the last two clicks. The array is static: all listeners share it, so the click before
may have been on another view. A new array is full of zeros, and thus booting is a
click as well. A double click sets the array to null, and nothing replaces it: each
later click on any listener throws. The condition below therefore allows no click
after a double click.

The callback of a double click is taken to return, and the two readings of the clock
during a click to agree.
-/

namespace AndroidCollection.Ui.OnDoubleClickListener

def DURATION : Int64 := 100

structure Hits where
  first : Int64
  second : Int64

/-- The static field, with the array which the class is loaded with. -/
def loaded : Option Hits :=
  some ⟨0, 0⟩

inductive Outcome where
  | nullPointerException
  | ignored
  | doubleClick
deriving DecidableEq, Repr

/-- A click moves the second entry to the front and puts its time behind it. -/
def checkTimes : Option Hits → Uptime → Option Hits × Outcome
  | none, _ => (none, .nullPointerException)
  | some mHits, uptime =>
      let mHits : Hits := ⟨mHits.second, uptime.time⟩
      if uptime.time - mHits.first ≤ DURATION then (none, .doubleClick)
      else (some mHits, .ignored)

structure Click (Listener : Type) where
  listener : Listener
  uptime : Uptime

section Listeners

variable {Listener : Type}

/-- The array is the same for all listeners. -/
def onClick (mHits : Option Hits) (click : Click Listener) : Option Hits × Outcome :=
  checkTimes mHits click.uptime

/-! ## What each listener should do -/

/-- What an observer of all clicks remembers. -/
structure Seen (Listener : Type) where
  /-- The previous click on a listener, unless it was part of a double click. -/
  pending : Listener → Option Uptime
  /-- The previous click on any listener, or the time of booting. -/
  latest : Uptime
  fired : Bool

def Seen.start : Seen Listener :=
  ⟨fun _ => none, ⟨0, by decide⟩, false⟩

def observe [DecidableEq Listener] (seen : Seen Listener) (_ : Option Hits)
    (click : Click Listener) (outcome : Outcome) : Seen Listener where
  pending := Function.update seen.pending click.listener
    (if outcome = .doubleClick then none else some click.uptime)
  latest := click.uptime
  fired := seen.fired || outcome = .doubleClick

def Quick (earlier later : Uptime) : Prop :=
  later.time.toInt - earlier.time.toInt ≤ 100

instance (earlier later : Uptime) : Decidable (Quick earlier later) :=
  inferInstanceAs (Decidable (_ ≤ _))

/-- The click follows quickly on one which the same listener has not used yet. -/
def IsDouble (seen : Seen Listener) (click : Click Listener) : Prop :=
  ∃ own, seen.pending click.listener = some own ∧ Quick own click.uptime

def Detects : Option Hits × Seen Listener → Click Listener → Prop
  | (mHits, seen), click =>
      (onClick mHits click).2 ≠ .nullPointerException ∧
        ((onClick mHits click).2 = .doubleClick ↔ IsDouble seen click)

/-- There has been no double click, and neither booting nor a click on another listener was so
recent that it is taken for the first half of one. -/
def Alone : Option Hits × Seen Listener → Click Listener → Prop
  | (_, seen), click =>
      seen.fired = false ∧ (Quick seen.latest click.uptime → IsDouble seen click)

/-! ## The shared array -/

/-- The array ends with the latest click until it is discarded. -/
def Follows (mHits : Option Hits) (seen : Seen Listener) : Prop :=
  if seen.fired then mHits = none else ∃ first, mHits = some ⟨first, seen.latest.time⟩

/-- The clicks of the listeners are not after the latest click. -/
def Ordered (seen : Seen Listener) : Prop :=
  ∀ listener own, seen.pending listener = some own → own.time ≤ seen.latest.time

variable {mHits : Option Hits} {seen : Seen Listener} {click : Click Listener}

theorem sub_le_iff (earlier later : Uptime) :
    later.time - earlier.time ≤ DURATION ↔ Quick earlier later := by
  have earlierNonneg := earlier.toInt_nonneg
  have laterNonneg := later.toInt_nonneg
  have earlierLess := earlier.time.toInt_lt
  have laterLess := later.time.toInt_lt
  have within : (later.time - earlier.time).toInt =
      later.time.toInt - earlier.time.toInt := by
    rw [Int64.toInt_sub, Int.bmod_def]
    split <;> omega
  rw [Int64.le_iff_toInt_le, within]
  rfl

theorem quick_of_isDouble (ordered : Ordered seen) (double : IsDouble seen click) :
    Quick seen.latest click.uptime := by
  rcases double with ⟨own, pending, quick⟩
  have before := Int64.le_iff_toInt_le.1 (ordered click.listener own pending)
  rw [Quick] at quick ⊢
  omega

theorem onClick_of_fired (follows : Follows mHits seen) (fired : seen.fired = true) :
    onClick mHits click = (none, .nullPointerException) := by
  rw [Follows, if_pos fired] at follows
  rw [onClick, follows, checkTimes]

theorem onClick_of_unfired (follows : Follows mHits seen) (unfired : seen.fired = false)
    (click : Click Listener) :
    (Quick seen.latest click.uptime ∧ onClick mHits click = (none, .doubleClick)) ∨
      (¬Quick seen.latest click.uptime ∧
        onClick mHits click = (some ⟨seen.latest.time, click.uptime.time⟩, .ignored)) := by
  rw [Follows, unfired, if_neg (by decide)] at follows
  rcases follows with ⟨first, rfl⟩
  rw [onClick, checkTimes, ← sub_le_iff]
  split
  · next quick => exact Or.inl ⟨quick, rfl⟩
  · next slow => exact Or.inr ⟨slow, rfl⟩

section Step

variable [DecidableEq Listener]

theorem follows_onClick (follows : Follows mHits seen) (click : Click Listener) :
    Follows (Machine.observed onClick observe (mHits, seen) click).1.1
      (Machine.observed onClick observe (mHits, seen) click).1.2 := by
  rw [Machine.observed]
  rcases Bool.eq_false_or_eq_true seen.fired with fired | unfired
  · simp [onClick_of_fired follows fired, observe, Follows, fired]
  · rcases onClick_of_unfired follows unfired click with ⟨_, eq⟩ | ⟨_, eq⟩
    · simp [eq, observe, Follows]
    · simp [eq, observe, Follows, unfired]

theorem ordered_observe (ordered : Ordered seen)
    (later : seen.latest.time ≤ click.uptime.time) (outcome : Outcome) :
    Ordered (observe seen mHits click outcome) := by
  intro listener own pending
  by_cases same : listener = click.listener
  · subst same
    simp only [observe, Function.update_self] at pending
    split at pending
    · cases pending
    · rw [← Option.some.inj pending]
      exact Int64.le_refl _
  · simp only [observe, Function.update_of_ne same] at pending
    exact Int64.le_trans (ordered listener own pending) later

end Step

theorem detects_iff_alone (follows : Follows mHits seen) (ordered : Ordered seen) :
    Detects (mHits, seen) click ↔ Alone (mHits, seen) click := by
  rw [Detects, Alone]
  rcases Bool.eq_false_or_eq_true seen.fired with fired | unfired
  · rw [onClick_of_fired follows fired]
    simp [fired]
  · rcases onClick_of_unfired follows unfired click with ⟨quick, eq⟩ | ⟨slow, eq⟩
    · simp [eq, unfired, quick]
    · have single := mt (quick_of_isDouble ordered) slow
      simp [eq, unfired, slow, single]

/-! ## Runs -/

variable [DecidableEq Listener]

theorem every_detects_iff (follows : Follows mHits seen) (ordered : Ordered seen)
    {clicks : List (Click Listener)}
    (later : ∀ click ∈ clicks, seen.latest.time ≤ click.uptime.time)
    (sorted : clicks.Pairwise fun earlier later => earlier.uptime.time ≤ later.uptime.time) :
    Machine.Every (Machine.observed onClick observe) Detects (mHits, seen) clicks ↔
      Machine.Every (Machine.observed onClick observe) Alone (mHits, seen) clicks := by
  induction clicks generalizing mHits seen with
  | nil => exact iff_of_true (Machine.every_nil _) (Machine.every_nil _)
  | cons click clicks ih =>
      rcases List.pairwise_cons.1 sorted with ⟨first, sorted⟩
      rw [Machine.every_cons, Machine.every_cons, detects_iff_alone follows ordered]
      apply and_congr_right
      intro _
      exact ih (follows_onClick follows click)
        (ordered_observe ordered (later click List.mem_cons_self) _) first sorted

/-- For clicks in the order of time, all of them are treated rightly exactly when there is no
click after a double click and none is mistaken for one. -/
theorem detects_iff (clicks : List (Click Listener))
    (sorted : clicks.Pairwise fun earlier later => earlier.uptime.time ≤ later.uptime.time) :
    Machine.Every (Machine.observed onClick observe) Detects (loaded, Seen.start) clicks ↔
      Machine.Every (Machine.observed onClick observe) Alone (loaded, Seen.start) clicks := by
  apply every_detects_iff
  · exact ⟨0, rfl⟩
  · intro listener own pending
    cases pending
  · intro click _
    exact click.uptime.nonnegative
  · exact sorted

end Listeners

/-- Two clicks on one of two listeners, shortly after a click on the other, which is not so quick
that it counts. -/
theorem detects_two :
    Machine.Every (Machine.observed onClick observe) Detects (loaded, Seen.start)
      [⟨false, ⟨5000, by decide⟩⟩, ⟨true, ⟨5200, by decide⟩⟩, ⟨true, ⟨5250, by decide⟩⟩] := by
  apply (detects_iff _ (by simp)).2
  simp only [Machine.every_cons, Machine.every_nil]
  refine ⟨⟨rfl, ?_⟩, ⟨rfl, ?_⟩, ⟨rfl, ?_⟩, trivial⟩
  · intro quick
    exact absurd quick (by decide)
  · intro quick
    exact absurd quick (by decide)
  · intro _
    exact ⟨⟨5200, by decide⟩, rfl, by decide⟩

theorem not_detects_after_double :
    ¬Machine.Every (Machine.observed onClick observe) Detects (loaded, Seen.start)
      [⟨(), ⟨5000, by decide⟩⟩, ⟨(), ⟨5050, by decide⟩⟩, ⟨(), ⟨9000, by decide⟩⟩] := by
  intro every
  have third := every [⟨(), ⟨5000, by decide⟩⟩, ⟨(), ⟨5050, by decide⟩⟩]
    ⟨(), ⟨9000, by decide⟩⟩ [] rfl
  exact third.1 rfl

end AndroidCollection.Ui.OnDoubleClickListener
