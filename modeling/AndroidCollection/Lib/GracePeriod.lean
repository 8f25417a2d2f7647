import AndroidCollection.Lib.LabelledSystem
import Mathlib.Data.Set.Insert

/-!
# Grace periods

Readers enter and exit critical sections as they like. A drain waits for the readers
which are inside when it begins, and for no others. What was taken away from the readers
before a drain began is in nobody's hands when the drain has ended.
-/

universe u

namespace GracePeriod

variable {α : Type u}

inductive Event (α : Type u) where
  | enter (reader : α)
  | exit (reader : α)
  | drain
  | drained
deriving DecidableEq

/-- The readers inside, and those which a drain in progress still waits for. -/
@[ext]
structure State (α : Type u) where
  inside : Set α
  awaited : Option (Set α)

def Step (state : State α) : Option (Event α) → State α → Prop
  | some (.enter reader), next =>
      reader ∉ state.inside ∧ next = { state with inside := insert reader state.inside }
  | some (.exit reader), next =>
      reader ∈ state.inside ∧
        next = ⟨state.inside \ {reader}, state.awaited.map fun readers => readers \ {reader}⟩
  | some .drain, next =>
      state.awaited = none ∧ next = { state with awaited := some state.inside }
  | some .drained, next =>
      state.awaited = some ∅ ∧ next = { state with awaited := none }
  | none, _ => False

def system (α : Type u) : LabelledSystem (Event α) (State α) where
  initial state := state = ⟨∅, none⟩
  step := Step

/-- The last that the reader has done is to enter. -/
def InsideAfter (reader : α) (events : List (Event α)) : Prop :=
  ∃ earlier later, events = earlier ++ .enter reader :: later ∧ .exit reader ∉ later

section Events

variable {reader : α} {events between : List (Event α)} {event : Event α}
  {first last : State α}

theorem InsideAfter.of_append_singleton (inside : InsideAfter reader (events ++ [event])) :
    event = .enter reader ∨ InsideAfter reader events ∧ event ≠ .exit reader := by
  rcases inside with ⟨earlier, later, split, stays⟩
  rcases List.eq_nil_or_concat later with rfl | ⟨later, final, rfl⟩
  · exact Or.inl (List.singleton_inj.1 (List.append_inj' split rfl).2)
  · rw [List.concat_eq_append, ← List.cons_append, ← List.append_assoc] at split
    rcases List.append_inj' split rfl with ⟨same, lastSame⟩
    rcases List.singleton_inj.1 lastSame with rfl
    rw [List.concat_eq_append, List.mem_append, List.mem_singleton, not_or] at stays
    exact Or.inr ⟨⟨earlier, later, same, stays.1⟩, fun isExit => stays.2 isExit.symm⟩

/-- The state of a run remembers who is inside. -/
theorem mem_inside_of_insideAfter (run : (system α).Run ⟨∅, none⟩ events last)
    (inside : InsideAfter reader events) : reader ∈ last.inside := by
  induction run with
  | refl =>
      rcases inside with ⟨earlier, later, split, _⟩
      simp at split
  | own _ step ih => exact step.elim
  | @labelled middle last events event _ step ih =>
      rcases inside.of_append_singleton with rfl | ⟨before, stays⟩
      · rcases step with ⟨_, rfl⟩
        exact Set.mem_insert _ _
      · have insideBefore := ih before
        cases event with
        | enter other =>
            rcases step with ⟨_, rfl⟩
            exact Set.mem_insert_of_mem _ insideBefore
        | exit other =>
            rcases step with ⟨_, rfl⟩
            have different : reader ≠ other := fun same => stays (by rw [same])
            exact ⟨insideBefore, different⟩
        | drain =>
            rcases step with ⟨_, rfl⟩
            exact insideBefore
        | drained =>
            rcases step with ⟨_, rfl⟩
            exact insideBefore

/-- After a drain has begun, a reader which was inside has left or is still waited for. -/
theorem left_or_awaited (run : (system α).Run first events last)
    (awaited : ∃ readers, first.awaited = some readers ∧ reader ∈ readers) :
    .exit reader ∈ events ∨ ∃ readers, last.awaited = some readers ∧ reader ∈ readers := by
  induction run with
  | refl => exact Or.inr awaited
  | own _ step ih => exact step.elim
  | @labelled middle last events event _ step ih =>
      rcases ih with left | ⟨readers, waits, member⟩
      · exact Or.inl (List.mem_append_left _ left)
      · cases event with
        | enter other =>
            rcases step with ⟨_, rfl⟩
            exact Or.inr ⟨readers, waits, member⟩
        | exit other =>
            rcases step with ⟨_, rfl⟩
            by_cases same : reader = other
            · exact Or.inl (by simp [same])
            · exact Or.inr ⟨readers \ {other}, by simp [waits], member, same⟩
        | drain =>
            rcases step with ⟨idle, rfl⟩
            rw [waits] at idle
            cases idle
        | drained =>
            rcases step with ⟨finished, rfl⟩
            rw [waits] at finished
            rw [Option.some.inj finished] at member
            exact member.elim

theorem eq_of_run_nil (run : (system α).Run first [] last) : last = first := by
  generalize none : [] = events at run
  cases run with
  | refl => rfl
  | own _ step => exact step.elim
  | labelled => simp at none

theorem step_of_run_singleton (run : (system α).Run first [event] last) :
    Step first (some event) last := by
  rcases run.exists_step with ⟨before, after, earlier, step, rest⟩
  obtain rfl := eq_of_run_nil earlier
  obtain rfl := eq_of_run_nil rest
  exact step

/-- Between the beginning of a drain and its end, every reader has left which was inside. -/
theorem exit_mem_of_trace {before after : List (Event α)}
    (trace : (system α).Trace (before ++ .drain :: between ++ .drained :: after))
    (inside : InsideAfter reader before) : .exit reader ∈ between := by
  rcases trace with ⟨_, last, rfl, run⟩
  rcases run.split with ⟨waited, untilWaited, fromWaited⟩
  rcases untilWaited.split with ⟨start, untilStart, fromStart⟩
  rcases @LabelledSystem.Run.split _ _ _ _ _ [Event.drain] _ fromStart with
    ⟨begun, beginning, waiting⟩
  rcases @LabelledSystem.Run.split _ _ _ _ _ [Event.drained] _ fromWaited with
    ⟨finished, ending, _⟩
  rcases step_of_run_singleton beginning with ⟨_, rfl⟩
  rcases step_of_run_singleton ending with ⟨finished, _⟩
  have wasInside := mem_inside_of_insideAfter untilStart inside
  rcases left_or_awaited waiting ⟨_, rfl, wasInside⟩ with left | ⟨readers, waits, member⟩
  · exact left
  · rw [waits] at finished
    rw [Option.some.inj finished] at member
    exact member.elim

end Events

end GracePeriod
