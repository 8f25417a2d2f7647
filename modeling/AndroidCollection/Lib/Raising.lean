import Mathlib.Logic.Basic

/-!
# Computations which raise

A computation on a state ends with a value or with an exception, and the state
keeps what has happened up to there. Its contract has a precondition and two
postconditions, one for each way to end. There is a rule for each construct:
sequences, assignments, calls whose outcome comes from outside, handlers, final
actions and loops over a list.

A final action is run whichever way the computation before it ends, and an
exception of its own takes the place of the earlier end.
-/

universe u

abbrev Raising (ε σ : Type u) :=
  ExceptT ε (StateM σ)

namespace Raising

variable {ε σ α β : Type u}

/-- How a computation ends, and the state which it leaves. -/
def outcome (program : Raising ε σ α) (state : σ) : Except ε α × σ :=
  program.run.run state

section Outcomes

variable (program : Raising ε σ α) (state : σ)

@[simp]
theorem outcome_pure (value : α) :
    outcome (pure value : Raising ε σ α) state = (.ok value, state) :=
  rfl

@[simp]
theorem outcome_throw (exception : ε) :
    outcome (throw exception : Raising ε σ α) state = (.error exception, state) :=
  rfl

@[simp]
theorem outcome_modify (change : σ → σ) :
    outcome (modify change : Raising ε σ PUnit) state = (.ok .unit, change state) :=
  rfl

@[simp]
theorem outcome_get : outcome (get : Raising ε σ σ) state = (.ok state, state) :=
  rfl

@[simp]
theorem outcome_liftExcept (answer : Except ε α) :
    outcome (liftExcept answer : Raising ε σ α) state = (answer, state) := by
  cases answer <;> rfl

theorem outcome_bind (next : α → Raising ε σ β) :
    outcome (program >>= next) state =
      match outcome program state with
      | (.ok value, later) => outcome (next value) later
      | (.error exception, later) => (.error exception, later) := by
  rcases ended : outcome program state with ⟨exception | value, later⟩
  all_goals
    simp only [outcome] at ended
    simp only [outcome, ExceptT.run_bind, StateT.run_bind, ended]
    rfl

theorem outcome_tryCatch (handler : ε → Raising ε σ α) :
    outcome (tryCatch program handler) state =
      match outcome program state with
      | (.ok value, later) => (.ok value, later)
      | (.error exception, later) => outcome (handler exception) later := by
  rcases ended : outcome program state with ⟨exception | value, later⟩
  all_goals
    change StateT.run program state = _ at ended
    change StateT.run (ExceptT.tryCatch program handler) state = _
    simp only [ExceptT.tryCatch, StateT.run_bind, ended, ExceptT.mk]
    rfl

theorem outcome_tryFinally (last : Raising ε σ PUnit) :
    outcome (tryFinally program last) state =
      match outcome program state with
      | (ended, later) =>
        match outcome last later with
        | (.ok _, final) => (ended, final)
        | (.error exception, final) => (.error exception, final) := by
  rcases ended : outcome program state with ⟨exception | value, later⟩
  all_goals
    rcases finished : outcome last later with ⟨other | nothing, final⟩
    all_goals
      change program state = _ at ended
      change last later = _ at finished
      simp only [outcome, tryFinally, tryFinally', StateT.run, ExceptT.run, ExceptT.mk, bind,
        StateT.bind, Functor.map, ExceptT.map, ended, finished]
      rfl

end Outcomes

/-! ## Contracts -/

/-- From a state with the precondition the computation ends with one of its postconditions. -/
def Meets (before : σ → Prop) (program : Raising ε σ α) (after : α → σ → Prop)
    (raised : ε → σ → Prop) : Prop :=
  ∀ state, before state →
    match outcome program state with
    | (.ok value, later) => after value later
    | (.error exception, later) => raised exception later

section Rules

variable {before : σ → Prop} {program : Raising ε σ α} {after : α → σ → Prop}
  {raised : ε → σ → Prop}

theorem Meets.of_ok (meets : Meets before program after raised) {state later : σ} {value : α}
    (holds : before state) (ended : outcome program state = (.ok value, later)) :
    after value later := by
  have reached := meets state holds
  rw [ended] at reached
  exact reached

theorem Meets.of_error (meets : Meets before program after raised) {state later : σ}
    {exception : ε} (holds : before state)
    (ended : outcome program state = (.error exception, later)) : raised exception later := by
  have reached := meets state holds
  rw [ended] at reached
  exact reached

theorem Meets.pure {value : α} (holds : ∀ state, before state → after value state) :
    Meets before (pure value) after raised :=
  holds

theorem Meets.throw {exception : ε} (holds : ∀ state, before state → raised exception state) :
    Meets before (throw exception) after raised :=
  holds

theorem Meets.modify {change : σ → σ} {after : PUnit → σ → Prop}
    (holds : ∀ state, before state → after .unit (change state)) :
    Meets before (modify change) after raised :=
  holds

/-- A call which leaves the state alone: what it answers comes from outside. -/
theorem Meets.liftExcept {answer : Except ε α}
    (returned : ∀ value, answer = .ok value → ∀ state, before state → after value state)
    (refused : ∀ exception, answer = .error exception →
      ∀ state, before state → raised exception state) :
    Meets before (liftExcept answer) after raised := by
  intro state holds
  rw [outcome_liftExcept]
  cases answer with
  | ok value => exact returned value rfl state holds
  | error exception => exact refused exception rfl state holds

theorem Meets.bind {between : α → σ → Prop} {next : α → Raising ε σ β} {after : β → σ → Prop}
    (first : Meets before program between raised)
    (second : ∀ value, Meets (between value) (next value) after raised) :
    Meets before (program >>= next) after raised := by
  intro state holds
  rw [outcome_bind]
  rcases ended : outcome program state with ⟨exception | value, later⟩
  · exact first.of_error holds ended
  · exact second value later (first.of_ok holds ended)

theorem Meets.tryCatch {handler : ε → Raising ε σ α} {caught : ε → σ → Prop}
    (guarded : Meets before program after caught)
    (handled : ∀ exception, Meets (caught exception) (handler exception) after raised) :
    Meets before (tryCatch program handler) after raised := by
  intro state holds
  rw [outcome_tryCatch]
  rcases ended : outcome program state with ⟨exception | value, later⟩
  · exact handled exception later (guarded.of_error holds ended)
  · exact guarded.of_ok holds ended

theorem Meets.tryFinally {last : Raising ε σ PUnit} {between : α → σ → Prop}
    {failed : ε → σ → Prop} (guarded : Meets before program between failed)
    (onReturn : ∀ value, Meets (between value) last (fun _ => after value) raised)
    (onRaise : ∀ exception, Meets (failed exception) last (fun _ => raised exception) raised) :
    Meets before (tryFinally program last) after raised := by
  intro state holds
  rw [outcome_tryFinally]
  rcases ended : outcome program state with ⟨exception | value, later⟩
  · have reached := onRaise exception later (guarded.of_error holds ended)
    rcases finished : outcome last later with ⟨other | nothing, final⟩ <;>
      simpa only [finished] using reached
  · have reached := onReturn value later (guarded.of_ok holds ended)
    rcases finished : outcome last later with ⟨other | nothing, final⟩ <;>
      simpa only [finished] using reached

end Rules

end Raising
