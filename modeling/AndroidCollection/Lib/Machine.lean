import Mathlib.Data.List.Basic
import Mathlib.Tactic.Common

/-!
# Runs of a deterministic reactive machine

A machine reacts to an input in a state with a next state and an output. This
file gives the state after a list of inputs and the list of outputs, their
behaviour on concatenated inputs, and the invariant rule.

`Every` says that each step of a run satisfies a relation between the state
before the step and its input. Two such relations can be exchanged along a run
when they agree in the states of an invariant which either of them maintains. An
observer keeps a record of a run beside the machine without taking part in it.
-/

universe u v w

namespace Machine

variable {σ : Type u} {ι : Type v} {ω : Type w} (react : σ → ι → σ × ω)

def after (state : σ) (inputs : List ι) : σ :=
  inputs.foldl (fun current input => (react current input).1) state

/-- The outputs of a run, one for each input. -/
def outputs : σ → List ι → List ω
  | _, [] => []
  | state, input :: inputs => (react state input).2 :: outputs (react state input).1 inputs

variable {react}

@[simp]
theorem after_nil (state : σ) : after react state [] = state :=
  rfl

@[simp]
theorem after_cons (state : σ) (input : ι) (inputs : List ι) :
    after react state (input :: inputs) = after react (react state input).1 inputs :=
  rfl

theorem after_append (state : σ) (first second : List ι) :
    after react state (first ++ second) = after react (after react state first) second := by
  simp [after]

theorem outputs_append (state : σ) (first second : List ι) :
    outputs react state (first ++ second) =
      outputs react state first ++ outputs react (after react state first) second := by
  induction first generalizing state with
  | nil => rfl
  | cons input first ih => simp [outputs, ih]

@[simp]
theorem length_outputs (state : σ) (inputs : List ι) :
    (outputs react state inputs).length = inputs.length := by
  induction inputs generalizing state with
  | nil => rfl
  | cons input inputs ih => simp [outputs, ih]

/-- A property preserved by every reaction holds after every list of inputs. -/
theorem after_invariant (invariant : σ → Prop)
    (preserved : ∀ state input, invariant state → invariant (react state input).1)
    {state : σ} (initially : invariant state) (inputs : List ι) :
    invariant (after react state inputs) := by
  induction inputs generalizing state with
  | nil => exact initially
  | cons input inputs ih => exact ih (preserved state input initially)

variable (react) in
/-- Each step of the run satisfies the relation between its state and its input. -/
def Every (holds : σ → ι → Prop) (state : σ) (inputs : List ι) : Prop :=
  ∀ done input rest, inputs = done ++ input :: rest → holds (after react state done) input

variable {holds condition : σ → ι → Prop}

@[simp]
theorem every_nil (state : σ) : Every react holds state [] := by
  intro done input rest split
  simp at split

@[simp]
theorem every_cons (state : σ) (input : ι) (inputs : List ι) :
    Every react holds state (input :: inputs) ↔
      holds state input ∧ Every react holds (react state input).1 inputs := by
  constructor
  · intro every
    refine ⟨every [] input inputs rfl, ?_⟩
    intro done next rest split
    exact every (input :: done) next rest (by rw [split, List.cons_append])
  · rintro ⟨first, later⟩ done next rest split
    cases done with
    | nil =>
        rcases List.cons.inj split with ⟨rfl, rfl⟩
        exact first
    | cons earlier done =>
        rcases List.cons.inj split with ⟨rfl, others⟩
        exact later done next rest others

theorem every_append (state : σ) (first second : List ι) :
    Every react holds state (first ++ second) ↔
      Every react holds state first ∧ Every react holds (after react state first) second := by
  induction first generalizing state with
  | nil => simp
  | cons input first ih => simp only [List.cons_append, every_cons, ih, after_cons, and_assoc]

/-- A relation which says nothing about the states is one of the inputs. -/
theorem every_input_iff (property : ι → Prop) (state : σ) (inputs : List ι) :
    Every react (fun _ input => property input) state inputs ↔
      ∀ input ∈ inputs, property input := by
  induction inputs generalizing state with
  | nil => simp
  | cons input inputs ih => rw [every_cons, ih, List.forall_mem_cons]

/-- An invariant which the steps satisfying a condition preserve holds after a run of them. -/
theorem Every.invariant_after (invariant : σ → Prop)
    (preserved : ∀ state input, invariant state → condition state input →
      invariant (react state input).1)
    {state : σ} (initially : invariant state) {inputs : List ι}
    (every : Every react condition state inputs) : invariant (after react state inputs) := by
  induction inputs generalizing state with
  | nil => exact initially
  | cons input inputs ih =>
      rw [every_cons] at every
      exact ih (preserved state input initially every.1) every.2

/-- A relation which follows from the condition in the states of an invariant holds of every step
of a run whose steps meet the condition. -/
theorem Every.of_invariant (invariant : σ → Prop)
    (enough : ∀ state input, invariant state → condition state input → holds state input)
    (preserved : ∀ state input, invariant state → condition state input →
      invariant (react state input).1)
    {state : σ} (initially : invariant state) {inputs : List ι}
    (every : Every react condition state inputs) : Every react holds state inputs := by
  induction inputs generalizing state with
  | nil => exact every_nil state
  | cons input inputs ih =>
      rw [every_cons] at every ⊢
      refine ⟨enough state input initially every.1, ?_⟩
      exact ih (preserved state input initially every.1) every.2

/-- Along a run, a relation can be replaced by a condition with which it agrees in the states
of an invariant, when the condition maintains the invariant. -/
theorem every_iff_of_invariant (invariant : σ → Prop)
    (agree : ∀ state input, invariant state → (holds state input ↔ condition state input))
    (preserved : ∀ state input, invariant state → condition state input →
      invariant (react state input).1)
    {state : σ} (initially : invariant state) (inputs : List ι) :
    Every react holds state inputs ↔ Every react condition state inputs := by
  induction inputs generalizing state with
  | nil => simp
  | cons input inputs ih =>
      rw [every_cons, every_cons, agree state input initially]
      apply and_congr_right
      intro meets
      exact ih (preserved state input initially meets)

/-! ## States reached -/

variable (react) in
/-- Each state which the run reaches satisfies a property. -/
def Throughout (property : σ → Prop) (state : σ) (inputs : List ι) : Prop :=
  ∀ done rest, inputs = done ++ rest → property (after react state done)

theorem throughout_nil {property : σ → Prop} (state : σ) :
    Throughout react property state [] ↔ property state := by
  constructor
  · intro throughout
    exact throughout [] [] rfl
  · intro first done rest split
    rcases List.append_eq_nil_iff.1 split.symm with ⟨rfl, _⟩
    exact first

theorem throughout_cons {property : σ → Prop} (state : σ) (input : ι) (inputs : List ι) :
    Throughout react property state (input :: inputs) ↔
      property state ∧ Throughout react property (react state input).1 inputs := by
  constructor
  · intro throughout
    refine ⟨throughout [] (input :: inputs) rfl, ?_⟩
    intro done rest split
    exact throughout (input :: done) rest (by rw [split, List.cons_append])
  · rintro ⟨first, later⟩ done rest split
    cases done with
    | nil => exact first
    | cons earlier done =>
        rcases List.cons.inj split with ⟨rfl, others⟩
        exact later done rest others

/-- When a condition decides in the states of an invariant whether a step keeps a property, the
property holds throughout a run exactly when every step of the run meets the condition. Only the
inputs of the run need to be decided. -/
theorem throughout_iff_every_of_mem {property : σ → Prop} (invariant : σ → Prop)
    {inputs : List ι}
    (decides : ∀ state, ∀ input ∈ inputs, invariant state → property state →
      (property (react state input).1 ↔ condition state input))
    (preserved : ∀ state, ∀ input ∈ inputs, invariant state → condition state input →
      invariant (react state input).1)
    {state : σ} (initially : invariant state) (holds : property state) :
    Throughout react property state inputs ↔ Every react condition state inputs := by
  induction inputs generalizing state with
  | nil =>
      rw [throughout_nil]
      exact iff_of_true holds (every_nil state)
  | cons input inputs ih =>
      have first : input ∈ input :: inputs := List.mem_cons_self
      have later := fun state next (member : next ∈ inputs) =>
        decides state next (List.mem_cons_of_mem _ member)
      have laterKept := fun state next (member : next ∈ inputs) =>
        preserved state next (List.mem_cons_of_mem _ member)
      rw [throughout_cons, every_cons]
      constructor
      · rintro ⟨_, rest⟩
        have next := (decides state input first initially holds).1 (rest [] inputs rfl)
        refine ⟨next, (ih later laterKept (preserved state input first initially next) ?_).1 rest⟩
        exact rest [] inputs rfl
      · rintro ⟨meets, rest⟩
        have next := (decides state input first initially holds).2 meets
        have kept := preserved state input first initially meets
        exact ⟨holds, (ih later laterKept kept next).2 rest⟩

theorem throughout_iff_every {property : σ → Prop} (invariant : σ → Prop)
    (decides : ∀ state input, invariant state → property state →
      (property (react state input).1 ↔ condition state input))
    (preserved : ∀ state input, invariant state → condition state input →
      invariant (react state input).1)
    {state : σ} (initially : invariant state) (holds : property state) (inputs : List ι) :
    Throughout react property state inputs ↔ Every react condition state inputs :=
  throughout_iff_every_of_mem invariant (fun state input _ => decides state input)
    (fun state input _ => preserved state input) initially holds

/-- The direction of `throughout_iff_every` in which the condition is enough. -/
theorem throughout_of_every (property : σ → Prop)
    (preserved : ∀ state input, property state → condition state input →
      property (react state input).1)
    {state : σ} (holds : property state) {inputs : List ι}
    (every : Every react condition state inputs) : Throughout react property state inputs := by
  induction inputs generalizing state with
  | nil => exact (throughout_nil state).2 holds
  | cons input inputs ih =>
      rw [every_cons] at every
      rw [throughout_cons]
      exact ⟨holds, ih (preserved state input holds every.1) every.2⟩

/-! ## Observers -/

variable {μ : Type*} (react) in
/-- The machine together with an observer, which sees each state, input and output. -/
def observed (observe : μ → σ → ι → ω → μ) : σ × μ → ι → (σ × μ) × ω
  | (state, record), input =>
      (((react state input).1, observe record state input (react state input).2),
        (react state input).2)

end Machine
