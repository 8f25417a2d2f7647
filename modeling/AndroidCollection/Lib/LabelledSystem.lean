import Mathlib.Logic.Relation
import Mathlib.Tactic.Common

/-!
# Labelled systems

A step of a labelled system either carries a label, and then it is visible to others,
or it is a step of its own. Two systems which run in parallel take the labelled steps
together and the others one at a time.

A simulation relates the states of a system to those of another one which takes the
same labelled steps. It carries the traces over, and so what is known of them, and it
can be applied to one part of a parallel composition.
-/

universe u v w

structure LabelledSystem (ι : Type u) (σ : Type v) where
  initial : σ → Prop
  step : σ → Option ι → σ → Prop

namespace LabelledSystem

variable {ι : Type u} {σ : Type v} {τ : Type w}

/-- The labels of a run, in their order. -/
inductive Run (system : LabelledSystem ι σ) (first : σ) : List ι → σ → Prop where
  | refl : Run system first [] first
  | own {middle last : σ} {labels : List ι} : Run system first labels middle →
      system.step middle none last → Run system first labels last
  | labelled {middle last : σ} {labels : List ι} {label : ι} :
      Run system first labels middle → system.step middle (some label) last →
      Run system first (labels ++ [label]) last

def Reachable (system : LabelledSystem ι σ) (state : σ) : Prop :=
  ∃ first labels, system.initial first ∧ system.Run first labels state

def Trace (system : LabelledSystem ι σ) (labels : List ι) : Prop :=
  ∃ first last, system.initial first ∧ system.Run first labels last

/-- The steps which lead to an allowed state. -/
def within (system : LabelledSystem ι σ) (allowed : σ → Prop) : LabelledSystem ι σ where
  initial := system.initial
  step state label next := system.step state label next ∧ allowed next

/-- Both systems take the labelled steps. -/
def parallel (left : LabelledSystem ι σ) (right : LabelledSystem ι τ) :
    LabelledSystem ι (σ × τ) where
  initial state := left.initial state.1 ∧ right.initial state.2
  step state label next :=
    match label with
    | some label =>
        left.step state.1 (some label) next.1 ∧ right.step state.2 (some label) next.2
    | none =>
        left.step state.1 none next.1 ∧ next.2 = state.2 ∨
          next.1 = state.1 ∧ right.step state.2 none next.2

section Runs

variable {system : LabelledSystem ι σ} {first middle last : σ} {labels later : List ι}

/-- A property which every step preserves holds at the end of a run. -/
theorem Run.invariant (property : σ → Prop)
    (preserved : ∀ state label next, property state → system.step state label next →
      property next)
    (initially : property first) (run : system.Run first labels last) : property last := by
  induction run with
  | refl => exact initially
  | own _ step ih => exact preserved _ _ _ ih step
  | labelled _ step ih => exact preserved _ _ _ ih step

theorem Reachable.invariant (property : σ → Prop)
    (initially : ∀ state, system.initial state → property state)
    (preserved : ∀ state label next, property state → system.step state label next →
      property next)
    (reachable : system.Reachable last) : property last := by
  rcases reachable with ⟨first, labels, initial, run⟩
  exact run.invariant property preserved (initially first initial)

theorem Reachable.step {label : Option ι} (reachable : system.Reachable middle)
    (step : system.step middle label last) : system.Reachable last := by
  rcases reachable with ⟨first, labels, initial, run⟩
  cases label with
  | none => exact ⟨first, labels, initial, run.own step⟩
  | some label => exact ⟨first, labels ++ [label], initial, run.labelled step⟩

theorem Run.reachable (run : system.Run middle labels last) (reachable : system.Reachable middle) :
    system.Reachable last :=
  run.invariant system.Reachable (fun _ _ _ before step => before.step step) reachable

theorem Run.trans (run : system.Run first labels middle) (rest : system.Run middle later last) :
    system.Run first (labels ++ later) last := by
  induction rest with
  | refl => rwa [List.append_nil]
  | own _ step ih => exact ih.own step
  | labelled _ step ih =>
      rw [← List.append_assoc]
      exact ih.labelled step

theorem Run.of_within {allowed : σ → Prop} (run : (system.within allowed).Run first labels last) :
    system.Run first labels last := by
  induction run with
  | refl => exact .refl
  | own _ step ih => exact ih.own step.1
  | labelled _ step ih => exact ih.labelled step.1

theorem Run.allowed {allowed : σ → Prop} (run : (system.within allowed).Run first labels last)
    (initially : allowed first) : allowed last :=
  run.invariant allowed
    (fun _ _ _ _ (step : (system.within allowed).step _ _ _) => step.2) initially

/-- A run passes through a state between any two of its labels. -/
theorem Run.split (run : system.Run first (labels ++ later) last) :
    ∃ middle, system.Run first labels middle ∧ system.Run middle later last := by
  generalize whole : labels ++ later = all at run
  induction run generalizing later with
  | refl =>
      rcases List.append_eq_nil_iff.1 whole with ⟨rfl, rfl⟩
      exact ⟨first, .refl, .refl⟩
  | own _ step ih =>
      rcases ih whole with ⟨middle, before, after⟩
      exact ⟨middle, before, after.own step⟩
  | @labelled _ last before label runBefore step ih =>
      rcases List.eq_nil_or_concat later with rfl | ⟨rest, final, rfl⟩
      · rw [List.append_nil] at whole
        subst whole
        exact ⟨last, runBefore.labelled step, .refl⟩
      · rw [List.concat_eq_append, ← List.append_assoc] at whole
        rcases List.append_inj' whole rfl with ⟨rfl, same⟩
        rcases List.singleton_inj.1 same with rfl
        rcases ih rfl with ⟨middle, done, todo⟩
        exact ⟨middle, done, by simpa using todo.labelled step⟩

theorem Run.exists_step {label : ι} (run : system.Run first [label] last) :
    ∃ before after, system.Run first [] before ∧ system.step before (some label) after ∧
      system.Run after [] last := by
  generalize whole : [label] = all at run
  induction run with
  | refl => cases whole
  | own _ step ih =>
      rcases ih whole with ⟨before, after, earlier, taken, rest⟩
      exact ⟨before, after, earlier, taken, rest.own step⟩
  | @labelled before last done final runBefore step ih =>
      cases done with
      | nil =>
          rcases List.singleton_inj.1 whole with rfl
          exact ⟨before, last, runBefore, step, .refl⟩
      | cons => simp at whole

end Runs

/-- The second system takes the steps of the first one, except for steps which are its own. -/
structure Simulation (system : LabelledSystem ι σ) (other : LabelledSystem ι τ)
    (relation : σ → τ → Prop) : Prop where
  initial : ∀ state, system.initial state → ∃ image, other.initial image ∧ relation state image
  own : ∀ state image next, relation state image → system.step state none next →
    relation next image ∨ ∃ nextImage, other.step image none nextImage ∧ relation next nextImage
  labelled : ∀ state image label next, relation state image →
    system.step state (some label) next →
      ∃ nextImage, other.step image (some label) nextImage ∧ relation next nextImage

namespace Simulation

variable {system : LabelledSystem ι σ} {other : LabelledSystem ι τ} {relation : σ → τ → Prop}

theorem run (simulation : Simulation system other relation) {first last : σ} {image : τ}
    {labels : List ι} (related : relation first image) (run : system.Run first labels last) :
    ∃ lastImage, other.Run image labels lastImage ∧ relation last lastImage := by
  induction run with
  | refl => exact ⟨image, .refl, related⟩
  | own _ step ih =>
      rcases ih with ⟨middleImage, runImage, relatedMiddle⟩
      rcases simulation.own _ _ _ relatedMiddle step with
        stays | ⟨lastImage, stepImage, relatedLast⟩
      · exact ⟨middleImage, runImage, stays⟩
      · exact ⟨lastImage, runImage.own stepImage, relatedLast⟩
  | labelled _ step ih =>
      rcases ih with ⟨middleImage, runImage, relatedMiddle⟩
      rcases simulation.labelled _ _ _ _ relatedMiddle step with ⟨lastImage, stepImage, relatedLast⟩
      exact ⟨lastImage, runImage.labelled stepImage, relatedLast⟩

theorem reachable (simulation : Simulation system other relation) {state : σ}
    (reachable : system.Reachable state) :
    ∃ image, other.Reachable image ∧ relation state image := by
  rcases reachable with ⟨first, labels, initial, run⟩
  rcases simulation.initial first initial with ⟨firstImage, initialImage, related⟩
  rcases simulation.run related run with ⟨image, runImage, relatedLast⟩
  exact ⟨image, ⟨firstImage, labels, initialImage, runImage⟩, relatedLast⟩

theorem trace (simulation : Simulation system other relation) {labels : List ι}
    (trace : system.Trace labels) : other.Trace labels := by
  rcases trace with ⟨first, last, initial, run⟩
  rcases simulation.initial first initial with ⟨firstImage, initialImage, related⟩
  rcases simulation.run related run with ⟨image, runImage, _⟩
  exact ⟨firstImage, image, initialImage, runImage⟩

/-- A part of a parallel composition can be replaced by a system which simulates it. -/
theorem parallel {ρ : Type*} (simulation : Simulation system other relation)
    (client : LabelledSystem ι ρ) :
    Simulation (client.parallel system) (client.parallel other)
      (fun state image => image.1 = state.1 ∧ relation state.2 image.2) where
  initial := by
    rintro ⟨part, state⟩ ⟨initialPart, initial⟩
    rcases simulation.initial state initial with ⟨image, initialImage, related⟩
    exact ⟨(part, image), ⟨initialPart, initialImage⟩, rfl, related⟩
  own := by
    rintro ⟨_, state⟩ ⟨part, image⟩ ⟨nextPart, next⟩ ⟨rfl, related⟩ (⟨step, same⟩ | ⟨same, step⟩)
    · obtain rfl : next = state := same
      exact Or.inr ⟨(nextPart, image), Or.inl ⟨step, rfl⟩, rfl, related⟩
    · obtain rfl : nextPart = part := same
      rcases simulation.own _ _ _ related step with stays | ⟨nextImage, stepImage, relatedNext⟩
      · exact Or.inl ⟨rfl, stays⟩
      · exact Or.inr ⟨(nextPart, nextImage), Or.inr ⟨rfl, stepImage⟩, rfl, relatedNext⟩
  labelled := by
    rintro ⟨_, state⟩ ⟨part, image⟩ label ⟨nextPart, next⟩ ⟨rfl, related⟩ ⟨stepPart, step⟩
    rcases simulation.labelled _ _ _ _ related step with ⟨nextImage, stepImage, relatedNext⟩
    exact ⟨(nextPart, nextImage), ⟨stepPart, stepImage⟩, rfl, relatedNext⟩

end Simulation

/-! ## Systems which react -/

section Reactions

variable {β γ : Type*}

/-- What a state does at an input: the label of the step and the next state. -/
abbrev Reaction (ι : Type u) (β : Type*) (σ : Type v) :=
  σ → β → Option (Option ι × σ)

def replay (react : Reaction ι β σ) : List β → σ → Option (List ι × σ)
  | [], state => some ([], state)
  | input :: rest, state =>
      match react state input with
      | none => none
      | some (label, next) =>
          match replay react rest next with
          | none => none
          | some (labels, last) => some (label.toList ++ labels, last)

/-- The reaction of two systems in parallel; an input may be meant for one of them or both. -/
def together [DecidableEq ι] (left : Reaction ι β σ) (right : Reaction ι γ τ) :
    Reaction ι (Option β × Option γ) (σ × τ)
  | state, (some input, none) =>
      match left state.1 input with
      | some (none, next) => some (none, (next, state.2))
      | _ => none
  | state, (none, some input) =>
      match right state.2 input with
      | some (none, next) => some (none, (state.1, next))
      | _ => none
  | state, (some input, some other) =>
      match left state.1 input, right state.2 other with
      | some (some label, next), some (some labelOther, nextOther) =>
          if label = labelOther then some (some label, (next, nextOther)) else none
      | _, _ => none
  | _, (none, none) => none

/-- The steps of a reaction which lead to an allowed state. -/
def restrict (react : Reaction ι β σ) (allowed : σ → Prop) [DecidablePred allowed] :
    Reaction ι β σ :=
  fun state input =>
    match react state input with
    | some (label, next) => if allowed next then some (label, next) else none
    | none => none

/-- The reaction takes only steps of the system. -/
def Realizes (system : LabelledSystem ι σ) (react : Reaction ι β σ) : Prop :=
  ∀ state input label next, react state input = some (label, next) → system.step state label next

variable {system : LabelledSystem ι σ} {other : LabelledSystem ι τ} {react : Reaction ι β σ}
  {reactOther : Reaction ι γ τ}

theorem Realizes.run (realizes : system.Realizes react) {inputs : List β} {first last : σ}
    {labels : List ι} (replayed : replay react inputs first = some (labels, last)) :
    system.Run first labels last := by
  induction inputs generalizing first labels with
  | nil =>
      cases replayed
      exact .refl
  | cons input rest ih =>
      rw [replay] at replayed
      split at replayed
      · cases replayed
      · next label next reacts =>
          split at replayed
          · cases replayed
          · next later last replayedRest =>
              cases replayed
              have step := realizes _ _ _ _ reacts
              refine Run.trans ?_ (ih replayedRest)
              cases label with
              | none => exact Run.refl.own step
              | some label => exact Run.refl.labelled step

/-- A run which is found by replaying inputs. -/
theorem Realizes.exists_run (realizes : system.Realizes react) (first : σ) (inputs : List β)
    (found : List ι → σ → Prop) [∀ labels last, Decidable (found labels last)]
    (replayed : (replay react inputs first).any fun (labels, last) => found labels last) :
    ∃ labels last, system.Run first labels last ∧ found labels last := by
  rcases (Option.any_eq_true _ _).1 replayed with ⟨⟨labels, last⟩, taken, isFound⟩
  exact ⟨labels, last, realizes.run taken, of_decide_eq_true isFound⟩

theorem Realizes.exists_reachable (realizes : system.Realizes react) (first : σ)
    (initial : system.initial first) (inputs : List β) (found : σ → Prop) [DecidablePred found]
    (replayed : (replay react inputs first).any fun (_, last) => found last) :
    ∃ state, system.Reachable state ∧ found state := by
  rcases realizes.exists_run first inputs (fun _ => found) replayed with
    ⟨labels, last, run, isFound⟩
  exact ⟨last, ⟨first, labels, initial, run⟩, isFound⟩

theorem Realizes.trace (realizes : system.Realizes react) {first : σ} {labels : List ι}
    (initial : system.initial first) (inputs : List β)
    (replayed : (replay react inputs first).map Prod.fst = some labels) : system.Trace labels := by
  rcases Option.map_eq_some_iff.1 replayed with ⟨⟨_, last⟩, taken, rfl⟩
  exact ⟨first, last, initial, realizes.run taken⟩

theorem Realizes.restrict (realizes : system.Realizes react) (allowed : σ → Prop)
    [DecidablePred allowed] :
    (system.within allowed).Realizes (LabelledSystem.restrict react allowed) := by
  intro state input label next reacts
  unfold LabelledSystem.restrict at reacts
  cases own : react state input with
  | none =>
      rw [own] at reacts
      cases reacts
  | some step =>
      simp only [own, Option.ite_none_right_eq_some] at reacts
      rcases reacts with ⟨isAllowed, same⟩
      cases same
      exact ⟨realizes _ _ _ _ own, isAllowed⟩

theorem Realizes.parallel [DecidableEq ι] (realizes : system.Realizes react)
    (realizesOther : other.Realizes reactOther) :
    (system.parallel other).Realizes (together react reactOther) := by
  rintro state ⟨_ | input, _ | inputOther⟩ label ⟨next, nextOther⟩ reacts
  · cases reacts
  · simp only [together] at reacts
    split at reacts
    · next own =>
        cases reacts
        exact Or.inr ⟨rfl, realizesOther _ _ _ _ own⟩
    · cases reacts
  · simp only [together] at reacts
    split at reacts
    · next own =>
        cases reacts
        exact Or.inl ⟨realizes _ _ _ _ own, rfl⟩
    · cases reacts
  · simp only [together] at reacts
    split at reacts
    · next left right =>
        split at reacts
        · next same =>
            subst same
            cases reacts
            exact ⟨realizes _ _ _ _ left, realizesOther _ _ _ _ right⟩
        · cases reacts
    · cases reacts

end Reactions

end LabelledSystem
