import Mathlib.Algebra.BigOperators.Group.List.Basic
import Mathlib.Algebra.Ring.Nat
import Mathlib.Tactic.Common

/-!
# Steps which only enlarge

A partial step grows when it leaves what it gets or makes it larger. Steps on the
parts of a value make growing steps on the value, and so do lists. Repeated, such a
step comes back to where it began only if it has never done anything.
-/

universe u v

namespace Growth

variable {α : Type u} {β : Type v}

def Grows (size : α → ℕ) (step : α → Option α) : Prop :=
  ∀ before after, step before = some after → after = before ∨ size before < size after

/-! ## Parts -/

def onPart (get : β → α) (set : β → α → β) (step : α → Option α) (whole : β) : Option β :=
  (step (get whole)).map (set whole)

theorem Grows.onPart {get : β → α} {set : β → α → β} {size : α → ℕ} {step : α → Option α}
    (grows : Grows size step) (getSet : ∀ whole part, get (set whole part) = part)
    (setGet : ∀ whole, set whole (get whole) = whole) :
    Grows (fun whole => size (get whole)) (onPart get set step) := by
  intro before after steps
  rcases Option.map_eq_some_iff.1 steps with ⟨part, stepped, rfl⟩
  rcases grows _ _ stepped with rfl | larger
  · exact Or.inl (setGet before)
  · exact Or.inr (by simpa [getSet] using larger)

theorem onPart_eq_self_iff {get : β → α} {set : β → α → β} {step : α → Option α}
    (getSet : ∀ whole part, get (set whole part) = part)
    (setGet : ∀ whole, set whole (get whole) = whole) (whole : β) :
    onPart get set step whole = some whole ↔ step (get whole) = some (get whole) := by
  constructor
  · intro same
    rcases Option.map_eq_some_iff.1 same with ⟨part, stepped, back⟩
    rw [stepped, ← back, getSet]
  · intro same
    rw [onPart, same, Option.map_some, setGet]

/-! ## Lists -/

def each (step : α → Option α) : List α → Option (List α)
  | [] => some []
  | item :: items =>
      (step item).bind fun first => (each step items).map fun later => first :: later

def total (size : α → ℕ) (items : List α) : ℕ :=
  (items.map size).sum

theorem Grows.each {size : α → ℕ} {step : α → Option α} (grows : Grows size step) :
    Grows (total size) (each step) := by
  intro before
  induction before with
  | nil =>
      intro after steps
      cases steps
      exact Or.inl rfl
  | cons item items ih =>
      intro after steps
      rcases Option.bind_eq_some_iff.1 steps with ⟨first, stepped, rest⟩
      rcases Option.map_eq_some_iff.1 rest with ⟨later, others, rfl⟩
      have sums (item : α) (items : List α) :
          total size (item :: items) = size item + total size items := by
        simp [total]
      rw [sums, sums, List.cons.injEq]
      rcases grows _ _ stepped with rfl | larger
      · rcases ih _ others with rfl | more
        · exact Or.inl ⟨rfl, rfl⟩
        · exact Or.inr (by omega)
      · rcases ih _ others with rfl | more
        · exact Or.inr (by omega)
        · exact Or.inr (by omega)

theorem each_eq_self_iff {step : α → Option α} (items : List α) :
    each step items = some items ↔ ∀ item ∈ items, step item = some item := by
  induction items with
  | nil => simp [each]
  | cons item items ih =>
      rw [List.forall_mem_cons, ← ih]
      constructor
      · intro same
        rcases Option.bind_eq_some_iff.1 same with ⟨first, stepped, rest⟩
        rcases Option.map_eq_some_iff.1 rest with ⟨later, others, back⟩
        rcases List.cons.inj back with ⟨rfl, rfl⟩
        exact ⟨stepped, others⟩
      · rintro ⟨stepped, others⟩
        rw [each, stepped, others]
        rfl

/-! ## Repetition -/

def repeated (step : α → Option α) : ℕ → α → Option α
  | 0, item => some item
  | count + 1, item => (step item).bind (repeated step count)

variable {size : α → ℕ} {step : α → Option α}

theorem Grows.size_le_of_repeated (grows : Grows size step) {count : ℕ} {before after : α}
    (steps : repeated step count before = some after) : size before ≤ size after := by
  induction count generalizing before with
  | zero =>
      cases steps
      exact Nat.le_refl _
  | succ count ih =>
      rcases Option.bind_eq_some_iff.1 steps with ⟨next, stepped, rest⟩
      have later := ih rest
      rcases grows _ _ stepped with rfl | larger
      · exact later
      · omega

/-- A growing step which comes back has done nothing. -/
theorem Grows.eq_of_repeated (grows : Grows size step) {count : ℕ} {item : α}
    (back : repeated step (count + 1) item = some item) : step item = some item := by
  rcases Option.bind_eq_some_iff.1 back with ⟨next, stepped, rest⟩
  have later := grows.size_le_of_repeated rest
  rcases grows _ _ stepped with rfl | larger
  · exact stepped
  · omega

theorem repeated_of_fixed {item : α} (fixed : step item = some item) (count : ℕ) :
    repeated step count item = some item := by
  induction count with
  | zero => rfl
  | succ count ih => rw [repeated, fixed, Option.bind_some, ih]

end Growth
