import Mathlib.Data.List.Basic
import Mathlib.Data.List.Induction
import Mathlib.Tactic.Common

/-!
# A counter which stops at zero

Events raise a counter, lower it, or leave it; at zero it cannot be lowered. Its
value is the largest surplus of raising events over lowering ones in a final
segment of the events, since it forgets whatever came before it was last zero.
-/

universe u

namespace Counter

variable {ε : Type u} (raises lowers : ε → Bool)

def count (events : List ε) : ℕ :=
  events.foldl (fun value event =>
    if raises event then value + 1 else if lowers event then value - 1 else value) 0

/-- In some final segment the raising events exceed the lowering ones by more than a bound. -/
def Surplus (bound : ℕ) (events : List ε) : Prop :=
  ∃ before final, events = before ++ final ∧ final.countP lowers + bound < final.countP raises

variable {raises lowers}

theorem surplus_nil (bound : ℕ) : ¬Surplus raises lowers bound [] := by
  rintro ⟨before, final, split, exceeds⟩
  rcases List.append_eq_nil_iff.1 split.symm with ⟨rfl, rfl⟩
  simp at exceeds

/-- The final segment of a longer list is empty or ends with the new event. -/
theorem surplus_concat_iff (bound : ℕ) (events : List ε) (event : ε) :
    Surplus raises lowers bound (events ++ [event]) ↔
      ∃ before final, events = before ++ final ∧
        final.countP lowers + (if lowers event then 1 else 0) + bound <
          final.countP raises + (if raises event then 1 else 0) := by
  constructor
  · rintro ⟨before, final, split, exceeds⟩
    rcases final.eq_nil_or_concat with rfl | ⟨final, last, rfl⟩
    · simp at exceeds
    · rw [List.concat_eq_append, ← List.append_assoc] at split
      rcases List.append_inj' split rfl with ⟨rfl, same⟩
      cases same
      refine ⟨before, final, rfl, ?_⟩
      simpa [List.countP_append, List.countP_cons] using exceeds
  · rintro ⟨before, final, rfl, exceeds⟩
    refine ⟨before, final ++ [event], by simp, ?_⟩
    simpa [List.countP_append, List.countP_cons] using exceeds

/-- The value of the counter is above a bound exactly when there is a surplus above it. -/
theorem lt_count_iff (exclusive : ∀ event, raises event = true → lowers event = false)
    (events : List ε) (bound : ℕ) :
    bound < count raises lowers events ↔ Surplus raises lowers bound events := by
  induction events using List.reverseRecOn generalizing bound with
  | nil => simp [count, surplus_nil]
  | append_singleton events event ih =>
      have counted : count raises lowers (events ++ [event]) =
          if raises event then count raises lowers events + 1
          else if lowers event then count raises lowers events - 1
          else count raises lowers events := by
        simp [count]
      rw [counted, surplus_concat_iff]
      by_cases up : raises event = true
      · simp only [up, exclusive event up, if_true]
        cases bound with
        | zero =>
            refine iff_of_true (Nat.succ_pos _) ⟨events, [], by simp, by simp⟩
        | succ bound =>
            rw [Nat.add_lt_add_iff_right, ih]
            simp only [Surplus, Bool.false_eq_true, if_false]
            simp only [← Nat.add_assoc, Nat.add_lt_add_iff_right, Nat.add_zero]
      · by_cases down : lowers event = true
        · have shifted : bound < count raises lowers events - 1 ↔
              bound + 1 < count raises lowers events := by omega
          simp only [up, down, if_true, Bool.false_eq_true, if_false]
          rw [shifted, ih]
          simp only [Surplus, Nat.add_zero]
          simp only [Nat.add_assoc, Nat.add_comm 1]
        · simp only [up, down, Bool.false_eq_true, if_false]
          rw [ih]
          simp only [Surplus, Nat.add_zero]

end Counter
