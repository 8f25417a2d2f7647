import Mathlib.Data.List.Nodup
import Mathlib.Data.List.Permutation
import Mathlib.Tactic.Common

/-!
# Order of occurrence in a list without duplicates

In a list without duplicates, `[x, y] <+ list` says that `x` occurs before
`y`. The lemmas here move between that notion and a decomposition of the list at
an element.
-/

universe u

namespace Occurrence

variable {α : Type u}

/-- What occurs before an element lies in the prefix before it. -/
theorem sublist_of_concat_sublist {before after earlier : List α} {last : α}
    (fresh : last ∉ after)
    (ordered : (earlier ++ [last]).Sublist (before ++ last :: after)) :
    earlier.Sublist before := by
  induction before generalizing earlier with
  | nil =>
      cases earlier with
      | nil => exact List.Sublist.slnil
      | cons first earlier =>
          have rest : (earlier ++ [last]).Sublist after := List.Sublist.of_cons_cons ordered
          exact absurd (rest.subset (List.mem_append_right _ List.mem_cons_self)) fresh
  | cons head before ih =>
      rcases List.sublist_cons_iff.mp ordered with skipped | ⟨rest, same, taken⟩
      · exact (ih skipped).cons head
      · cases earlier with
        | nil => exact List.nil_sublist _
        | cons first earlier =>
            rw [List.cons_append, List.cons.injEq] at same
            rcases same with ⟨rfl, rfl⟩
            exact (ih taken).cons_cons _

/-- What occurs after an element lies in the suffix after its only occurrence. -/
theorem mem_of_pair_sublist {before after : List α} {first second : α}
    (fresh : first ∉ before)
    (ordered : [first, second].Sublist (before ++ first :: after)) : second ∈ after := by
  induction before with
  | nil => exact (List.Sublist.of_cons_cons ordered).subset List.mem_cons_self
  | cons head before ih =>
      rw [List.mem_cons, not_or] at fresh
      rcases List.sublist_cons_iff.mp ordered with skipped | ⟨rest, same, _⟩
      · exact ih fresh.2 skipped
      · exact absurd (List.cons.inj same).1 fresh.1

theorem not_pair_sublist_of_pair_sublist {list : List α} {first second : α} (nodup : list.Nodup)
    (forward : [first, second].Sublist list) : ¬[second, first].Sublist list := by
  intro backward
  rcases List.append_of_mem (forward.subset List.mem_cons_self) with ⟨before, after, rfl⟩
  have parts := List.nodup_append.mp nodup
  have notBefore : first ∉ before := fun firstMem =>
    parts.2.2 first firstMem first List.mem_cons_self rfl
  have notAfter : first ∉ after := (List.nodup_cons.mp parts.2.1).1
  have secondAfter := mem_of_pair_sublist notBefore forward
  have secondBefore : [second].Sublist before :=
    sublist_of_concat_sublist notAfter backward
  exact parts.2.2 second (secondBefore.subset List.mem_cons_self) second
    (List.mem_cons_of_mem _ secondAfter) rfl

/-- Two different lists of two elements with the same elements are each other's reversal. -/
theorem pair_perm_pair_iff {first second third fourth : α} :
    [first, second].Perm [third, fourth] ↔
      (first = third ∧ second = fourth) ∨ (first = fourth ∧ second = third) := by
  rw [List.perm_pair]
  simp

end Occurrence
