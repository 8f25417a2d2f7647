import Mathlib.Data.List.Basic
import Mathlib.Data.List.Infix
import Mathlib.Tactic.Common

/-!
# Searching a text for a pattern

`indexOf` is the position of the first occurrence of a pattern. What has been found
depends on what comes after the text only if an occurrence can begin in the text and
end behind it. When no proper beginning of the pattern is also an end of it, an
occurrence before which the pattern does not occur is the first one: no other can
overlap it. A pattern whose last symbol occurs nowhere else in it is of this kind.
-/

universe u

namespace TextSearch

variable {α : Type u}

/-- No proper part of the pattern is both a beginning and an end of it. -/
def Unbordered (pattern : List α) : Prop :=
  ∀ border, border <+: pattern → border <:+ pattern → border = [] ∨ border = pattern

theorem unbordered_concat {key : List α} {mark : α} (free : mark ∉ key) :
    Unbordered (key ++ [mark]) := by
  intro border start finish
  rcases List.prefix_concat_iff.1 start with whole | inside
  · exact Or.inr whole
  · rcases List.suffix_concat_iff.1 finish with empty | ⟨others, rfl, _⟩
    · exact Or.inl empty
    · exact absurd (inside.subset (List.mem_append_right _ List.mem_cons_self)) free

/-- An occurrence which begins in a text without the pattern begins with the pattern behind it. -/
theorem eq_nil_of_begins {pattern before after : List α} (unbordered : Unbordered pattern)
    (occurs : pattern <+: before ++ (pattern ++ after)) (fresh : ¬pattern <:+: before) :
    before = [] := by
  rcases Nat.lt_or_ge before.length pattern.length with long | short
  · rcases List.prefix_of_prefix_length_le (List.prefix_append before _) occurs long.le with
      ⟨border, rfl⟩
    have start : border <+: (before ++ border) ++ after :=
      (List.prefix_append_right_inj before).1 occurs
    have start := List.prefix_of_prefix_length_le start (List.prefix_append _ after) (by simp)
    rcases unbordered border start (List.suffix_append before border) with empty | whole
    · subst empty
      simp at long
    · exact List.append_left_eq_self.1 whole.symm
  · have inside := List.prefix_of_prefix_length_le occurs (List.prefix_append before _) short
    exact absurd inside.isInfix fresh

theorem drop_behind (before pattern after : List α) :
    (before ++ (pattern ++ after)).drop (before.length + pattern.length) = after := by
  rw [← List.append_assoc, ← List.length_append, List.drop_left]

variable [DecidableEq α]

def indexOf (pattern : List α) : List α → Option ℕ
  | [] => if pattern = [] then some 0 else none
  | head :: tail =>
      if pattern <+: head :: tail then some 0 else (indexOf pattern tail).map (· + 1)

theorem indexOf_eq_none_iff (pattern text : List α) :
    indexOf pattern text = none ↔ ¬pattern <:+: text := by
  induction text with
  | nil =>
      rw [indexOf, List.infix_nil]
      split <;> simp [*]
  | cons head tail ih =>
      rw [indexOf, List.infix_cons_iff, not_or]
      split
      · next starts => simp [starts]
      · next differs => simp [differs, ih]

theorem indexOf_of_begins {pattern text : List α} (starts : pattern <+: text) :
    indexOf pattern text = some 0 := by
  cases text with
  | nil => exact if_pos (List.prefix_nil.1 starts)
  | cons head tail => exact if_pos starts

theorem indexOf_eq_some {pattern text : List α} {index : ℕ}
    (found : indexOf pattern text = some index) :
    ∃ before after, text = before ++ (pattern ++ after) ∧ before.length = index ∧
      (pattern ≠ [] → ¬pattern <:+: before) := by
  induction text generalizing index with
  | nil =>
      rw [indexOf] at found
      split at found
      · next empty =>
          cases found
          exact ⟨[], [], by simp [empty], rfl, fun nonempty => absurd empty nonempty⟩
      · cases found
  | cons head tail ih =>
      rw [indexOf] at found
      split at found
      · next starts =>
          cases found
          rcases starts with ⟨after, whole⟩
          refine ⟨[], after, whole.symm, rfl, ?_⟩
          intro nonempty inside
          exact nonempty (List.infix_nil.1 inside)
      · next differs =>
          rcases Option.map_eq_some_iff.1 found with ⟨earlier, later, rfl⟩
          rcases ih later with ⟨before, after, rfl, rfl, fresh⟩
          refine ⟨head :: before, after, rfl, rfl, ?_⟩
          intro nonempty inside
          rcases List.infix_cons_iff.1 inside with starts | later
          · exact differs (starts.trans (List.prefix_append (head :: before) _))
          · exact fresh nonempty later

theorem indexOf_append {pattern before after : List α} (unbordered : Unbordered pattern)
    (fresh : ¬pattern <:+: before) :
    indexOf pattern (before ++ (pattern ++ after)) = some before.length := by
  induction before with
  | nil => exact indexOf_of_begins (List.prefix_append pattern after)
  | cons head before ih =>
      have differs : ¬pattern <+: head :: before ++ (pattern ++ after) := by
        intro occurs
        exact absurd (eq_nil_of_begins unbordered occurs fresh) (List.cons_ne_nil _ _)
      have later : ¬pattern <:+: before := fun inside =>
        fresh (inside.trans (List.suffix_cons head before).isInfix)
      rw [List.cons_append] at differs ⊢
      rw [indexOf, if_neg differs, ih later]
      rfl

/-- What follows the first occurrence of the pattern. -/
def behind (pattern text : List α) : Option (List α) :=
  (indexOf pattern text).map fun index => text.drop (index + pattern.length)

theorem behind_eq_none_iff (pattern text : List α) :
    behind pattern text = none ↔ ¬pattern <:+: text := by
  rw [behind, Option.map_eq_none_iff, indexOf_eq_none_iff]

theorem behind_eq_some_iff {pattern : List α} (unbordered : Unbordered pattern)
    (nonempty : pattern ≠ []) (text after : List α) :
    behind pattern text = some after ↔
      ∃ before, ¬pattern <:+: before ∧ text = before ++ (pattern ++ after) := by
  constructor
  · intro found
    rcases Option.map_eq_some_iff.1 found with ⟨index, first, rest⟩
    rcases indexOf_eq_some first with ⟨before, behind, rfl, rfl, fresh⟩
    rw [drop_behind] at rest
    exact ⟨before, fresh nonempty, by rw [rest]⟩
  · rintro ⟨before, fresh, rfl⟩
    rw [behind, indexOf_append unbordered fresh, Option.map_some, drop_behind]

/-- What comes before the first occurrence of a symbol, or everything. -/
theorem take_indexOf_singleton (mark : α) (text : List α) :
    text.take ((indexOf [mark] text).getD text.length) = text.takeWhile (· ≠ mark) := by
  induction text with
  | nil => rfl
  | cons head tail ih =>
      rw [indexOf, List.takeWhile_cons]
      by_cases same : mark = head
      · subst same
        simp
      · have differs : ¬[mark] <+: head :: tail := by simp [same]
        have passes : decide (head ≠ mark) = true := by simp [Ne.symm same]
        rw [if_neg differs, if_pos passes, ← ih]
        cases indexOf [mark] tail with
        | none => rfl
        | some index => rfl

theorem takeWhile_append {mark : α} {value : List α} (plain : mark ∉ value) (after : List α) :
    (value ++ after).takeWhile (· ≠ mark) = value ++ after.takeWhile (· ≠ mark) := by
  apply List.takeWhile_append_of_pos
  intro symbol member
  apply decide_eq_true
  rintro rfl
  exact plain member

theorem takeWhile_eq_iff {mark : α} {value : List α} (plain : mark ∉ value) (text : List α) :
    text.takeWhile (· ≠ mark) = value ↔
      ∃ after, text = value ++ after ∧ (after = [] ∨ after.head? = some mark) := by
  constructor
  · rintro rfl
    refine ⟨text.dropWhile (· ≠ mark), List.takeWhile_append_dropWhile.symm, ?_⟩
    have stops := List.head?_dropWhile_not (· ≠ mark) text
    cases rest : text.dropWhile (· ≠ mark) with
    | nil => exact Or.inl rfl
    | cons head tail =>
        rw [rest] at stops
        simpa using stops
  · rintro ⟨after, rfl, ends⟩
    rw [takeWhile_append plain]
    cases after with
    | nil => exact List.append_nil value
    | cons head tail =>
        have stops : head = mark := by simpa using ends
        simp [stops]

end TextSearch
