import Mathlib.Data.List.Basic
import Mathlib.Tactic.Common

/-!
# Texts made of key-value pairs

Each pair is written as its key, an assignment symbol and its value, and a
separator stands between two pairs. Nothing is escaped, so the text determines
the pairs only if the symbols cannot be mistaken: it can be read from the front
if no key contains the assignment symbol and no value the separator, and from
the back if no key contains the separator and no value the assignment symbol. The
parts between two separators never go beyond a pair.
-/

universe u

namespace PairText

variable {α : Type u} {separator assignment : α}

def pairText (assignment : α) (pair : List α × List α) : List α :=
  pair.1 ++ assignment :: pair.2

def pairsText (separator assignment : α) (pairs : List (List α × List α)) : List α :=
  [separator].intercalate (pairs.map (pairText assignment))

@[simp]
theorem pairsText_nil : pairsText separator assignment [] = [] :=
  rfl

@[simp]
theorem pairsText_singleton (pair : List α × List α) :
    pairsText separator assignment [pair] = pairText assignment pair :=
  List.intercalate_singleton

@[simp]
theorem pairsText_cons_cons (first second : List α × List α) (rest : List (List α × List α)) :
    pairsText separator assignment (first :: second :: rest) =
      pairText assignment first ++
        separator :: pairsText separator assignment (second :: rest) := by
  simp [pairsText]

/-- What stands behind the key of the first pair: its value and the other pairs. -/
def afterKey (separator assignment : α) (value : List α) : List (List α × List α) → List α
  | [] => value
  | next :: rest => value ++ separator :: pairsText separator assignment (next :: rest)

theorem pairsText_cons (key value : List α) (rest : List (List α × List α)) :
    pairsText separator assignment ((key, value) :: rest) =
      key ++ assignment :: afterKey separator assignment value rest := by
  cases rest with
  | nil => simp [pairText, afterKey]
  | cons next rest => simp [pairText, afterKey]

theorem pairsText_cons_eq_flatMap (pair : List α × List α) (rest : List (List α × List α)) :
    pairsText separator assignment (pair :: rest) =
      pairText assignment pair ++
        rest.flatMap fun next => separator :: pairText assignment next := by
  induction rest generalizing pair with
  | nil => simp
  | cons next rest ih => rw [pairsText_cons_cons, ih, List.flatMap_cons, List.cons_append]

theorem pairsText_cons_ne_nil (pair : List α × List α) (rest : List (List α × List α)) :
    pairsText separator assignment (pair :: rest) ≠ [] := by
  rw [pairsText_cons]
  simp

/-- The part before the first occurrence of a symbol is determined. -/
theorem append_cons_inj {symbol : α} {left right leftRest rightRest : List α}
    (leftFree : symbol ∉ left) (rightFree : symbol ∉ right)
    (same : left ++ symbol :: leftRest = right ++ symbol :: rightRest) :
    left = right ∧ leftRest = rightRest := by
  induction left generalizing right with
  | nil =>
      cases right with
      | nil => exact ⟨rfl, (List.cons.inj same).2⟩
      | cons head right =>
          exact absurd ((List.cons.inj same).1 ▸ List.mem_cons_self) rightFree
  | cons head left ih =>
      cases right with
      | nil => exact absurd ((List.cons.inj same).1 ▸ List.mem_cons_self) leftFree
      | cons other right =>
          rcases List.cons.inj same with ⟨rfl, tails⟩
          rcases ih (fun symbolMem => leftFree (List.mem_cons_of_mem _ symbolMem))
            (fun symbolMem => rightFree (List.mem_cons_of_mem _ symbolMem)) tails with ⟨rfl, rests⟩
          exact ⟨rfl, rests⟩

/-- Every pair can be told from its text when it is read from the front. -/
def FromFront (separator assignment : α) (pairs : List (List α × List α)) : Prop :=
  ∀ pair ∈ pairs, assignment ∉ pair.1 ∧ separator ∉ pair.2

/-- Every pair can be told from its text when it is read from the back. -/
def FromBack (separator assignment : α) (pairs : List (List α × List α)) : Prop :=
  ∀ pair ∈ pairs, separator ∉ pair.1 ∧ assignment ∉ pair.2

theorem pairsText_inj_of_fromFront {left right : List (List α × List α)}
    (leftFree : FromFront separator assignment left)
    (rightFree : FromFront separator assignment right)
    (same : pairsText separator assignment left = pairsText separator assignment right) :
    left = right := by
  induction left generalizing right with
  | nil =>
      cases right with
      | nil => rfl
      | cons pair right => exact absurd same.symm (pairsText_cons_ne_nil pair right)
  | cons pair left ih =>
      cases right with
      | nil => exact absurd same (pairsText_cons_ne_nil pair left)
      | cons other right =>
          rcases pair with ⟨key, value⟩
          rcases other with ⟨key', value'⟩
          have free := leftFree _ List.mem_cons_self
          have free' := rightFree _ List.mem_cons_self
          rw [pairsText_cons, pairsText_cons] at same
          rcases append_cons_inj free.1 free'.1 same with ⟨rfl, behind⟩
          cases left with
          | nil =>
              cases right with
              | nil =>
                  change value = value' at behind
                  rw [behind]
              | cons next right =>
                  change value = value' ++ _ at behind
                  exact absurd (behind ▸ List.mem_append_right _ List.mem_cons_self) free.2
          | cons next left =>
              cases right with
              | nil =>
                  change value ++ _ = value' at behind
                  exact absurd (behind ▸ List.mem_append_right _ List.mem_cons_self) free'.2
              | cons next' right =>
                  rcases append_cons_inj free.2 free'.2 behind with ⟨rfl, rests⟩
                  rw [ih (fun pair pairMem => leftFree pair (List.mem_cons_of_mem _ pairMem))
                    (fun pair pairMem => rightFree pair (List.mem_cons_of_mem _ pairMem)) rests]

/-! ## Reading from the back -/

def mirror (pair : List α × List α) : List α × List α :=
  (pair.2.reverse, pair.1.reverse)

theorem mirror_injective : Function.Injective (mirror : List α × List α → List α × List α) := by
  rintro ⟨key, value⟩ ⟨key', value'⟩ same
  simp only [mirror, Prod.mk.injEq, List.reverse_inj] at same
  rw [same.1, same.2]

theorem pairsText_concat (pairs : List (List α × List α)) (nonempty : pairs ≠ [])
    (last : List α × List α) :
    pairsText separator assignment (pairs ++ [last]) =
      pairsText separator assignment pairs ++ separator :: pairText assignment last := by
  induction pairs with
  | nil => exact absurd rfl nonempty
  | cons pair pairs ih =>
      cases pairs with
      | nil => simp
      | cons next pairs =>
          rw [List.cons_append, List.cons_append, pairsText_cons_cons, ← List.cons_append,
            ih (List.cons_ne_nil _ _)]
          simp

theorem reverse_pairText (pair : List α × List α) :
    (pairText assignment pair).reverse = pairText assignment (mirror pair) := by
  simp [pairText, mirror]

theorem reverse_pairsText (pairs : List (List α × List α)) :
    (pairsText separator assignment pairs).reverse =
      pairsText separator assignment (pairs.reverse.map mirror) := by
  induction pairs with
  | nil => rfl
  | cons pair pairs ih =>
      cases pairs with
      | nil =>
          rw [pairsText_singleton, reverse_pairText]
          exact (pairsText_singleton _).symm
      | cons next pairs =>
          have outer : (pair :: next :: pairs).reverse = (next :: pairs).reverse ++ [pair] :=
            List.reverse_cons
          have nonempty : (next :: pairs).reverse.map mirror ≠ [] := by simp
          rw [outer, List.map_append, List.map_singleton, pairsText_concat _ nonempty, ← ih,
            ← reverse_pairText, pairsText_cons_cons, List.reverse_append, List.reverse_cons,
            List.append_assoc]
          rfl

theorem pairsText_inj_of_fromBack {left right : List (List α × List α)}
    (leftFree : FromBack separator assignment left)
    (rightFree : FromBack separator assignment right)
    (same : pairsText separator assignment left = pairsText separator assignment right) :
    left = right := by
  have mirrored {pairs : List (List α × List α)} (free : FromBack separator assignment pairs) :
      FromFront separator assignment (pairs.reverse.map mirror) := by
    intro pair pairMem
    rcases List.mem_map.mp pairMem with ⟨original, originalMem, rfl⟩
    have originalFree := free original (List.mem_reverse.mp originalMem)
    simp only [mirror, List.mem_reverse]
    exact ⟨originalFree.2, originalFree.1⟩
  have reversed := congrArg List.reverse same
  rw [reverse_pairsText, reverse_pairsText] at reversed
  have pairs := pairsText_inj_of_fromFront (mirrored leftFree) (mirrored rightFree) reversed
  exact List.reverse_injective (mirror_injective.list_map pairs)

/-! ## Splitting at the separator -/

variable [DecidableEq α]

theorem notMem_of_mem_splitOn {text part : List α} (isPart : part ∈ text.splitOn separator) :
    separator ∉ part := by
  induction text generalizing part with
  | nil => simp_all
  | cons symbol text ih =>
      rw [List.splitOn_cons_eq_if_modifyHead] at isPart
      rcases parts : text.splitOn separator with _ | ⟨first, later⟩
      · exact absurd parts (List.splitOn_ne_nil _ _)
      rw [parts] at isPart ih
      split at isPart
      · rcases List.mem_cons.1 isPart with rfl | rest
        · simp
        · exact ih rest
      · next other =>
          rcases List.mem_cons.1 isPart with rfl | rest
          · have differs : separator ≠ symbol := fun same => other (by simp [same])
            simp [differs, ih List.mem_cons_self]
          · exact ih (List.mem_cons_of_mem _ rest)

theorem sublist_of_mem_splitOn {text part : List α} (isPart : part ∈ text.splitOn separator) :
    part.Sublist text := by
  induction text generalizing part with
  | nil => simp_all
  | cons symbol text ih =>
      rw [List.splitOn_cons_eq_if_modifyHead] at isPart
      rcases parts : text.splitOn separator with _ | ⟨first, later⟩
      · exact absurd parts (List.splitOn_ne_nil _ _)
      rw [parts] at isPart ih
      split at isPart
      · rcases List.mem_cons.1 isPart with rfl | rest
        · exact List.nil_sublist _
        · exact (ih rest).cons _
      · rcases List.mem_cons.1 isPart with rfl | rest
        · exact (ih List.mem_cons_self).cons_cons _
        · exact (ih (List.mem_cons_of_mem _ rest)).cons _

theorem exists_mem_splitOn {text : List α} {symbol : α} (other : symbol ≠ separator)
    (member : symbol ∈ text) : ∃ part ∈ text.splitOn separator, symbol ∈ part := by
  induction text with
  | nil => cases member
  | cons first text ih =>
      rcases parts : text.splitOn separator with _ | ⟨begun, later⟩
      · exact absurd parts (List.splitOn_ne_nil _ _)
      rw [List.splitOn_cons_eq_if_modifyHead, parts]
      rw [parts] at ih
      rcases List.mem_cons.1 member with rfl | rest
      · rw [if_neg (by simpa using other)]
        exact ⟨symbol :: begun, List.mem_cons_self, List.mem_cons_self⟩
      · rcases ih rest with ⟨part, isPart, within⟩
        split
        · exact ⟨part, List.mem_cons_of_mem _ isPart, within⟩
        · rcases List.mem_cons.1 isPart with rfl | rest
          · exact ⟨_, List.mem_cons_self, List.mem_cons_of_mem _ within⟩
          · exact ⟨part, List.mem_cons_of_mem _ rest, within⟩

/-- No part goes beyond a pair. -/
theorem of_mem_splitOn_pairsText {pairs : List (List α × List α)} {part : List α}
    (isPart : part ∈ (pairsText separator assignment pairs).splitOn separator) :
    part = [] ∨ ∃ pair ∈ pairs, part ∈ (pairText assignment pair).splitOn separator := by
  induction pairs with
  | nil => simp_all
  | cons pair pairs ih =>
      cases pairs with
      | nil =>
          rw [pairsText_singleton] at isPart
          exact Or.inr ⟨pair, List.mem_singleton_self pair, isPart⟩
      | cons next pairs =>
          rw [pairsText_cons_cons, List.splitOn_append_cons_self] at isPart
          rcases List.mem_append.1 isPart with here | later
          · exact Or.inr ⟨pair, List.mem_cons_self, here⟩
          · rcases ih later with empty | ⟨other, member, there⟩
            · exact Or.inl empty
            · exact Or.inr ⟨other, List.mem_cons_of_mem _ member, there⟩

/-- Pairs without separators are the parts. -/
theorem splitOn_pairsText {pairs : List (List α × List α)} (given : pairs ≠ [])
    (free : ∀ pair ∈ pairs, separator ∉ pairText assignment pair) :
    (pairsText separator assignment pairs).splitOn separator = pairs.map (pairText assignment) := by
  apply List.splitOn_intercalate
  · exact List.forall_mem_map.2 free
  · simpa using given

end PairText
