import Mathlib.Data.List.Basic
import Mathlib.Data.List.Infix
import Mathlib.Tactic.Common

/-!
# Trees of directories

A tree without links, in which a path is written with the deepest name first, so that
what is below a path ends with it. Whatever exists lies in a directory, each directory
has a list of its names in some order, and no path goes deeper than a bound: this is
part of the type. Only a directory without names can be removed.

A recursive removal calls itself for the names of a directory, one after another, and
stops when a call does. The rule for this loop says when it comes to its end, and what
is left then, from a statement about the calls: each decides by what is below its own
path, and takes away just that.
-/

universe u v

namespace DirectoryTree

inductive Entry (Leaf : Type v) where
  | leaf (kind : Leaf)
  | directory (listable : Bool)
deriving DecidableEq, Repr

end DirectoryTree

open DirectoryTree in
structure DirectoryTree (Name : Type u) (Leaf : Type v) where
  node : List Name → Option (Entry Leaf)
  parent : ∀ {name path}, node (name :: path) ≠ none →
    ∃ listable, node path = some (.directory listable)
  children : List Name → List Name
  mem_children : ∀ {path name}, name ∈ children path ↔ node (name :: path) ≠ none
  nodup : ∀ path, (children path).Nodup
  bound : ℕ
  length_le : ∀ {path}, node path ≠ none → path.length ≤ bound

namespace DirectoryTree

variable {Name : Type u} {Leaf : Type v}

/-! ## Below a path -/

section Below

variable (tree : DirectoryTree Name Leaf) {path below : List Name}

theorem exists_child (isBelow : path <:+ below) (other : path ≠ below) :
    ∃ name, name :: path <:+ below := by
  rcases isBelow with ⟨names, rfl⟩
  rcases List.eq_nil_or_concat names with rfl | ⟨front, name, rfl⟩
  · exact absurd rfl other
  · exact ⟨name, front, by simp⟩

theorem eq_of_child_suffix {first second : Name} (left : first :: path <:+ below)
    (right : second :: path <:+ below) : first = second := by
  rcases List.suffix_or_suffix_of_suffix left right with within | within
  · exact (List.cons.inj (within.eq_of_length rfl)).1
  · exact (List.cons.inj (within.eq_of_length rfl)).1.symm

theorem not_child_suffix_self (name : Name) : ¬name :: path <:+ path := by
  intro below
  have shorter := below.length_le
  rw [List.length_cons] at shorter
  omega

theorem suffix_of_child {name : Name} (isBelow : name :: path <:+ below) : path <:+ below :=
  (List.suffix_cons name path).trans isBelow

theorem node_ne_none_of_suffix (isBelow : path <:+ below) (found : tree.node below ≠ none) :
    tree.node path ≠ none := by
  rcases isBelow with ⟨names, rfl⟩
  induction names with
  | nil => exact found
  | cons name names ih =>
      rcases tree.parent found with ⟨listable, isDirectory⟩
      exact ih (Option.ne_none_iff_exists'.2 ⟨_, isDirectory⟩)

/-- Each entry at a path and below it is of a kind. -/
def AllBelow (good : Entry Leaf → Prop) (path : List Name) : Prop :=
  ∀ below, path <:+ below → ∀ entry, tree.node below = some entry → good entry

theorem allBelow_iff {good : Entry Leaf → Prop} {entry : Entry Leaf}
    (found : tree.node path = some entry) :
    tree.AllBelow good path ↔
      good entry ∧ ∀ name ∈ tree.children path, tree.AllBelow good (name :: path) := by
  constructor
  · intro all
    refine ⟨all path (List.suffix_refl path) entry found, ?_⟩
    intro name _ below isBelow
    exact all below (suffix_of_child isBelow)
  · rintro ⟨here, children⟩ below isBelow other found'
    by_cases same : path = below
    · subst same
      rw [found] at found'
      rwa [← Option.some.inj found']
    · rcases exists_child isBelow same with ⟨name, isChild⟩
      have exists' : tree.node (name :: path) ≠ none := by
        apply tree.node_ne_none_of_suffix isChild
        rw [found']
        exact Option.some_ne_none _
      exact children name (tree.mem_children.2 exists') below isChild other found'

theorem children_of_leaf {kind : Leaf} (found : tree.node path = some (.leaf kind)) :
    tree.children path = [] := by
  apply List.eq_nil_iff_forall_not_mem.2
  intro name member
  rcases tree.parent (tree.mem_children.1 member) with ⟨listable, isDirectory⟩
  rw [found] at isDirectory
  cases isDirectory

end Below

/-! ## Removing -/

variable [DecidableEq Name]

/-- The tree, and whether the entry has been removed. -/
def remove (tree : DirectoryTree Name Leaf) (path : List Name) : DirectoryTree Name Leaf × Bool :=
  if removable : (tree.node path).isSome = true ∧ tree.children path = [] then
    ({ node := fun other => if other = path then none else tree.node other
       parent := by
         intro name other found
         split at found
         · exact absurd rfl found
         · rcases tree.parent found with ⟨listable, isDirectory⟩
           refine ⟨listable, ?_⟩
           split
           · next same =>
               have child := tree.mem_children.2 found
               rw [same, removable.2] at child
               cases child
           · exact isDirectory
       children := fun other => (tree.children other).filter fun name => name :: other ≠ path
       mem_children := by
         intro other name
         rw [List.mem_filter, tree.mem_children]
         by_cases same : name :: other = path <;> simp [same]
       nodup := fun other => (tree.nodup other).filter _
       bound := tree.bound
       length_le := by
         intro other found
         split at found
         · exact absurd rfl found
         · exact tree.length_le found }, true)
  else (tree, false)

/-- Nothing is left at the path and below it, and the rest is as before. -/
structure Cleared (tree after : DirectoryTree Name Leaf) (path : List Name) : Prop where
  node : ∀ other, after.node other = if path <:+ other then none else tree.node other
  bound : after.bound = tree.bound

/-- The same for names of a directory. -/
structure ClearedNames (tree after : DirectoryTree Name Leaf) (path names : List Name) : Prop where
  node : ∀ other, after.node other =
    if ∃ name ∈ names, name :: path <:+ other then none else tree.node other
  bound : after.bound = tree.bound

section Clearing

variable {tree after : DirectoryTree Name Leaf} {path : List Name}

/-- Nothing is removed where nothing is. -/
theorem cleared_of_missing (missing : tree.node path = none) : Cleared tree tree path := by
  refine ⟨?_, rfl⟩
  intro other
  split
  · next below =>
      by_contra found
      exact tree.node_ne_none_of_suffix below found missing
  · rfl

/-- Once the names are gone, the directory can be removed. -/
theorem remove_of_clearedNames (cleared : ClearedNames tree after path (tree.children path))
    (found : tree.node path ≠ none) :
    (after.remove path).2 = true ∧ Cleared tree (after.remove path).1 path := by
  have stays : after.node path = tree.node path := by
    rw [cleared.node, if_neg]
    rintro ⟨name, _, below⟩
    exact not_child_suffix_self name below
  have empty : after.children path = [] := by
    apply List.eq_nil_iff_forall_not_mem.2
    intro name member
    have child := after.mem_children.1 member
    rw [cleared.node] at child
    split at child
    · exact child rfl
    · next gone =>
        exact gone ⟨name, tree.mem_children.2 child, List.suffix_refl _⟩
  have removable : (after.node path).isSome = true ∧ after.children path = [] := by
    rw [stays, Option.isSome_iff_ne_none]
    exact ⟨found, empty⟩
  rw [remove, dif_pos removable]
  refine ⟨rfl, ?_, cleared.bound⟩
  intro other
  dsimp only
  rw [cleared.node]
  by_cases same : other = path
  · rw [if_pos same, same, if_pos (List.suffix_refl _)]
  · rw [if_neg same]
    by_cases below : path <:+ other
    · rw [if_pos below]
      rcases exists_child below (Ne.symm same) with ⟨name, isChild⟩
      split
      · rfl
      · next unlisted =>
          by_contra exists'
          apply unlisted
          refine ⟨name, tree.mem_children.2 ?_, isChild⟩
          exact tree.node_ne_none_of_suffix isChild exists'
    · rw [if_neg below, if_neg]
      rintro ⟨name, _, isChild⟩
      exact below (suffix_of_child isChild)

theorem clearedNames_nil (tree : DirectoryTree Name Leaf) (path : List Name) :
    ClearedNames tree tree path [] := by
  refine ⟨?_, rfl⟩
  intro other
  rw [if_neg]
  rintro ⟨name, member, _⟩
  cases member

theorem clearedNames_cons {between : DirectoryTree Name Leaf} {name : Name} {names : List Name}
    (first : Cleared tree between (name :: path))
    (rest : ClearedNames between after path names) :
    ClearedNames tree after path (name :: names) := by
  refine ⟨?_, rest.bound.trans first.bound⟩
  intro other
  rw [rest.node, first.node]
  by_cases here : name :: path <:+ other
  · rw [if_pos here, ite_self, if_pos ⟨name, List.mem_cons_self, here⟩]
  · rw [if_neg here]
    simp only [List.mem_cons, exists_eq_or_imp, here, false_or]

/-- What is below another name is not touched. -/
theorem Cleared.node_of_other {name other : Name} (cleared : Cleared tree after (name :: path))
    (different : other ≠ name) {below : List Name} (isBelow : other :: path <:+ below) :
    after.node below = tree.node below := by
  rw [cleared.node, if_neg]
  intro both
  exact different (eq_of_child_suffix isBelow both)

theorem Cleared.allBelow_iff {name other : Name} (cleared : Cleared tree after (name :: path))
    (different : other ≠ name) (good : Entry Leaf → Prop) :
    after.AllBelow good (other :: path) ↔ tree.AllBelow good (other :: path) := by
  apply forall_congr'
  intro below
  apply forall_congr'
  intro isBelow
  rw [cleared.node_of_other different isBelow]

/-- Where all was good, other paths are as good as before. -/
theorem Cleared.allBelow_of_allBelow {good : Entry Leaf → Prop} (cleared : Cleared tree after path)
    (all : tree.AllBelow good path) (other : List Name) :
    after.AllBelow good other ↔ tree.AllBelow good other := by
  constructor
  · intro remaining below isBelow entry found
    by_cases gone : path <:+ below
    · exact all below gone entry found
    · exact remaining below isBelow entry (by rw [cleared.node, if_neg gone, found])
  · intro before below isBelow entry found
    rw [cleared.node] at found
    split at found
    · cases found
    · exact before below isBelow entry found

/-- A leaf can be removed. -/
theorem remove_leaf {kind : Leaf} (found : tree.node path = some (.leaf kind)) :
    (tree.remove path).2 = true ∧ Cleared tree (tree.remove path).1 path := by
  apply remove_of_clearedNames
  · rw [tree.children_of_leaf found]
    exact clearedNames_nil tree path
  · rw [found]
    exact Option.some_ne_none _

end Clearing

/-! ## The loop over names -/

/-- How a call has ended: it has been left by an exception, or has returned whether it was
successful. -/
abbrev Ending := Option Bool

/-- The calls for the names, until one does not return or is not successful. Nothing stands for a
call whose fuel does not last. -/
def sweep (call : DirectoryTree Name Leaf → List Name →
      Option (DirectoryTree Name Leaf × Ending)) (path : List Name) :
    DirectoryTree Name Leaf → List Name → Option (DirectoryTree Name Leaf × Ending)
  | tree, [] => some (tree, some true)
  | tree, name :: names =>
      match call tree (name :: path) with
      | none => none
      | some (after, some true) => sweep call path after names
      | some (after, ending) => some (after, ending)

/-- A call for a path which exists succeeds exactly if all which it finds below is good, and takes
away just that. -/
structure Sweeps (good : Entry Leaf → Prop) (tree : DirectoryTree Name Leaf) (path : List Name)
    (result : Option (DirectoryTree Name Leaf × Ending)) : Prop where
  ends : result.isSome = true
  succeeds : ∀ after ending, result = some (after, ending) →
    (ending = some true ↔ tree.AllBelow good path) ∧ ending ≠ some false
  clears : ∀ after, result = some (after, some true) → Cleared tree after path

theorem sweep_spec {call : DirectoryTree Name Leaf → List Name →
      Option (DirectoryTree Name Leaf × Ending)} {good : Entry Leaf → Prop} {path : List Name}
    {bound : ℕ}
    (calls : ∀ (tree : DirectoryTree Name Leaf) name, tree.bound = bound →
      tree.node (name :: path) ≠ none → Sweeps good tree (name :: path) (call tree (name :: path)))
    {tree : DirectoryTree Name Leaf} (bounded : tree.bound = bound) {names : List Name}
    (nodup : names.Nodup) (exist : ∀ name ∈ names, tree.node (name :: path) ≠ none) :
    ∃ after ending, sweep call path tree names = some (after, ending) ∧
      (ending = some true ↔ ∀ name ∈ names, tree.AllBelow good (name :: path)) ∧
      ending ≠ some false ∧ (ending = some true → ClearedNames tree after path names) := by
  induction names generalizing tree with
  | nil =>
      refine ⟨tree, some true, rfl, ?_, by decide, fun _ => clearedNames_nil tree path⟩
      simp
  | cons name names ih =>
      rcases List.nodup_cons.1 nodup with ⟨fresh, nodup⟩
      have first := calls tree name bounded (exist name List.mem_cons_self)
      rw [sweep]
      rcases result : call tree (name :: path) with _ | ⟨between, ending⟩
      · have ends := first.ends
        rw [result] at ends
        cases ends
      · rcases first.succeeds between ending result with ⟨succeeds, noFailure⟩
        rcases ending with _ | _ | _
        · refine ⟨between, none, rfl, ?_, by decide, fun contrary => by cases contrary⟩
          refine iff_of_false (by decide) ?_
          intro all
          have here := all name List.mem_cons_self
          cases succeeds.2 here
        · exact absurd rfl noFailure
        · have cleared := first.clears between result
          have others : ∀ other ∈ names, other ≠ name := by
            rintro other member rfl
            exact fresh member
          have remain : ∀ other ∈ names, between.node (other :: path) ≠ none := by
            intro other member
            rw [cleared.node_of_other (others other member) (List.suffix_refl _)]
            exact exist other (List.mem_cons_of_mem _ member)
          rcases ih (cleared.bound.trans bounded) nodup remain with
            ⟨after, ending, ends, succeedsToo, noFailureToo, clears⟩
          refine ⟨after, ending, ends, ?_, noFailureToo,
            fun success => clearedNames_cons cleared (clears success)⟩
          rw [succeedsToo, List.forall_mem_cons, and_iff_right (succeeds.1 rfl)]
          apply forall₂_congr
          intro other member
          exact cleared.allBelow_iff (others other member) good

/-- A whole directory. -/
theorem sweep_children {call : DirectoryTree Name Leaf → List Name →
      Option (DirectoryTree Name Leaf × Ending)} {good : Entry Leaf → Prop}
    {tree : DirectoryTree Name Leaf} {path : List Name}
    (calls : ∀ (other : DirectoryTree Name Leaf) name, other.bound = tree.bound →
      other.node (name :: path) ≠ none →
      Sweeps good other (name :: path) (call other (name :: path)))
    (found : tree.node path ≠ none) :
    ∃ after ending, sweep call path tree (tree.children path) = some (after, ending) ∧
      (ending = some true ↔
        ∀ name ∈ tree.children path, tree.AllBelow good (name :: path)) ∧
      ending ≠ some false ∧
      (ending = some true →
        (after.remove path).2 = true ∧ Cleared tree (after.remove path).1 path) := by
  rcases sweep_spec calls rfl (tree.nodup path) (fun _ => tree.mem_children.1) with
    ⟨after, ending, ends, succeeds, noFailure, clears⟩
  exact ⟨after, ending, ends, succeeds, noFailure,
    fun success => remove_of_clearedNames (clears success) found⟩

end DirectoryTree
