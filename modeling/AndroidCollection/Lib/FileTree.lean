import Mathlib.Data.List.Basic
import Mathlib.Data.List.Infix
import Mathlib.Tactic.Common

/-!
# File trees

A file tree without links: what is found at a path, which is written with the
deepest name first, so that an ancestor is a suffix. The root is a directory and
everything else lies in a directory; this is part of the type, and the only
insertions are those which keep it.

A name is resolved step by step, and `..` goes up. The steps are either walked in
the tree, which needs a directory at each of them, or normalized without looking
at any tree; a walk which succeeds ends where normalization ends. A disk is a tree
with a journal of the paths at which something has been created or overwritten.
-/

universe u v

namespace FileTree

inductive Node (Data : Type v) where
  | dir
  | file (data : Data)
deriving DecidableEq, Repr

inductive Step (Name : Type u) where
  | stay
  | up
  | down (name : Name)
deriving DecidableEq, Repr

end FileTree

structure FileTree (Name : Type u) (Data : Type v) where
  node : List Name → Option (FileTree.Node Data)
  root : node [] = some .dir
  parent : ∀ {name path found}, node (name :: path) = some found → node path = some .dir

namespace FileTree

variable {Name : Type u} {Data : Type v}

/-- Just the root. -/
def empty : FileTree Name Data where
  node path := match path with
    | [] => some .dir
    | _ :: _ => none
  root := rfl
  parent := by
    intro name path found exists'
    cases exists'

def isDir (tree : FileTree Name Data) (path : List Name) : Bool :=
  match tree.node path with
  | some .dir => true
  | _ => false

theorem isDir_iff {tree : FileTree Name Data} {path : List Name} :
    tree.isDir path = true ↔ tree.node path = some .dir := by
  unfold isDir
  split <;> simp_all

/-- The ancestors of whatever exists are directories. -/
theorem dir_of_suffix (tree : FileTree Name Data) {ancestor path : List Name}
    (above : ancestor <:+ path) (different : ancestor ≠ path) {found : Node Data}
    (exists' : tree.node path = some found) : tree.node ancestor = some .dir := by
  induction path generalizing found with
  | nil => exact absurd (List.suffix_nil.1 above) different
  | cons name path ih =>
      have parent := tree.parent exists'
      rcases List.suffix_cons_iff.1 above with same | above
      · exact absurd same different
      · by_cases same : ancestor = path
        · rw [same]
          exact parent
        · exact ih above same parent

theorem exists_of_suffix (tree : FileTree Name Data) {ancestor path : List Name}
    (above : ancestor <:+ path) (exists' : tree.node path ≠ none) :
    tree.node ancestor ≠ none := by
  by_cases same : ancestor = path
  · rw [same]
    exact exists'
  · cases found : tree.node path with
    | none => exact absurd found exists'
    | some found' => simp [tree.dir_of_suffix above same found]

/-! ## Steps -/

def step (path : List Name) : Step Name → List Name
  | .stay => path
  | .up => path.tail
  | .down name => name :: path

def normalize (path : List Name) (steps : List (Step Name)) : List Name :=
  steps.foldl step path

/-- Each step starts from a directory; what is at the end need not exist. -/
def walk (tree : FileTree Name Data) (path : List Name) : List (Step Name) → Option (List Name)
  | [] => some path
  | next :: steps => if tree.isDir path then walk tree (step path next) steps else none

theorem normalize_of_walk {tree : FileTree Name Data} {path target : List Name}
    {steps : List (Step Name)} (walked : tree.walk path steps = some target) :
    target = normalize path steps := by
  induction steps generalizing path with
  | nil => exact (Option.some.inj walked).symm
  | cons next steps ih =>
      unfold walk at walked
      split at walked
      · exact ih walked
      · cases walked

theorem normalize_append (path : List Name) (first second : List (Step Name)) :
    normalize path (first ++ second) = normalize (normalize path first) second :=
  List.foldl_append

theorem walk_append (tree : FileTree Name Data) (path : List Name)
    (first second : List (Step Name)) :
    tree.walk path (first ++ second) =
      (tree.walk path first).bind fun reached => tree.walk reached second := by
  induction first generalizing path with
  | nil => rfl
  | cons next first ih =>
      rw [List.cons_append, walk, walk]
      split
      · exact ih _
      · rfl

/-- Steps which never go up only add to a path. -/
theorem normalize_eq_append {steps : List (Step Name)} (noUp : .up ∉ steps) (path : List Name) :
    normalize path steps = normalize [] steps ++ path := by
  induction steps generalizing path with
  | nil => rfl
  | cons next steps ih =>
      have rest : .up ∉ steps := fun among => noUp (List.mem_cons_of_mem next among)
      change normalize (step path next) steps = normalize (step [] next) steps ++ path
      rw [ih rest, ih rest (step [] next), List.append_assoc]
      congr 1
      cases next with
      | stay => rfl
      | up => exact absurd List.mem_cons_self noUp
      | down name => rfl

theorem suffix_normalize {steps : List (Step Name)} (noUp : .up ∉ steps) (path : List Name) :
    path <:+ normalize path steps := by
  rw [normalize_eq_append noUp]
  exact List.suffix_append _ _

/-- A walk down through directories arrives. -/
theorem walk_of_dirs {tree : FileTree Name Data} {steps : List (Step Name)} (noUp : .up ∉ steps)
    {path : List Name} (dirs : ∀ ancestor, path <:+ ancestor →
      ancestor <:+ normalize path steps → tree.node ancestor = some .dir) :
    tree.walk path steps = some (normalize path steps) := by
  induction steps generalizing path with
  | nil => rfl
  | cons next steps ih =>
      have rest : .up ∉ steps := fun among => noUp (List.mem_cons_of_mem next among)
      have here := dirs path (List.suffix_refl path) (suffix_normalize noUp path)
      have further : path <:+ step path next := by
        cases next with
        | stay => exact List.suffix_refl path
        | up => exact absurd List.mem_cons_self noUp
        | down name => exact List.suffix_cons name path
      rw [walk, if_pos (isDir_iff.2 here)]
      exact ih rest fun ancestor above below => dirs ancestor (further.trans above) below

theorem walk_of_dirs_kept {tree after : FileTree Name Data}
    (dirs : ∀ {path}, tree.node path = some .dir → after.node path = some .dir)
    {path target : List Name} {steps : List (Step Name)}
    (walked : tree.walk path steps = some target) : after.walk path steps = some target := by
  induction steps generalizing path with
  | nil => exact walked
  | cons next steps ih =>
      unfold walk at walked ⊢
      split at walked
      · next here =>
          rw [if_pos (isDir_iff.2 (dirs (isDir_iff.1 here)))]
          exact ih walked
      · cases walked

/-! ## Disks -/

variable [DecidableEq Name]

/-- A new entry in a directory, or a file in the place of another one. -/
def insert (tree : FileTree Name Data) (name : Name) (directory : List Name) (new : Node Data)
    (isDirectory : tree.node directory = some .dir)
    (notDirectory : tree.node (name :: directory) ≠ some .dir) : FileTree Name Data where
  node path := if path = name :: directory then some new else tree.node path
  root := by simp [tree.root]
  parent := by
    intro other path found exists'
    by_cases here : other :: path = name :: directory
    · rcases List.cons.inj here with ⟨_, rfl⟩
      simp [isDirectory]
    · rw [if_neg here] at exists'
      have parent := tree.parent exists'
      by_cases below : path = name :: directory
      · rw [below] at parent
        exact absurd parent notDirectory
      · rw [if_neg below]
        exact parent

end FileTree

structure Disk (Name : Type u) (Data : Type v) where
  tree : FileTree Name Data
  journal : List (List Name)

namespace Disk

open FileTree

variable {Name : Type u} {Data : Type v} [DecidableEq Name]

/-- Creates or overwrites a file. -/
def write (disk : Disk Name Data) (path : List Name) (data : Data) : Option (Disk Name Data) :=
  match path with
  | [] => none
  | name :: directory =>
      if possible : disk.tree.isDir directory = true ∧
          disk.tree.isDir (name :: directory) = false then
        some
          { tree := disk.tree.insert name directory (.file data) (isDir_iff.1 possible.1)
              (fun contrary => by simp [isDir_iff.2 contrary] at possible)
            journal := disk.journal ++ [name :: directory] }
      else none

/-- Creates one directory. -/
def mkdir (disk : Disk Name Data) (path : List Name) : Option (Disk Name Data) :=
  match path with
  | [] => none
  | name :: directory =>
      if possible : disk.tree.isDir directory = true ∧
          (disk.tree.node (name :: directory)).isNone = true then
        some
          { tree := disk.tree.insert name directory .dir (isDir_iff.1 possible.1)
              (fun contrary => by simp [contrary] at possible)
            journal := disk.journal ++ [name :: directory] }
      else none

/-- Creates a directory with its missing ancestors, and says whether it has created it. -/
def mkdirs (disk : Disk Name Data) : List Name → Disk Name Data × Bool
  | [] => (disk, false)
  | name :: directory =>
      if (disk.tree.node (name :: directory)).isSome then (disk, false)
      else
        let above := mkdirs disk directory
        if above.2 || (above.1.tree.node directory).isSome then
          match above.1.mkdir (name :: directory) with
          | some made => (made, true)
          | none => (above.1, false)
        else (above.1, false)

/-- What a successful write does. -/
theorem write_spec {disk after : Disk Name Data} {path : List Name} {data : Data}
    (wrote : disk.write path data = some after) :
    (∃ name directory, path = name :: directory ∧ disk.tree.node directory = some .dir) ∧
      disk.tree.node path ≠ some .dir ∧ after.journal = disk.journal ++ [path] ∧
      ∀ other, after.tree.node other =
        if other = path then some (.file data) else disk.tree.node other := by
  cases path with
  | nil => cases wrote
  | cons name directory =>
      simp only [write] at wrote
      split at wrote
      · next possible =>
          cases wrote
          refine ⟨⟨name, directory, rfl, isDir_iff.1 possible.1⟩, ?_, rfl, fun _ => rfl⟩
          intro contrary
          simp [isDir_iff.2 contrary] at possible
      · cases wrote

theorem exists_write {disk : Disk Name Data} {name : Name} {directory : List Name}
    (isDirectory : disk.tree.node directory = some .dir)
    (notDirectory : disk.tree.node (name :: directory) ≠ some .dir) (data : Data) :
    ∃ after, disk.write (name :: directory) data = some after := by
  unfold write
  have possible : disk.tree.isDir directory = true ∧
      disk.tree.isDir (name :: directory) = false :=
    ⟨isDir_iff.2 isDirectory, Bool.eq_false_iff.2 fun contrary =>
      notDirectory (isDir_iff.1 contrary)⟩
  simp only [dif_pos possible]
  exact ⟨_, rfl⟩

theorem mkdir_spec {disk after : Disk Name Data} {path : List Name}
    (made : disk.mkdir path = some after) :
    disk.tree.node path = none ∧ after.journal = disk.journal ++ [path] ∧
      ∀ other, after.tree.node other =
        if other = path then some .dir else disk.tree.node other := by
  cases path with
  | nil => cases made
  | cons name directory =>
      simp only [mkdir] at made
      split at made
      · next possible =>
          cases made
          exact ⟨Option.isNone_iff_eq_none.1 possible.2, rfl, fun _ => rfl⟩
      · cases made

theorem exists_mkdir {disk : Disk Name Data} {name : Name} {directory : List Name}
    (isDirectory : disk.tree.node directory = some .dir)
    (missing : disk.tree.node (name :: directory) = none) :
    ∃ after, disk.mkdir (name :: directory) = some after := by
  unfold mkdir
  have possible : disk.tree.isDir directory = true ∧
      (disk.tree.node (name :: directory)).isNone = true := by
    simp [isDir_iff.2 isDirectory, missing]
  simp only [dif_pos possible]
  exact ⟨_, rfl⟩

/-- A later state of a disk: nothing is taken away, and the journal says what is new. -/
structure Grows (disk after : Disk Name Data) (created : List (List Name)) : Prop where
  journal : after.journal = disk.journal ++ created
  dirs : ∀ {path}, disk.tree.node path = some .dir → after.tree.node path = some .dir
  keeps : ∀ {path}, disk.tree.node path ≠ none → after.tree.node path ≠ none

omit [DecidableEq Name] in
theorem Grows.refl (disk : Disk Name Data) : Grows disk disk [] :=
  ⟨(List.append_nil _).symm, fun found => found, fun found => found⟩

omit [DecidableEq Name] in
theorem Grows.trans {first second third : Disk Name Data} {some' more : List (List Name)}
    (early : Grows first second some') (late : Grows second third more) :
    Grows first third (some' ++ more) := by
  constructor
  · rw [late.journal, early.journal, List.append_assoc]
  · intro path found
    exact late.dirs (early.dirs found)
  · intro path found
    exact late.keeps (early.keeps found)

theorem grows_write {disk after : Disk Name Data} {path : List Name} {data : Data}
    (wrote : disk.write path data = some after) : Grows disk after [path] := by
  rcases write_spec wrote with ⟨_, notDirectory, journal, nodes⟩
  refine ⟨journal, ?_, ?_⟩
  · intro other found
    rw [nodes, if_neg]
    · exact found
    · rintro rfl
      exact notDirectory found
  · intro other found
    rw [nodes]
    split
    · simp
    · exact found

theorem grows_mkdir {disk after : Disk Name Data} {path : List Name}
    (made : disk.mkdir path = some after) : Grows disk after [path] := by
  rcases mkdir_spec made with ⟨_, journal, nodes⟩
  refine ⟨journal, ?_, ?_⟩
  · intro other found
    rw [nodes]
    split
    · rfl
    · exact found
  · intro other found
    rw [nodes]
    split
    · simp
    · exact found

/-- Only missing ancestors are created. -/
theorem grows_mkdirs (disk : Disk Name Data) (path : List Name) :
    ∃ created, Grows disk (disk.mkdirs path).1 created ∧
      ∀ new ∈ created, new <:+ path ∧ disk.tree.node new = none := by
  induction path with
  | nil => exact ⟨[], Grows.refl disk, by simp⟩
  | cons name directory ih =>
      rcases ih with ⟨created, grows, missing⟩
      have above : ∀ new ∈ created, new <:+ name :: directory ∧ disk.tree.node new = none := by
        intro new among
        rcases missing new among with ⟨suffix, none'⟩
        exact ⟨suffix.trans (List.suffix_cons name directory), none'⟩
      unfold mkdirs
      split
      · exact ⟨[], Grows.refl disk, by simp⟩
      · next absent =>
          simp only
          split
          · split
            · next made is =>
                refine ⟨created ++ [name :: directory], grows.trans (grows_mkdir is), ?_⟩
                intro new among
                rcases List.mem_append.1 among with earlier | last
                · exact above new earlier
                · rw [List.mem_singleton.1 last]
                  exact ⟨List.suffix_refl _, Option.not_isSome_iff_eq_none.1 absent⟩
            · exact ⟨created, grows, above⟩
          · exact ⟨created, grows, above⟩

/-- Making directories does not touch files. -/
theorem file_mkdirs_iff (disk : Disk Name Data) (path : List Name) {other : List Name}
    {data : Data} : (disk.mkdirs path).1.tree.node other = some (.file data) ↔
      disk.tree.node other = some (.file data) := by
  induction path with
  | nil => exact Iff.rfl
  | cons name directory ih =>
      unfold mkdirs
      split
      · exact Iff.rfl
      · simp only
        split
        · split
          · next made is =>
              rcases mkdir_spec is with ⟨missing, _, nodes⟩
              rw [nodes, ← ih]
              split
              · next same => simp [same, missing]
              · exact Iff.rfl
          · exact ih
        · exact ih

theorem exists_of_mkdirs {disk : Disk Name Data} {path : List Name}
    (created : (disk.mkdirs path).2 = true) :
    (disk.mkdirs path).1.tree.node path = some .dir := by
  cases path with
  | nil => cases created
  | cons name directory =>
      unfold mkdirs at created ⊢
      split at created
      · cases created
      · next absent =>
          simp only at created
          rw [if_neg absent]
          simp only
          split at created
          · next possible =>
              rw [if_pos possible]
              split at created
              · next made is => simp [(mkdir_spec is).2.2]
              · cases created
          · cases created

/-- When no file is in the way, the directory and all its ancestors are there afterwards, and
nothing else has changed. -/
theorem mkdirs_nodes (disk : Disk Name Data) {path : List Name}
    (free : ∀ ancestor, ancestor <:+ path → ∀ data,
      disk.tree.node ancestor ≠ some (.file data)) (other : List Name) :
    (disk.mkdirs path).1.tree.node other =
      if other <:+ path then some .dir else disk.tree.node other := by
  induction path generalizing other with
  | nil =>
      split
      · next root =>
          rw [List.suffix_nil.1 root]
          exact disk.tree.root
      · rfl
  | cons name directory ih =>
      have below := ih fun ancestor above => free ancestor (above.trans (List.suffix_cons _ _))
      unfold mkdirs
      cases found : disk.tree.node (name :: directory) with
      | some there =>
          have isDirectory : disk.tree.node (name :: directory) = some .dir := by
            cases there with
            | dir => exact found
            | file data => exact absurd found (free _ (List.suffix_refl _) data)
          rw [Option.isSome_some, if_pos rfl]
          split
          · next above =>
              by_cases same : other = name :: directory
              · rw [same]
                exact isDirectory
              · exact disk.tree.dir_of_suffix above same found
          · rfl
      | none =>
          have above : (disk.mkdirs directory).1.tree.node directory = some .dir := by
            rw [below, if_pos (List.suffix_refl _)]
          have missing : (disk.mkdirs directory).1.tree.node (name :: directory) = none := by
            rw [below, if_neg, found]
            intro suffix
            exact absurd suffix.length_le (by simp)
          rcases exists_mkdir above missing with ⟨after, made⟩
          simp only [Option.isSome_none, above, Option.isSome_some, Bool.or_true, if_true, made]
          rw [if_neg (by simp), (mkdir_spec made).2.2, below]
          by_cases same : other = name :: directory
          · rw [if_pos same, if_pos (same ▸ List.suffix_refl _)]
          · rw [if_neg same]
            apply if_congr _ rfl rfl
            rw [List.suffix_cons_iff]
            exact (or_iff_right same).symm

end Disk
