import AndroidCollection.Java.Text
import AndroidCollection.Lib.DirectoryTree

/-!
# Deleting directories with what they hold

`FileUtil.delete` and `CacheUtil.deleteDir` delete what is below a path before the path
itself. Both ask for the names in a directory, which are null for what is no directory
that can be read. `delete` asks whatever is not a regular file, also a path where
nothing is; `deleteDir` asks only directories, but takes a null file, on which it then
calls `delete`. Wherever the null is used, an exception ends all of the calls.

The trees are without links: a link to a file counts as a file of its own, and one which
leads nowhere is a special file. Whatever is not a directory with names in it can be
deleted.
-/

namespace AndroidCollection.Io

open Java DirectoryTree

/-! ## Files -/

abbrev FilePath := List JString

inductive Leaf where
  | regular (content : List UInt8)
  | special
deriving DecidableEq

abbrev Files := DirectoryTree JString Leaf

def exists' (files : Files) (file : FilePath) : Bool :=
  (files.node file).isSome

def isFile (files : Files) (file : FilePath) : Bool :=
  match files.node file with
  | some (.leaf (.regular _)) => true
  | _ => false

def isDirectory (files : Files) (file : FilePath) : Bool :=
  match files.node file with
  | some (.directory _) => true
  | _ => false

/-- `list()` or `listFiles()`; nothing stands for null. -/
def list (files : Files) (file : FilePath) : Option (List JString) :=
  match files.node file with
  | some (.directory true) => some (files.children file)
  | _ => none

/-! ## `FileUtil.delete` -/

/-- A call which returns has no result, and counts as a success. -/
def FileUtil.delete : ℕ → Files → Option FilePath → Option (Files × Ending)
  | 0, _, _ => none
  | _ + 1, files, none => some (files, none)
  | fuel + 1, files, some file =>
      if exists' files file && isFile files file then some ((files.remove file).1, some true)
      else
        match list files file with
        | none => some (files, none)
        | some [] => some ((files.remove file).1, some true)
        | some names =>
            match sweep (fun files child => delete fuel files (some child)) file files names with
            | some (after, some true) => some ((after.remove file).1, some true)
            | result => result

/-! ## `CacheUtil` -/

def CacheUtil.deleteDir : ℕ → Files → Option FilePath → Option (Files × Ending)
  | 0, _, _ => none
  | _ + 1, files, none => some (files, none)
  | fuel + 1, files, some dir =>
      if isDirectory files dir then
        match list files dir with
        | none => some (files, none)
        | some names =>
            match sweep (fun files child => deleteDir fuel files (some child)) dir files names with
            | some (after, some true) => some ((after.remove dir).1, some (after.remove dir).2)
            | result => result
      else some ((files.remove dir).1, some (files.remove dir).2)

/-- The directories are those which the context gives. -/
def CacheUtil.clearAllCache (fuel : ℕ) (files : Files)
    (cacheDir externalCacheDir : Option FilePath) :
    Option (Files × Ending) :=
  match deleteDir fuel files cacheDir with
  | some (after, some _) => deleteDir fuel after externalCacheDir
  | result => result

/-! ## The property and its conditions -/

/-- The call returns, and has taken away the paths and what is below them, and nothing else. -/
def Deletes (files : Files) (paths : List FilePath) (result : Option (Files × Ending)) : Prop :=
  ∃ after ending, result = some (after, ending) ∧ ending ≠ none ∧
    ∀ other, after.node other =
      if ∃ path ∈ paths, path <:+ other then none else files.node other

/-- A directory which can be read, or anything else. -/
def Listable : Entry Leaf → Prop
  | .directory listable => listable = true
  | .leaf _ => True

/-- A directory which can be read, or a regular file. -/
def Plain : Entry Leaf → Prop
  | .directory listable => listable = true
  | .leaf (.regular _) => True
  | .leaf .special => False

/-! ## Calls on paths which exist -/

section Calls

variable {files : Files} {path : FilePath}

theorem sweeps_of_eq {good : Entry Leaf → Prop} {result : Option (Files × Ending)} {after : Files}
    {ending : Ending} (ends : result = some (after, ending))
    (succeeds : ending = some true ↔ files.AllBelow good path) (noFailure : ending ≠ some false)
    (clears : ending = some true → Cleared files after path) :
    Sweeps good files path result := by
  subst ends
  refine ⟨rfl, ?_, ?_⟩
  · intro _ _ same
    cases same
    exact ⟨succeeds, noFailure⟩
  · intro _ same
    cases same
    exact clears rfl

/-- The call raises at what it finds at the path. -/
theorem sweeps_of_raises {good : Entry Leaf → Prop} {result : Option (Files × Ending)}
    {entry : Entry Leaf} (ends : result = some (files, none))
    (found : files.node path = some entry) (bad : ¬good entry) :
    Sweeps good files path result := by
  apply sweeps_of_eq ends
  · refine iff_of_false (by decide) ?_
    intro all
    exact bad (all path (List.suffix_refl path) entry found)
  · decide
  · intro contrary
    cases contrary

theorem sweeps_of_leaf {good : Entry Leaf → Prop} {result : Option (Files × Ending)} {kind : Leaf}
    (ends : result = some ((files.remove path).1, some true))
    (found : files.node path = some (.leaf kind)) (isGood : good (.leaf kind)) :
    Sweeps good files path result := by
  apply sweeps_of_eq ends
  · refine iff_of_true rfl ((files.allBelow_iff found).2 ⟨isGood, ?_⟩)
    rw [files.children_of_leaf found]
    simp
  · decide
  · exact fun _ => (remove_leaf found).2

/-- A directory without names is one whose loop is empty. -/
theorem delete_directory {fuel : ℕ} (found : files.node path = some (.directory true)) :
    FileUtil.delete (fuel + 1) files (some path) =
      match sweep (fun files child => FileUtil.delete fuel files (some child)) path files
        (files.children path) with
      | some (after, some true) => some ((after.remove path).1, some true)
      | result => result := by
  simp only [FileUtil.delete, isFile, list, found, Bool.and_false, Bool.false_eq_true, if_false]
  cases files.children path with
  | nil => rfl
  | cons name names => rfl

/-- `delete` goes through regular files and directories which can be read. -/
theorem sweeps_delete {fuel : ℕ} (found : files.node path ≠ none)
    (enough : files.bound < path.length + fuel) :
    Sweeps Plain files path (FileUtil.delete fuel files (some path)) := by
  induction fuel generalizing files path with
  | zero =>
      have deep := files.length_le found
      omega
  | succ fuel ih =>
      rcases Option.ne_none_iff_exists'.1 found with ⟨entry, isEntry⟩
      rcases entry with (content | _) | (_ | _)
      · apply sweeps_of_leaf _ isEntry trivial
        simp [FileUtil.delete, exists', isFile, isEntry]
      · apply sweeps_of_raises _ isEntry (fun special => special)
        simp [FileUtil.delete, isFile, list, isEntry]
      · apply sweeps_of_raises _ isEntry Bool.false_ne_true
        simp [FileUtil.delete, isFile, list, isEntry]
      · have calls (other : Files) (name : JString) (bounded : other.bound = files.bound)
            (child : other.node (name :: path) ≠ none) :
            Sweeps Plain other (name :: path)
              (FileUtil.delete fuel other (some (name :: path))) := by
          apply ih child
          rw [bounded, List.length_cons]
          omega
        rcases @sweep_children _ _ _
            (fun other child => FileUtil.delete fuel other (some child)) Plain files path calls
            found with ⟨after, ending, ends, succeeds, noFailure, clears⟩
        have below : ending = some true ↔ files.AllBelow Plain path := by
          rw [succeeds, files.allBelow_iff isEntry]
          simp [Plain]
        rw [delete_directory isEntry, ends]
        rcases ending with _ | _ | _
        · exact sweeps_of_eq rfl below noFailure fun contrary => by cases contrary
        · exact absurd rfl noFailure
        · exact sweeps_of_eq rfl below noFailure fun _ => (clears rfl).2

/-- `deleteDir` goes through everything but directories which cannot be read. -/
theorem sweeps_deleteDir {fuel : ℕ} (found : files.node path ≠ none)
    (enough : files.bound < path.length + fuel) :
    Sweeps Listable files path (CacheUtil.deleteDir fuel files (some path)) := by
  induction fuel generalizing files path with
  | zero =>
      have deep := files.length_le found
      omega
  | succ fuel ih =>
      rcases Option.ne_none_iff_exists'.1 found with ⟨entry, isEntry⟩
      rcases entry with kind | (_ | _)
      · apply sweeps_of_leaf _ isEntry trivial
        simp [CacheUtil.deleteDir, isDirectory, isEntry, (remove_leaf isEntry).1]
      · apply sweeps_of_raises _ isEntry Bool.false_ne_true
        simp [CacheUtil.deleteDir, isDirectory, list, isEntry]
      · have calls (other : Files) (name : JString) (bounded : other.bound = files.bound)
            (child : other.node (name :: path) ≠ none) :
            Sweeps Listable other (name :: path)
              (CacheUtil.deleteDir fuel other (some (name :: path))) := by
          apply ih child
          rw [bounded, List.length_cons]
          omega
        rcases @sweep_children _ _ _
            (fun other child => CacheUtil.deleteDir fuel other (some child)) Listable files path
            calls found with ⟨after, ending, ends, succeeds, noFailure, clears⟩
        have below : ending = some true ↔ files.AllBelow Listable path := by
          rw [succeeds, files.allBelow_iff isEntry]
          simp [Listable]
        simp only [CacheUtil.deleteDir, isDirectory, list, isEntry, if_true, ends]
        rcases ending with _ | _ | _
        · exact sweeps_of_eq rfl below noFailure fun contrary => by cases contrary
        · exact absurd rfl noFailure
        · rcases clears rfl with ⟨removed, cleared⟩
          apply sweeps_of_eq _ below noFailure fun _ => cleared
          simp [removed]

theorem deletes_iff_of_sweeps {good : Entry Leaf → Prop} {result : Option (Files × Ending)}
    (sweeps : Sweeps good files path result) :
    Deletes files [path] result ↔ files.AllBelow good path := by
  rcases ends : result with _ | ⟨after, ending⟩
  · have some := sweeps.ends
    rw [ends] at some
    cases some
  · rcases sweeps.succeeds after ending ends with ⟨succeeds, noFailure⟩
    rw [← succeeds]
    constructor
    · rintro ⟨_, _, same, returns, _⟩
      cases same
      rcases ending with _ | _ | _
      · exact absurd rfl returns
      · exact absurd rfl noFailure
      · rfl
    · rintro rfl
      refine ⟨after, some true, rfl, by decide, ?_⟩
      simpa using (sweeps.clears after ends).node

end Calls

/-! ## All paths -/

section Paths

variable {files : Files} {fuel : ℕ}

theorem deletes_delete_iff (enough : files.bound < fuel) (file : Option FilePath) :
    Deletes files file.toList (FileUtil.delete fuel files file) ↔
      ∃ path ∈ file, files.node path ≠ none ∧ files.AllBelow Plain path := by
  obtain ⟨fuel, rfl⟩ := Nat.exists_eq_succ_of_ne_zero (Nat.ne_zero_of_lt enough)
  have raises {paths : List FilePath} : ¬Deletes files paths (some (files, none)) := by
    rintro ⟨_, _, same, returns, _⟩
    cases same
    exact returns rfl
  rcases file with _ | path
  · exact iff_of_false raises (by simp)
  · by_cases found : files.node path = none
    · have missing : FileUtil.delete (fuel + 1) files (some path) = some (files, none) := by
        simp [FileUtil.delete, exists', list, found]
      rw [missing]
      exact iff_of_false raises (by simp [found])
    · have sweeps := sweeps_delete found (Nat.lt_add_left path.length enough)
      simpa [found] using deletes_iff_of_sweeps sweeps

/-- Where nothing is, `deleteDir` returns `false`. -/
theorem deleteDir_spec (enough : files.bound < fuel) (path : FilePath) :
    ∃ after ending, CacheUtil.deleteDir fuel files (some path) = some (after, ending) ∧
      (ending ≠ none ↔ files.AllBelow Listable path) ∧
      (ending ≠ none → Cleared files after path) := by
  by_cases found : files.node path = none
  · obtain ⟨fuel, rfl⟩ := Nat.exists_eq_succ_of_ne_zero (Nat.ne_zero_of_lt enough)
    have cleared := cleared_of_missing found
    refine ⟨files, some false, ?_, ?_, fun _ => cleared⟩
    · simp [CacheUtil.deleteDir, isDirectory, DirectoryTree.remove, found]
    · refine iff_of_true (by decide) ?_
      intro below isBelow entry exists'
      exact absurd found (files.node_ne_none_of_suffix isBelow (by simp [exists']))
  · have sweeps := sweeps_deleteDir found (Nat.lt_add_left path.length enough)
    rcases ends : CacheUtil.deleteDir fuel files (some path) with _ | ⟨after, ending⟩
    · have some := sweeps.ends
      rw [ends] at some
      cases some
    · rcases sweeps.succeeds after ending ends with ⟨succeeds, noFailure⟩
      refine ⟨after, ending, rfl, ?_, ?_⟩
      · rw [← succeeds]
        rcases ending with _ | _ | _
        · decide
        · exact absurd rfl noFailure
        · decide
      · intro returns
        rcases ending with _ | _ | _
        · exact absurd rfl returns
        · exact absurd rfl noFailure
        · exact sweeps.clears after ends

theorem deletes_clearAllCache_iff (enough : files.bound < fuel)
    (cacheDir externalCacheDir : Option FilePath) :
    Deletes files (cacheDir.toList ++ externalCacheDir.toList)
        (CacheUtil.clearAllCache fuel files cacheDir externalCacheDir) ↔
      ∃ inner ∈ cacheDir, ∃ outer ∈ externalCacheDir,
        files.AllBelow Listable inner ∧ files.AllBelow Listable outer := by
  obtain ⟨fuel, rfl⟩ := Nat.exists_eq_succ_of_ne_zero (Nat.ne_zero_of_lt enough)
  have raises {paths : List FilePath} {after : Files} :
      ¬Deletes files paths (some (after, none)) := by
    rintro ⟨_, _, same, returns, _⟩
    cases same
    exact returns rfl
  rcases cacheDir with _ | inner
  · exact iff_of_false raises (by simp)
  rcases deleteDir_spec enough inner with ⟨between, ending, ends, returns, clears⟩
  rw [CacheUtil.clearAllCache, ends]
  rcases ending with _ | success
  · have bad : ¬files.AllBelow Listable inner := fun all => returns.2 all rfl
    exact iff_of_false raises (by simp [bad])
  have all := returns.1 (Option.some_ne_none _)
  have cleared := clears (Option.some_ne_none _)
  rcases externalCacheDir with _ | outer
  · exact iff_of_false raises (by simp)
  have enoughToo : between.bound < fuel + 1 := by rwa [cleared.bound]
  rcases deleteDir_spec enoughToo outer with ⟨after, ending, endsToo, returnsToo, clearsToo⟩
  rw [cleared.allBelow_of_allBelow all] at returnsToo
  simp only [endsToo, Option.mem_some_iff, exists_eq_left', all, true_and]
  rw [← returnsToo]
  constructor
  · rintro ⟨_, _, same, returned, _⟩
    cases same
    exact returned
  · intro returned
    refine ⟨after, ending, rfl, returned, ?_⟩
    intro other
    rw [(clearsToo returned).node, cleared.node]
    by_cases below : outer <:+ other <;> simp [below]

end Paths

/-- A root directory with one regular file. -/
def singleEntry : Files where
  node
    | [] => some (.directory true)
    | [name] => if name = [0x61] then some (.leaf (.regular [7])) else none
    | _ => none
  parent := by
    intro name path found
    cases path with
    | nil => exact ⟨true, rfl⟩
    | cons above path => exact absurd rfl found
  children path := if path = [] then [[0x61]] else []
  mem_children := by
    intro path name
    cases path with
    | nil => simp
    | cons above path => simp
  nodup := by
    intro path
    split <;> simp
  bound := 1
  length_le := by
    intro path found
    match path with
    | [] => simp
    | [_] => simp
    | _ :: _ :: _ => exact absurd rfl found

end AndroidCollection.Io
