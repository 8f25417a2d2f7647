import AndroidCollection.Io.Zip
import Mathlib.Data.List.Nodup

/-!
# The three extractors compared

`unzip` leaves exactly the tree which a well-formed archive describes. The other
two open a file for every entry and never create a directory, so they leave the
same tree exactly when every entry is a file directly in the root of the archive.
-/

namespace AndroidCollection.Io

open Java FileTree

/-- The path of an entry in the archive. -/
def ZipEntry.path (entry : ZipEntry) : List JString :=
  normalize [] (File.steps entry.name)

/-- Entries which describe a tree: no name goes up, and each entry has a place of its own below the
root, which for a file is not above another entry. -/
structure WellFormed (entries : List ZipEntry) : Prop where
  complete : ∀ entry ∈ entries, ∃ bytes, entry.data = .complete bytes
  noUp : ∀ entry ∈ entries, .up ∉ File.steps entry.name
  below : ∀ entry ∈ entries, entry.path ≠ []
  named : ∀ entry ∈ entries, entry.isDirectory = false →
    ∃ above name, File.steps entry.name = above ++ [.down name]
  distinct : (entries.map ZipEntry.path).Nodup
  separate : ∀ entry ∈ entries, entry.isDirectory = false → ∀ other ∈ entries,
    entry.path <:+ other.path → entry = other

/-- An existing directory with nothing in it. -/
structure EmptyTarget (tree : Tree) (targetDir : File) : Prop where
  resolved : File.resolve tree targetDir = some targetDir.path
  directory : tree.node targetDir.path = some .dir
  empty : ∀ name, tree.node (name :: targetDir.path) = none

/-- What lies in a directory, by its path from there. -/
def contents (tree : Tree) (targetDir : File) (path : List JString) :
    Option (Node (List UInt8)) :=
  tree.node (path ++ targetDir.path)

/-- A file directly in the root of the archive. -/
def Flat (entry : ZipEntry) : Prop :=
  entry.isDirectory = false ∧ entry.path.length = 1

/-! ## The described tree -/

/-- The entries and their ancestors are in the target, and nothing else. -/
structure Unpacked (entries : List ZipEntry) (tree : Tree) (targetDir : File) : Prop where
  resolved : File.resolve tree targetDir = some targetDir.path
  root : contents tree targetDir [] = some .dir
  files : ∀ entry ∈ entries, entry.isDirectory = false → ∀ bytes,
    entry.data = .complete bytes → contents tree targetDir entry.path = some (.file bytes)
  dirs : ∀ entry ∈ entries, ∀ path, path <:+ entry.path →
    entry.isDirectory = true ∨ path ≠ entry.path → contents tree targetDir path = some .dir
  nothing : ∀ path, path ≠ [] → (∀ entry ∈ entries, ¬path <:+ entry.path) →
    contents tree targetDir path = none

theorem unpacked_nil {tree : Tree} {targetDir : File} (empty : EmptyTarget tree targetDir) :
    Unpacked [] tree targetDir := by
  refine ⟨empty.resolved, empty.directory, by simp, by simp, ?_⟩
  intro path below _
  by_contra there
  rcases List.eq_nil_or_concat path with rfl | ⟨deeper, name, rfl⟩
  · exact below rfl
  · have above : name :: targetDir.path <:+ deeper.concat name ++ targetDir.path := by
      rw [List.concat_eq_append, List.append_assoc]
      exact List.suffix_append _ _
    exact tree.exists_of_suffix above there (empty.empty name)

/-- The described tree is determined by the entries, in whatever order. -/
theorem contents_eq {first second : List ZipEntry} (wellFormed : WellFormed first)
    (same : ∀ entry, entry ∈ first ↔ entry ∈ second) {tree other : Tree} {targetDir otherDir : File}
    (unpacked : Unpacked first tree targetDir) (unpackedOther : Unpacked second other otherDir) :
    contents tree targetDir = contents other otherDir := by
  funext path
  by_cases root : path = []
  · rw [root, unpacked.root, unpackedOther.root]
  · by_cases described : ∃ entry ∈ first, path <:+ entry.path
    · rcases described with ⟨entry, among, above⟩
      by_cases isDirectory : entry.isDirectory = true ∨ path ≠ entry.path
      · rw [unpacked.dirs entry among path above isDirectory,
          unpackedOther.dirs entry ((same entry).1 among) path above isDirectory]
      · rw [not_or, not_not, Bool.not_eq_true] at isDirectory
        rcases wellFormed.complete entry among with ⟨bytes, data⟩
        rw [isDirectory.2, unpacked.files entry among isDirectory.1 bytes data,
          unpackedOther.files entry ((same entry).1 among) isDirectory.1 bytes data]
    · have nowhere : ∀ entry ∈ first, ¬path <:+ entry.path :=
        fun entry among above => described ⟨entry, among, above⟩
      rw [unpacked.nothing path root nowhere, unpackedOther.nothing path root fun entry among =>
        nowhere entry ((same entry).2 among)]

theorem WellFormed.sublist {entries fewer : List ZipEntry} (wellFormed : WellFormed entries)
    (sublist : fewer.Sublist entries) : WellFormed fewer := by
  have within {entry : ZipEntry} (among : entry ∈ fewer) : entry ∈ entries :=
    sublist.subset among
  constructor
  · exact fun entry among => wellFormed.complete entry (within among)
  · exact fun entry among => wellFormed.noUp entry (within among)
  · exact fun entry among => wellFormed.below entry (within among)
  · exact fun entry among => wellFormed.named entry (within among)
  · exact wellFormed.distinct.sublist (sublist.map ZipEntry.path)
  · exact fun entry among isFile other amongOther =>
      wellFormed.separate entry (within among) isFile other (within amongOther)

theorem WellFormed.perm {entries other : List ZipEntry} (wellFormed : WellFormed entries)
    (perm : other.Perm entries) : WellFormed other := by
  constructor
  · exact fun entry among => wellFormed.complete entry (perm.subset among)
  · exact fun entry among => wellFormed.noUp entry (perm.subset among)
  · exact fun entry among => wellFormed.below entry (perm.subset among)
  · exact fun entry among => wellFormed.named entry (perm.subset among)
  · exact ((perm.map ZipEntry.path).nodup_iff).2 wellFormed.distinct
  · exact fun entry among isFile another amongOther =>
      wellFormed.separate entry (perm.subset among) isFile another (perm.subset amongOther)

/-! ## One round -/

section Rounds

variable {done : List ZipEntry} {entry : ZipEntry} {disk : FileSystem} {targetDir : File}

theorem fresh_of_wellFormed (wellFormed : WellFormed (done ++ [entry])) {other : ZipEntry}
    (among : other ∈ done) : other.path ≠ entry.path := by
  have distinct := wellFormed.distinct
  rw [List.map_append, List.nodup_append] at distinct
  exact distinct.2.2 other.path (List.mem_map_of_mem among) entry.path (by simp)

theorem append_suffix_append_iff {first second base : List JString} :
    first ++ base <:+ second ++ base ↔ first <:+ second := by
  constructor
  · rintro ⟨more, same⟩
    rw [← List.append_assoc] at same
    exact ⟨more, List.append_cancel_right same⟩
  · rintro ⟨more, rfl⟩
    exact ⟨more, by rw [List.append_assoc]⟩

theorem path_child {name : JString} (noUp : .up ∉ File.steps name) :
    (targetDir.child name).path = normalize [] (File.steps name) ++ targetDir.path := by
  unfold File.path File.child
  rw [normalize_append, normalize_eq_append noUp]

/-- What an entry adds to a described tree. -/
theorem unpacked_append {tree after : Tree} (wellFormed : WellFormed (done ++ [entry]))
    (unpacked : Unpacked done tree targetDir)
    (resolved : File.resolve after targetDir = some targetDir.path) {bytes : List UInt8}
    (data : entry.data = .complete bytes)
    (adds : ∀ path, contents after targetDir path =
      if path <:+ entry.path then
        if entry.isDirectory = true ∨ path ≠ entry.path then some .dir else some (.file bytes)
      else contents tree targetDir path) :
    Unpacked (done ++ [entry]) after targetDir := by
  have last : entry ∈ done ++ [entry] := by simp
  have below := wellFormed.below entry last
  constructor
  · exact resolved
  · rw [adds, if_pos List.nil_suffix, if_pos (Or.inr below.symm)]
  · intro other among isFile otherBytes otherData
    rw [adds]
    rcases List.mem_append.1 among with earlier | new
    · rw [if_neg, unpacked.files other earlier isFile otherBytes otherData]
      intro above
      have same := wellFormed.separate other among isFile entry last above
      exact fresh_of_wellFormed wellFormed earlier (congrArg ZipEntry.path same)
    · rw [List.mem_singleton.1 new] at isFile otherData ⊢
      rw [data] at otherData
      cases otherData
      simp [isFile]
  · intro other among path above isDirectory
    rw [adds]
    rcases List.mem_append.1 among with earlier | new
    · by_cases covered : path <:+ entry.path
      · rw [if_pos covered, if_pos]
        by_contra isFile
        rw [not_or, not_not, Bool.not_eq_true] at isFile
        rw [isFile.2] at above
        have same := wellFormed.separate entry last isFile.1 other among above
        exact fresh_of_wellFormed wellFormed earlier (congrArg ZipEntry.path same.symm)
      · rw [if_neg covered]
        exact unpacked.dirs other earlier path above isDirectory
    · rw [List.mem_singleton.1 new] at above isDirectory
      rw [if_pos above, if_pos isDirectory]
  · intro path pathBelow nowhere
    rw [adds, if_neg (nowhere entry last)]
    exact unpacked.nothing path pathBelow fun other among =>
      nowhere other (List.mem_append_left _ among)

/-- A directory in the target and its ancestors there are created when no file is in the way. -/
theorem contents_mkdirs {steps : List (Step JString)} (noUp : .up ∉ steps)
    (root : contents disk.tree targetDir [] = some .dir)
    (free : ∀ path, path <:+ normalize [] steps → ∀ data,
      contents disk.tree targetDir path ≠ some (.file data)) (path : List JString) :
    contents (File.mkdirs disk (targetDir ++ steps)).1.tree targetDir path =
      if path <:+ normalize [] steps then some .dir else contents disk.tree targetDir path := by
  have filePath : File.path (targetDir ++ steps) = normalize [] steps ++ targetDir.path := by
    unfold File.path
    rw [normalize_append, normalize_eq_append noUp]
  unfold File.mkdirs
  split
  · next present =>
      have there := File.exists_of_exists' present
      rw [filePath] at there
      split
      · next above =>
          by_cases same : path = normalize [] steps
          · rw [same]
            cases found : disk.tree.node (normalize [] steps ++ targetDir.path) with
            | none => exact absurd found there
            | some node =>
                cases node with
                | dir => exact found
                | file data => exact absurd found (free _ (List.suffix_refl _) data)
          · cases found : disk.tree.node (normalize [] steps ++ targetDir.path) with
            | none => exact absurd found there
            | some node =>
                apply disk.tree.dir_of_suffix (append_suffix_append_iff.2 above) _ found
                intro equal
                exact same (List.append_cancel_right equal)
      · rfl
  · rw [filePath]
    have noFile : ∀ ancestor, ancestor <:+ normalize [] steps ++ targetDir.path → ∀ data,
        disk.tree.node ancestor ≠ some (.file data) := by
      intro ancestor above data found
      rcases List.suffix_or_suffix_of_suffix above (List.suffix_append _ targetDir.path) with
        higher | lower
      · by_cases same : ancestor = targetDir.path
        · rw [same] at found
          exact absurd (found.symm.trans root) (by simp)
        · have dir := disk.tree.dir_of_suffix higher same root
          exact absurd (found.symm.trans dir) (by simp)
      · rcases lower with ⟨path, rfl⟩
        exact free path (append_suffix_append_iff.1 above) data found
    unfold contents
    rw [Disk.mkdirs_nodes disk noFile]
    apply if_congr append_suffix_append_iff rfl rfl

/-- Making directories leaves the way to the target. -/
theorem resolved_mkdirs (file : File) (resolved : File.resolve disk.tree targetDir =
    some targetDir.path) :
    File.resolve (file.mkdirs disk).1.tree targetDir = some targetDir.path := by
  unfold File.mkdirs
  split
  · exact resolved
  · rcases Disk.grows_mkdirs disk file.path with ⟨_, grows, _⟩
    exact walk_of_dirs_kept grows.dirs resolved

/-- A file can be written below directories when there is no directory in its place. -/
theorem contents_write {above : List (Step JString)} {name : JString} (noUp : .up ∉ above)
    (resolved : File.resolve disk.tree targetDir = some targetDir.path)
    (dirs : ∀ path, path <:+ normalize [] above → contents disk.tree targetDir path = some .dir)
    (free : contents disk.tree targetDir (name :: normalize [] above) ≠ some .dir)
    (bytes : List UInt8) :
    ∃ after, File.write disk (targetDir ++ (above ++ [.down name])) bytes = some after ∧
      File.resolve after.tree targetDir = some targetDir.path ∧
      ∀ path, contents after.tree targetDir path =
        if path = name :: normalize [] above then some (.file bytes)
        else contents disk.tree targetDir path := by
  have way : disk.tree.walk targetDir.path above =
      some (normalize [] above ++ targetDir.path) := by
    rw [← normalize_eq_append noUp]
    apply walk_of_dirs noUp
    rintro ancestor ⟨path, rfl⟩ below
    rw [normalize_eq_append noUp] at below
    exact dirs path (append_suffix_append_iff.1 below)
  have here : disk.tree.node (normalize [] above ++ targetDir.path) = some .dir :=
    dirs _ (List.suffix_refl _)
  have walked : File.resolve disk.tree (targetDir ++ (above ++ [.down name])) =
      some (name :: (normalize [] above ++ targetDir.path)) := by
    unfold File.resolve at resolved ⊢
    rw [walk_append, resolved, Option.bind_some, walk_append, way, Option.bind_some, walk,
      if_pos (isDir_iff.2 here)]
    rfl
  rcases Disk.exists_write here free bytes with ⟨after, wrote⟩
  refine ⟨after, ?_, ?_, ?_⟩
  · unfold File.write
    rw [walked, Option.bind_some]
    exact wrote
  · exact walk_of_dirs_kept (Disk.grows_write wrote).dirs resolved
  · intro path
    unfold contents
    rw [(Disk.write_spec wrote).2.2.2]
    apply if_congr _ rfl rfl
    rw [← List.cons_append]
    constructor
    · exact List.append_cancel_right
    · rintro rfl
      rfl

/-- A file in a described tree is an entry. -/
theorem entry_of_file {tree : Tree} {entries : List ZipEntry}
    (unpacked : Unpacked entries tree targetDir) {path : List JString} {data : List UInt8}
    (found : contents tree targetDir path = some (.file data)) :
    ∃ other ∈ entries, other.isDirectory = false ∧ other.path = path := by
  by_cases root : path = []
  · rw [root, unpacked.root] at found
    cases found
  · by_contra noEntry
    have nowhere : ¬∃ other ∈ entries, path <:+ other.path := by
      rintro ⟨other, among, above⟩
      by_cases isDirectory : other.isDirectory = true ∨ path ≠ other.path
      · rw [unpacked.dirs other among path above isDirectory] at found
        cases found
      · rw [not_or, not_not, Bool.not_eq_true] at isDirectory
        exact noEntry ⟨other, among, isDirectory.1, isDirectory.2.symm⟩
    rw [unpacked.nothing path root fun other among above => nowhere ⟨other, among, above⟩] at found
    cases found

theorem no_file_above (wellFormed : WellFormed (done ++ [entry]))
    (unpacked : Unpacked done disk.tree targetDir) {path : List JString}
    (above : path <:+ entry.path) (data : List UInt8) :
    contents disk.tree targetDir path ≠ some (.file data) := by
  intro found
  rcases entry_of_file unpacked found with ⟨other, among, isFile, rfl⟩
  have same := wellFormed.separate other (List.mem_append_left _ among) isFile entry (by simp) above
  exact fresh_of_wellFormed wellFormed among (congrArg ZipEntry.path same)

theorem nothing_at_file (wellFormed : WellFormed (done ++ [entry]))
    (unpacked : Unpacked done disk.tree targetDir) (isFile : entry.isDirectory = false) :
    contents disk.tree targetDir entry.path = none := by
  have last : entry ∈ done ++ [entry] := by simp
  apply unpacked.nothing entry.path (wellFormed.below entry last)
  intro other among above
  have same := wellFormed.separate entry last isFile other (List.mem_append_left _ among) above
  exact fresh_of_wellFormed wellFormed among (congrArg ZipEntry.path same.symm)

/-- The file which an entry describes: its bytes, the steps to its directory, and its name. -/
theorem file_at (wellFormed : WellFormed (done ++ [entry])) (isFile : entry.isDirectory = false) :
    ∃ bytes above name, entry.data = .complete bytes ∧
      File.steps entry.name = above ++ [.down name] ∧
      entry.path = name :: normalize [] above ∧ .up ∉ above := by
  have last : entry ∈ done ++ [entry] := by simp
  rcases wellFormed.complete entry last with ⟨bytes, data⟩
  rcases wellFormed.named entry last isFile with ⟨above, name, steps⟩
  refine ⟨bytes, above, name, data, steps, ?_, ?_⟩
  · rw [ZipEntry.path, steps, normalize_append]
    rfl
  · intro among
    apply wellFormed.noUp entry last
    rw [steps]
    exact List.mem_append_left _ among

theorem mkdirs_unless_exists (file : File) :
    (if !file.exists' disk.tree then (file.mkdirs disk).1 else disk) = (file.mkdirs disk).1 := by
  unfold File.mkdirs
  cases file.exists' disk.tree <;> simp

theorem unzipEntry_directory (wellFormed : WellFormed (done ++ [entry]))
    (unpacked : Unpacked done disk.tree targetDir) (isDirectory : entry.isDirectory = true) :
    ∃ after, unzipEntry targetDir disk entry = (after, true) ∧
      Unpacked (done ++ [entry]) after.tree targetDir := by
  have last : entry ∈ done ++ [entry] := by simp
  rcases wellFormed.complete entry last with ⟨bytes, data⟩
  refine ⟨((targetDir.child entry.name).mkdirs disk).1, ?_, ?_⟩
  · simp only [unzipEntry, if_pos isDirectory, mkdirs_unless_exists]
  · apply unpacked_append wellFormed unpacked (resolved_mkdirs _ unpacked.resolved) data
    intro path
    simp only [isDirectory, true_or, if_true]
    exact contents_mkdirs (wellFormed.noUp entry last) unpacked.root
      (fun path above => no_file_above wellFormed unpacked above) path

theorem unzipEntry_file (wellFormed : WellFormed (done ++ [entry]))
    (unpacked : Unpacked done disk.tree targetDir) (isFile : entry.isDirectory = false) :
    ∃ after, unzipEntry targetDir disk entry = (after, true) ∧
      Unpacked (done ++ [entry]) after.tree targetDir := by
  have noUp := wellFormed.noUp entry (by simp)
  rcases file_at wellFormed isFile with ⟨bytes, above, name, data, steps, path, aboveNoUp⟩
  have absent := nothing_at_file wellFormed unpacked isFile
  have notThere : (targetDir.child entry.name).exists' disk.tree = false := by
    rw [Bool.eq_false_iff]
    intro present
    have there := File.exists_of_exists' present
    rw [path_child noUp] at there
    exact there absent
  have parent : (targetDir.child entry.name).getParentFile = targetDir ++ above := by
    unfold File.getParentFile File.child
    rw [steps, ← List.append_assoc, List.dropLast_concat]
  have made := contents_mkdirs aboveNoUp unpacked.root fun path' higher =>
    no_file_above wellFormed unpacked (by rw [path]; exact higher.trans (List.suffix_cons _ _))
  have notAbove : ¬name :: normalize [] above <:+ normalize [] above := fun contrary =>
    absurd contrary.length_le (by simp)
  have free : contents (File.mkdirs disk (targetDir ++ above)).1.tree targetDir
      (name :: normalize [] above) ≠ some .dir := by
    rw [made, if_neg notAbove, ← path, absent]
    simp
  rcases contents_write aboveNoUp (resolved_mkdirs (targetDir ++ above) unpacked.resolved)
    (fun path' higher => by rw [made, if_pos higher]) free bytes with
    ⟨after, wrote, resolved, written⟩
  refine ⟨after, ?_, ?_⟩
  · have out : targetDir.child entry.name = targetDir ++ (above ++ [.down name]) := by
      rw [File.child, steps]
    simp only [unzipEntry, isFile, notThere, parent, data, Bool.not_false, if_true]
    simp only [copyEntry, out, wrote]
    simp
  · apply unpacked_append wellFormed unpacked resolved data
    intro other
    rw [written, made, path]
    simp only [isFile, List.suffix_cons_iff]
    by_cases same : other = name :: normalize [] above
    · simp [same]
    · by_cases higher : other <:+ normalize [] above
      · simp [same, higher]
      · simp [same, higher]

theorem unzipEntry_unpacked (wellFormed : WellFormed (done ++ [entry]))
    (unpacked : Unpacked done disk.tree targetDir) :
    ∃ after, unzipEntry targetDir disk entry = (after, true) ∧
      Unpacked (done ++ [entry]) after.tree targetDir := by
  cases kind : entry.isDirectory with
  | true => exact unzipEntry_directory wellFormed unpacked kind
  | false => exact unzipEntry_file wellFormed unpacked kind

theorem extractFlat_unpacked (wellFormed : WellFormed (done ++ [entry])) (flat : Flat entry)
    (unpacked : Unpacked done disk.tree targetDir) :
    ∃ after, extractFlat targetDir disk entry = (after, true) ∧
      Unpacked (done ++ [entry]) after.tree targetDir := by
  rcases flat with ⟨isFile, short⟩
  rcases file_at wellFormed isFile with ⟨bytes, above, name, data, steps, path, aboveNoUp⟩
  have absent := nothing_at_file wellFormed unpacked isFile
  have root : normalize [] above = [] := by
    rw [path] at short
    exact List.length_eq_zero_iff.1 (Nat.succ.inj short)
  rw [path, root] at absent
  rcases contents_write aboveNoUp unpacked.resolved
    (fun path' higher => by
      rw [root, List.suffix_nil] at higher
      rw [higher]
      exact unpacked.root)
    (by rw [root, absent]; simp) bytes with ⟨after, wrote, resolved, written⟩
  refine ⟨after, ?_, ?_⟩
  · have out : targetDir.child entry.name = targetDir ++ (above ++ [.down name]) := by
      rw [File.child, steps]
    simp only [extractFlat, data, copyEntry, out, wrote]
  · apply unpacked_append wellFormed unpacked resolved data
    intro other
    rw [written, path, root]
    simp only [isFile, List.suffix_cons_iff, List.suffix_nil]
    by_cases same : other = [name]
    · simp [same]
    · by_cases top : other = []
      · rw [top, unpacked.root]
        simp
      · simp [same, top]

end Rounds

/-! ## The loops -/

section Loops

variable {targetDir : File}

/-- A loop whose rounds unpack their entries unpacks them all. -/
theorem extractAll_unpacked {extract : FileSystem → ZipEntry → FileSystem × Bool}
    {entries : List ZipEntry} (wellFormed : WellFormed entries)
    (round : ∀ {done entry disk}, WellFormed (done ++ [entry]) → entry ∈ entries →
      Unpacked done disk.tree targetDir → ∃ after, extract disk entry = (after, true) ∧
        Unpacked (done ++ [entry]) after.tree targetDir)
    {done rest : List ZipEntry} (split : entries = done ++ rest) {disk : FileSystem}
    (unpacked : Unpacked done disk.tree targetDir) :
    ∃ after, extractAll extract disk rest = (after, true) ∧
      Unpacked entries after.tree targetDir := by
  induction rest generalizing done disk with
  | nil =>
      rw [List.append_nil] at split
      exact ⟨disk, rfl, split ▸ unpacked⟩
  | cons entry rest ih =>
      have regrouped : entries = (done ++ [entry]) ++ rest := by
        rw [split, List.append_assoc, List.singleton_append]
      have first : WellFormed (done ++ [entry]) :=
        wellFormed.sublist (regrouped ▸ List.sublist_append_left _ _)
      have among : entry ∈ entries := by rw [split]; simp
      rcases round first among unpacked with ⟨next, extracted, unpackedNext⟩
      rcases ih regrouped unpackedNext with ⟨after, all, finished⟩
      refine ⟨after, ?_, finished⟩
      rw [extractAll, extracted]
      exact all

theorem unzip_unpacked {archive : Archive} (wellFormed : WellFormed archive.entries)
    {disk : FileSystem} (empty : EmptyTarget disk.tree targetDir) :
    ∃ after, unzip disk (.file (some archive)) targetDir = (after, .returned true) ∧
      Unpacked archive.entries after.tree targetDir := by
  rcases extractAll_unpacked wellFormed
    (fun first _ unpacked => unzipEntry_unpacked first unpacked)
    (List.nil_append archive.entries).symm (unpacked_nil empty) with ⟨after, all, unpacked⟩
  have present : targetDir.exists' disk.tree = true := by
    unfold File.exists'
    rw [empty.resolved]
    simp [empty.directory]
  refine ⟨after, ?_, unpacked⟩
  simp only [unzip, present, Bool.not_true, unzipInto, all]
  rfl

theorem extractAll_flat {entries : List ZipEntry} (wellFormed : WellFormed entries)
    (flat : ∀ entry ∈ entries, Flat entry) {disk : FileSystem}
    (empty : EmptyTarget disk.tree targetDir) :
    Unpacked entries (extractAll (extractFlat targetDir) disk entries).1.tree targetDir := by
  rcases extractAll_unpacked wellFormed
    (fun first among unpacked => extractFlat_unpacked first (flat _ among) unpacked)
    (List.nil_append entries).symm (unpacked_nil empty) with ⟨after, all, unpacked⟩
  rw [all]
  exact unpacked

theorem dir_of_copyEntry {disk : FileSystem} {file : File} {data : EntryData}
    {path : List JString}
    (dir : (copyEntry disk file data).1.tree.node path = some .dir) :
    disk.tree.node path = some .dir := by
  have unwritten {bytes : List UInt8} {after : FileSystem}
      (wrote : file.write disk bytes = some after) (found : after.tree.node path = some .dir) :
      disk.tree.node path = some .dir := by
    unfold File.write at wrote
    rcases Option.bind_eq_some_iff.1 wrote with ⟨place, _, wrote⟩
    rw [(Disk.write_spec wrote).2.2.2] at found
    split at found
    · cases found
    · exact found
  unfold copyEntry at dir
  split at dir
  · split at dir
    · next wrote => exact unwritten wrote dir
    · exact dir
  · split at dir
    · next wrote => exact unwritten wrote dir
    · exact dir

/-- Extracting every entry as a file makes no directories. -/
theorem no_new_dir {entries : List ZipEntry} {disk : FileSystem} {path : List JString}
    (dir : (extractAll (extractFlat targetDir) disk entries).1.tree.node path = some .dir) :
    disk.tree.node path = some .dir := by
  induction entries generalizing disk with
  | nil => exact dir
  | cons entry entries ih =>
      unfold extractAll at dir
      have before (found : (extractFlat targetDir disk entry).1.tree.node path = some .dir) :
          disk.tree.node path = some .dir := dir_of_copyEntry found
      split at dir
      · next after is =>
          rw [is] at before
          exact before (ih dir)
      · next after is =>
          rw [is] at before
          exact before dir

end Loops

/-! ## Agreement -/

/-- The extractors leave the same tree, each in its own target. -/
def Agree (archive : Archive) (disk₁ disk₂ disk₃ : FileSystem) (dir₁ dir₂ dir₃ : File) : Prop :=
  contents (zipReadByZipInput disk₁ (.file (some archive)) dir₁).tree dir₁ =
      contents (unzip disk₃ (.file (some archive)) dir₃).1.tree dir₃ ∧
    contents (zipReadByZipFile disk₂ (.file (some archive)) dir₂).tree dir₂ =
      contents (unzip disk₃ (.file (some archive)) dir₃).1.tree dir₃

/-- An entry which is not a file in the root needs a directory. -/
theorem dir_of_not_flat {entries : List ZipEntry} {tree : Tree} {targetDir : File}
    (wellFormed : WellFormed entries) (unpacked : Unpacked entries tree targetDir)
    {entry : ZipEntry} (among : entry ∈ entries) (notFlat : ¬Flat entry) :
    ∃ path, path ≠ [] ∧ contents tree targetDir path = some .dir := by
  cases kind : entry.isDirectory with
  | true =>
      exact ⟨entry.path, wellFormed.below entry among,
        unpacked.dirs entry among entry.path (List.suffix_refl _) (Or.inl kind)⟩
  | false =>
      cases path : entry.path with
      | nil => exact absurd path (wellFormed.below entry among)
      | cons name above =>
          have deep : above ≠ [] := by
            rintro rfl
            exact notFlat ⟨kind, by rw [path]; rfl⟩
          refine ⟨above, deep, unpacked.dirs entry among above ?_ (Or.inr ?_)⟩
          · rw [path]
            exact List.suffix_cons name above
          · rw [path]
            exact (List.cons_ne_self name above).symm

theorem extractors_agree_iff {archive : Archive} (wellFormed : WellFormed archive.entries)
    (order : archive.stream.Perm archive.entries) {disk₁ disk₂ disk₃ : FileSystem}
    {dir₁ dir₂ dir₃ : File} (empty₁ : EmptyTarget disk₁.tree dir₁)
    (empty₂ : EmptyTarget disk₂.tree dir₂) (empty₃ : EmptyTarget disk₃.tree dir₃) :
    Agree archive disk₁ disk₂ disk₃ dir₁ dir₂ dir₃ ↔ ∀ entry ∈ archive.entries, Flat entry := by
  rcases unzip_unpacked wellFormed empty₃ with ⟨after, unzipped, unpacked⟩
  unfold Agree
  rw [unzipped]
  constructor
  · rintro ⟨_, same⟩ entry among
    by_contra notFlat
    rcases dir_of_not_flat wellFormed unpacked among notFlat with ⟨path, below, dir⟩
    rw [← same] at dir
    have earlier := (unpacked_nil empty₂).nothing path below (by simp)
    unfold contents at earlier
    rw [no_new_dir dir] at earlier
    cases earlier
  · intro flat
    have inOrder {entry : ZipEntry} : entry ∈ archive.stream ↔ entry ∈ archive.entries :=
      order.mem_iff
    have streamed := extractAll_flat (wellFormed.perm order)
      (fun entry among => flat entry (inOrder.1 among)) empty₁
    have enumerated := extractAll_flat wellFormed flat empty₂
    exact ⟨contents_eq (wellFormed.perm order) (fun _ => inOrder) streamed unpacked,
      contents_eq wellFormed (fun _ => Iff.rfl) enumerated unpacked⟩

/-! ## Plain files -/

theorem path_fileEntry {file : JString × List UInt8} (proper : ProperName file.1) :
    (fileEntry file).path = [file.1] := by
  unfold ZipEntry.path fileEntry
  rw [proper.1]
  rfl

theorem flat_fileEntry {file : JString × List UInt8} (proper : ProperName file.1) :
    Flat (fileEntry file) := by
  refine ⟨decide_eq_false proper.2, ?_⟩
  rw [path_fileEntry proper]
  rfl

theorem wellFormed_files {files : List (JString × List UInt8)}
    (proper : ∀ file ∈ files, ProperName file.1) (distinct : (files.map Prod.fst).Nodup) :
    WellFormed (files.map fileEntry) := by
  constructor
  · intro entry among
    rcases List.mem_map.1 among with ⟨file, _, rfl⟩
    exact ⟨file.2, rfl⟩
  · intro entry among
    rcases List.mem_map.1 among with ⟨file, present, rfl⟩
    rw [fileEntry, (proper file present).1]
    simp
  · intro entry among
    rcases List.mem_map.1 among with ⟨file, present, rfl⟩
    rw [path_fileEntry (proper file present)]
    simp
  · intro entry among _
    rcases List.mem_map.1 among with ⟨file, present, rfl⟩
    exact ⟨[], file.1, (proper file present).1⟩
  · have paths : (files.map fileEntry).map ZipEntry.path =
        (files.map Prod.fst).map fun name => [name] := by
      rw [List.map_map, List.map_map]
      apply List.map_congr_left
      intro file present
      exact path_fileEntry (proper file present)
    rw [paths]
    exact List.Nodup.map List.singleton_injective distinct
  · intro entry among _ other amongOther above
    rcases List.mem_map.1 among with ⟨file, present, rfl⟩
    rcases List.mem_map.1 amongOther with ⟨otherFile, otherPresent, rfl⟩
    rw [path_fileEntry (proper file present),
      path_fileEntry (proper otherFile otherPresent)] at above
    have names : [file.1] = [otherFile.1] := above.eq_of_length rfl
    rw [List.inj_on_of_nodup_map distinct present otherPresent (List.singleton_injective names)]

theorem empty_target : EmptyTarget treeWithTarget target := by
  refine ⟨rfl, rfl, ?_⟩
  intro name
  have deeper : name :: target.path ≠ [ascii ['t']] := by
    intro same
    have lengths := congrArg List.length same
    cases lengths
  exact if_neg deeper

theorem extractors_agree_on_files :
    Agree ⟨[⟨ascii ['a'], .complete [1]⟩, ⟨ascii ['b'], .complete []⟩],
        [⟨ascii ['b'], .complete []⟩, ⟨ascii ['a'], .complete [1]⟩]⟩
      ⟨treeWithTarget, []⟩ ⟨treeWithTarget, []⟩ ⟨treeWithTarget, []⟩ target target target := by
  have wellFormed : WellFormed ([(ascii ['a'], [1]), (ascii ['b'], [])].map fileEntry) :=
    wellFormed_files (by unfold ProperName; decide) (by decide)
  refine (extractors_agree_iff wellFormed (List.Perm.swap _ _ _) empty_target empty_target
    empty_target).2 ?_
  intro entry among
  change entry ∈ [(ascii ['a'], [1]), (ascii ['b'], [])].map fileEntry at among
  rcases List.mem_map.1 among with ⟨file, present, rfl⟩
  apply flat_fileEntry
  revert file
  unfold ProperName
  decide

theorem extractors_do_not_agree :
    ¬∀ (archive : Archive), WellFormed archive.entries → archive.stream.Perm archive.entries →
      ∀ (disk₁ disk₂ disk₃ : FileSystem) (dir₁ dir₂ dir₃ : File),
        EmptyTarget disk₁.tree dir₁ → EmptyTarget disk₂.tree dir₂ → EmptyTarget disk₃.tree dir₃ →
          Agree archive disk₁ disk₂ disk₃ dir₁ dir₂ dir₃ := by
  intro always
  have nested : WellFormed [⟨ascii ['d', '/', 'a'], .complete [1]⟩] := by
    constructor
    · simp
    · decide
    · decide
    · intro entry among _
      rw [List.mem_singleton.1 among]
      exact ⟨[.down (ascii ['d'])], ascii ['a'], rfl⟩
    · decide
    · intro entry among _ other amongOther _
      rw [List.mem_singleton.1 among, List.mem_singleton.1 amongOther]
  have same := (always ⟨[⟨ascii ['d', '/', 'a'], .complete [1]⟩],
    [⟨ascii ['d', '/', 'a'], .complete [1]⟩]⟩ nested (List.Perm.refl _) ⟨treeWithTarget, []⟩
    ⟨treeWithTarget, []⟩ ⟨treeWithTarget, []⟩ target target target empty_target empty_target
    empty_target).1
  have atFile := congrFun same [ascii ['a'], ascii ['d']]
  revert atFile
  decide

end AndroidCollection.Io
