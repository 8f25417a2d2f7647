import AndroidCollection.Io.Zip

/-!
# Extraction inside the target directory

The extractors join the names of the entries to the target as they are. When every
name leads to a path inside the target, all that is created or overwritten lies
inside, apart from the target directory itself and its ancestors, which `unzip`
creates when they are missing. A name which goes up and out is followed.
-/

namespace AndroidCollection.Io

open Java FileTree

def Inside (targetDir : File) (path : List JString) : Prop :=
  targetDir.path <:+ path

/-- Joined to the target and normalized, the name of the entry stays inside. -/
def Contained (targetDir : File) (entry : ZipEntry) : Prop :=
  Inside targetDir (targetDir.child entry.name).path

/-- Every path at which an extractor creates or overwrites something is inside the target; `unzip`
may also create what is allowed. -/
structure ExtractsInside (allowed : List JString → Prop) (tree : Tree) (source : Source)
    (targetDir : File) : Prop where
  zipReadByZipInput : ∀ path ∈ (zipReadByZipInput ⟨tree, []⟩ source targetDir).journal,
    Inside targetDir path
  zipReadByZipFile : ∀ path ∈ (zipReadByZipFile ⟨tree, []⟩ source targetDir).journal,
    Inside targetDir path
  unzip : ∀ path ∈ (unzip ⟨tree, []⟩ source targetDir).1.journal,
    Inside targetDir path ∨ allowed path

/-! ## What the rounds create -/

/-- A run of file operations which creates only what satisfies a property. -/
def Creates (property : List JString → Prop) (disk after : FileSystem) : Prop :=
  ∃ created, Disk.Grows disk after created ∧ ∀ path ∈ created, property path

section Rounds

variable {property : List JString → Prop} {disk after : FileSystem} {targetDir : File}

theorem Creates.refl (disk : FileSystem) : Creates property disk disk :=
  ⟨[], Disk.Grows.refl disk, by simp⟩

theorem Creates.imp {weaker : List JString → Prop} (created : Creates property disk after)
    (implies : ∀ {path}, property path → weaker path) : Creates weaker disk after := by
  rcases created with ⟨paths, grows, holds⟩
  exact ⟨paths, grows, fun path among => implies (holds path among)⟩

theorem Creates.trans {first second third : FileSystem} (early : Creates property first second)
    (late : Creates property second third) : Creates property first third := by
  rcases early with ⟨created, grows, holds⟩
  rcases late with ⟨more, growsMore, holdsMore⟩
  refine ⟨created ++ more, grows.trans growsMore, ?_⟩
  intro path among
  rcases List.mem_append.1 among with earlier | later
  · exact holds path earlier
  · exact holdsMore path later

theorem creates_write {file : File} {bytes : List UInt8}
    (wrote : file.write disk bytes = some after) (holds : property file.path) :
    Creates property disk after := by
  unfold File.write at wrote
  cases resolved : File.resolve disk.tree file with
  | none =>
      rw [resolved] at wrote
      cases wrote
  | some path =>
      rw [resolved] at wrote
      refine ⟨[path], Disk.grows_write wrote, ?_⟩
      intro other among
      rw [List.mem_singleton.1 among, normalize_of_walk resolved]
      exact holds

theorem creates_copyEntry {file : File} (data : EntryData) (holds : property file.path) :
    Creates property disk (copyEntry disk file data).1 := by
  unfold copyEntry
  cases data with
  | complete bytes =>
      cases wrote : file.write disk bytes with
      | none =>
          simp only [wrote]
          exact Creates.refl disk
      | some after =>
          simp only [wrote]
          exact creates_write wrote holds
  | broken left =>
      cases wrote : file.write disk left with
      | none =>
          simp only [wrote]
          exact Creates.refl disk
      | some after =>
          simp only [wrote]
          exact creates_write wrote holds

/-- `mkdirs` creates missing ancestors only. -/
theorem creates_mkdirs (file : File)
    (holds : ∀ path, path <:+ file.path → disk.tree.node path = none → property path) :
    Creates property disk (file.mkdirs disk).1 := by
  unfold File.mkdirs
  split
  · exact Creates.refl disk
  · rcases Disk.grows_mkdirs disk file.path with ⟨created, grows, missing⟩
    exact ⟨created, grows, fun path among =>
      holds path (missing path among).1 (missing path among).2⟩

theorem creates_extractAll {extract : FileSystem → ZipEntry → FileSystem × Bool}
    (invariant : FileSystem → Prop) {entries : List ZipEntry}
    (preserved : ∀ {first second}, invariant first → Creates property first second →
      invariant second)
    (round : ∀ {disk}, invariant disk → ∀ entry ∈ entries,
      Creates property disk (extract disk entry).1)
    (initially : invariant disk) :
    Creates property disk (extractAll extract disk entries).1 := by
  induction entries generalizing disk with
  | nil => exact Creates.refl disk
  | cons entry entries ih =>
      have first := round initially entry List.mem_cons_self
      unfold extractAll
      cases result : extract disk entry with
      | mk after continues =>
          rw [result] at first
          cases continues with
          | false => exact first
          | true =>
              refine first.trans (ih ?_ (preserved initially first))
              intro disk holds other among
              exact round holds other (List.mem_cons_of_mem entry among)

theorem creates_extractFlat {entry : ZipEntry} (contained : Contained targetDir entry) :
    Creates (Inside targetDir) disk (extractFlat targetDir disk entry).1 :=
  creates_copyEntry entry.data contained

/-- Below an existing target, the missing ancestors of a path inside are inside. -/
theorem inside_of_missing {path ancestor : List JString}
    (there : disk.tree.node targetDir.path ≠ none) (inside : Inside targetDir path)
    (above : ancestor <:+ path) (missing : disk.tree.node ancestor = none) :
    Inside targetDir ancestor := by
  rcases List.suffix_or_suffix_of_suffix inside above with below | higher
  · exact below
  · exact absurd missing (disk.tree.exists_of_suffix higher there)

/-- The same for the parent of a file inside. -/
theorem inside_of_missing_parent {file : File} {ancestor : List JString}
    (there : disk.tree.node targetDir.path ≠ none) (inside : Inside targetDir file.path)
    (above : ancestor <:+ file.getParentFile.path) (missing : disk.tree.node ancestor = none) :
    Inside targetDir ancestor := by
  rcases List.eq_nil_or_concat file with rfl | ⟨parent, last, rfl⟩
  · exact inside_of_missing there inside above missing
  · have parentPath : File.path (File.getParentFile (parent.concat last)) = File.path parent := by
      simp [File.getParentFile]
    have path : File.path (parent.concat last) = FileTree.step (File.path parent) last := by
      simp [File.path, FileTree.normalize]
    rw [parentPath] at above
    rw [path] at inside
    cases last with
    | stay => exact inside_of_missing there inside above missing
    | up =>
        have parentInside : Inside targetDir (File.path parent) :=
          List.IsSuffix.trans inside (List.tail_suffix _)
        exact inside_of_missing there parentInside above missing
    | down name =>
        exact inside_of_missing there inside (above.trans (List.suffix_cons _ _)) missing

theorem creates_unzipEntry {entry : ZipEntry} (contained : Contained targetDir entry)
    (there : disk.tree.node targetDir.path ≠ none) :
    Creates (Inside targetDir) disk (unzipEntry targetDir disk entry).1 := by
  unfold unzipEntry
  simp only
  split
  · split
    · apply creates_mkdirs
      intro path above missing
      exact inside_of_missing there contained above missing
    · exact Creates.refl disk
  · have parents : Creates (Inside targetDir) disk
        (if !(targetDir.child entry.name).exists' disk.tree then
          ((targetDir.child entry.name).getParentFile.mkdirs disk).1 else disk) := by
      split
      · apply creates_mkdirs
        intro path above missing
        exact inside_of_missing_parent there contained above missing
      · exact Creates.refl disk
    exact parents.trans (creates_copyEntry entry.data contained)

end Rounds

/-! ## The extractors -/

section Extractors

variable {tree : Tree} {targetDir : File} {archive : Archive}

theorem creates_flat (disk : FileSystem) {entries : List ZipEntry}
    (contained : ∀ entry ∈ entries, Contained targetDir entry) :
    Creates (Inside targetDir) disk (extractAll (extractFlat targetDir) disk entries).1 :=
  creates_extractAll (fun _ => True) (fun _ _ => trivial)
    (fun _ entry among => creates_extractFlat (contained entry among)) trivial

theorem creates_unzipInto (disk : FileSystem) (source : Option Archive)
    (contained : ∀ archive, source = some archive → ∀ entry ∈ archive.entries,
      Contained targetDir entry)
    (there : disk.tree.node targetDir.path ≠ none) :
    Creates (Inside targetDir) disk (unzipInto disk source targetDir).1 := by
  unfold unzipInto
  split
  · exact Creates.refl disk
  · next archive =>
      have all : Creates (Inside targetDir) disk
          (extractAll (unzipEntry targetDir) disk archive.entries).1 :=
        creates_extractAll (fun disk => disk.tree.node targetDir.path ≠ none)
          (fun holds created => by
            rcases created with ⟨_, grows, _⟩
            exact grows.keeps holds)
          (fun holds entry among => creates_unzipEntry (contained archive rfl entry among) holds)
          there
      split
      · next after is =>
          rw [is] at all
          exact all
      · next after is =>
          rw [is] at all
          exact all

theorem journal_of_creates {property : List JString → Prop} {after : FileSystem}
    (created : Creates property ⟨tree, []⟩ after) : ∀ path ∈ after.journal, property path := by
  rcases created with ⟨paths, grows, holds⟩
  rw [grows.journal]
  exact holds

theorem exists_of_file_mkdirs {disk made : FileSystem} {file : File}
    (created : file.mkdirs disk = (made, true)) : made.tree.node file.path ≠ none := by
  unfold File.mkdirs at created
  split at created
  · simp at created
  · have there := Disk.exists_of_mkdirs (congrArg Prod.snd created)
    rw [created] at there
    change made.tree.node file.path = some .dir at there
    simp [there]

end Extractors

/-! ## Names which leave the target -/

end AndroidCollection.Io
