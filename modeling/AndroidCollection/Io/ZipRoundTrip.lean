import AndroidCollection.Io.ZipAgree
import AndroidCollection.Io.ZipWriter
import AndroidCollection.Lib.PrefixCode

/-!
# When a compressed folder is unpacked again

The archive is created before the folder is listed. If it lies in the folder
itself, it is one of the files and gets an entry: either the copying goes on
forever, since each block read from the archive makes the archive longer, or there
is one file too many. Otherwise the loops end, and `unzip` finds the files.
-/

namespace AndroidCollection.Io

open Java FileTree

variable {σ : Type} (library : ZipLibrary σ)

/-- The names in a directory, in some order. -/
def Lists (tree : Tree) (directory : List JString) (names : List JString) : Prop :=
  names.Nodup ∧ ∀ name, name ∈ names ↔ tree.node (name :: directory) ≠ none

/-- The regular files directly in a folder, except for the archive. -/
def filesBefore (tree : Tree) (folder zipFile : File) : List JString → Option (Node (List UInt8))
  | [] => some .dir
  | [name] =>
      if name :: folder.path = zipFile.path then none
      else
        match tree.node (name :: folder.path) with
        | some (.file bytes) => some (.file bytes)
        | _ => none
  | _ => none

/-- The call returns, and the archive is unpacked to the files which were there before. -/
def RoundTrips (disk : FileSystem) (folder zipFile : File) (names : List JString) : Prop :=
  ∃ fuel after, compress library disk folder zipFile names fuel = some (after, true) ∧
    ∀ (other : FileSystem) (targetDir : File), EmptyTarget other.tree targetDir →
      ∃ unpacked,
        unzip other (library.source after.tree zipFile) targetDir = (unpacked, .returned true) ∧
          contents unpacked.tree targetDir = filesBefore disk.tree folder zipFile

section Calls

variable {library} {disk opened : FileSystem} {folder zipFile : File}

theorem openFolder (reached : Reached disk.tree folder)
    (isOpen : openOutput disk zipFile = (opened, true)) : Reached opened.tree folder := by
  have kept := (openOutput_spec isOpen).2.2
  exact ⟨walk_of_dirs_kept kept.dirs reached.1, kept.dirs reached.2⟩

theorem guard_passes (reached : Reached disk.tree folder) :
    (!folder.exists' disk.tree || !folder.isDirectory disk.tree) = false := by
  unfold File.exists' File.isDirectory
  rw [reached.1]
  simp [reached.2, isDir_iff.2 reached.2]

/-- Closing writes the archive. -/
theorem exists_close (isOpen : openOutput disk zipFile = (opened, true)) (bytes : List UInt8) :
    ∃ after, zipFile.write opened bytes = some after := by
  rcases openOutput_spec isOpen with ⟨resolved, found, _⟩
  unfold File.write
  rw [resolved, Option.bind_some]
  cases path : zipFile.path with
  | nil =>
      rw [path, opened.tree.root] at found
      cases found
  | cons name directory =>
      rw [path] at found
      exact Disk.exists_write (opened.tree.parent found) (by rw [found]; simp) bytes

/-- A call whose loops end leaves the closed archive. -/
theorem source_of_compress (reached : Reached disk.tree folder)
    (isOpen : openOutput disk zipFile = (opened, true)) {names : List JString} {fuel : ℕ}
    {after : FileSystem}
    (compressed : compress library disk folder zipFile names fuel = some (after, true)) :
    ∃ zos, addFiles library opened folder zipFile fuel library.create names = some (zos, true) ∧
      library.source after.tree zipFile = .file (library.openZip (library.close zos)) := by
  unfold compress at compressed
  rw [guard_passes reached, if_neg Bool.false_ne_true, isOpen] at compressed
  simp only at compressed
  split at compressed
  · cases compressed
  · next zos completed adds =>
      split at compressed
      · cases compressed
      · next written wrote =>
          cases compressed
          rcases File.write_spec wrote with ⟨_, resolved, found, _⟩
          refine ⟨zos, adds, ?_⟩
          unfold ZipLibrary.source
          rw [resolved]
          simp only
          rw [found]

theorem exists_compress (reached : Reached disk.tree folder)
    (isOpen : openOutput disk zipFile = (opened, true)) {names : List JString} {fuel : ℕ} {zos : σ}
    (adds : addFiles library opened folder zipFile fuel library.create names = some (zos, true)) :
    ∃ after, compress library disk folder zipFile names fuel = some (after, true) := by
  rcases exists_close isOpen (library.close zos) with ⟨after, wrote⟩
  refine ⟨after, ?_⟩
  unfold compress
  rw [guard_passes reached, if_neg Bool.false_ne_true, isOpen]
  simp only
  rw [adds]
  simp only
  rw [wrote]

variable {names : List JString} {files : List (JString × List UInt8)}

/-- The files which the loops have gathered are those which were there before the call. -/
theorem contents_eq_filesBefore (reached : Reached disk.tree folder)
    (isOpen : openOutput disk zipFile = (opened, true))
    (lists : Lists opened.tree folder.path names) (proper : ∀ name ∈ names, FileName name)
    (elsewhere : ∀ name, name :: folder.path ≠ zipFile.path)
    (gathers : Gathers opened.tree folder zipFile names files) {entries : List ZipEntry}
    (order : entries.Perm (files.map fileEntry)) {tree : Tree} {targetDir : File}
    (unpacked : Unpacked entries tree targetDir) :
    contents tree targetDir = filesBefore disk.tree folder zipFile := by
  have kept := (openOutput_spec isOpen).2.2
  have isEntry {entry : ZipEntry} : entry ∈ entries ↔ ∃ file ∈ files, fileEntry file = entry := by
    rw [order.mem_iff, List.mem_map]
  have nowhere {path : List JString} (below : path ≠ [])
      (noFile : ∀ file ∈ files, path ≠ [file.1]) : contents tree targetDir path = none := by
    apply unpacked.nothing path below
    intro entry among above
    rcases isEntry.1 among with ⟨file, present, rfl⟩
    rw [path_fileEntry (proper _ (gathers.listed present)).proper, List.suffix_cons_iff,
      List.suffix_nil] at above
    exact above.elim (noFile file present) below
  funext path
  match path with
  | [] => exact unpacked.root
  | [name] =>
      rw [filesBefore, if_neg (elsewhere name)]
      split
      · next bytes before =>
          have now := (kept.files (elsewhere name)).2 before
          have present : name ∈ names := (lists.2 name).2 (by rw [now]; simp)
          rcases gathers.gathered (openFolder reached isOpen) present (proper name present).proper
            now with ⟨put, among⟩
          have found := gathers.bytes (name, put) among (elsewhere name)
          rw [now] at found
          cases found
          have once := (proper name present).proper
          have there := unpacked.files (fileEntry (name, put)) (isEntry.2 ⟨_, among, rfl⟩)
            (flat_fileEntry once).1 put rfl
          rwa [path_fileEntry once] at there
      · next noFile =>
          apply nowhere (by simp)
          intro file among same
          cases same
          have found := gathers.bytes file among (elsewhere file.1)
          exact noFile file.2 ((kept.files (elsewhere file.1)).1 found)
  | deeper :: name :: above =>
      apply nowhere (by simp)
      intro file among same
      cases same

theorem wellFormed_gathered (lists : Lists opened.tree folder.path names)
    (proper : ∀ name ∈ names, FileName name)
    (gathers : Gathers opened.tree folder zipFile names files) :
    WellFormed (files.map fileEntry) := by
  apply wellFormed_files fun file among => (proper file.1 (gathers.listed among)).proper
  rw [gathers.names]
  exact lists.1.filter _

/-- The files of a folder can be copied with a common bound on the rounds. -/
theorem exists_fuel (tree : Tree) (directory : List JString) (names : List JString) :
    ∃ fuel, ∀ name ∈ names, ∀ bytes,
      tree.node (name :: directory) = some (.file bytes) → bytes.length < fuel := by
  induction names with
  | nil => exact ⟨0, by simp⟩
  | cons first names ih =>
      rcases ih with ⟨fuel, enough⟩
      have single : ∃ long, ∀ bytes,
          tree.node (first :: directory) = some (.file bytes) → bytes.length < long := by
        cases found : tree.node (first :: directory) with
        | none => exact ⟨0, by simp⟩
        | some node =>
            cases node with
            | dir => exact ⟨0, by simp⟩
            | file data => exact ⟨data.length + 1, by simp⟩
      rcases single with ⟨long, enoughFirst⟩
      refine ⟨max long fuel, ?_⟩
      intro name among bytes found
      rcases List.mem_cons.1 among with rfl | among
      · exact Nat.lt_of_lt_of_le (enoughFirst bytes found) (Nat.le_max_left long fuel)
      · exact Nat.lt_of_lt_of_le (enough name among bytes found) (Nat.le_max_right long fuel)

/-- An archive of gathered files unpacks. -/
theorem unzip_gathered (lists : Lists opened.tree folder.path names)
    (proper : ∀ name ∈ names, FileName name)
    (gathers : Gathers opened.tree folder zipFile names files) {archive : Archive}
    (order : archive.entries.Perm (files.map fileEntry)) (other : FileSystem) {targetDir : File}
    (emptyDir : EmptyTarget other.tree targetDir) :
    ∃ unpacked, unzip other (.file (some archive)) targetDir = (unpacked, .returned true) ∧
      Unpacked archive.entries unpacked.tree targetDir := by
  exact unzip_unpacked ((wellFormed_gathered lists proper gathers).perm order) emptyDir

/-! ## The round trip -/

theorem gathers_of_compress (reached : Reached disk.tree folder)
    (isOpen : openOutput disk zipFile = (opened, true))
    (lists : Lists opened.tree folder.path names) (proper : ∀ name ∈ names, FileName name)
    {fuel : ℕ} {after : FileSystem}
    (compressed : compress library disk folder zipFile names fuel = some (after, true)) :
    ∃ zos files, Holds library zos files ∧ Gathers opened.tree folder zipFile names files ∧
      library.source after.tree zipFile = .file (library.openZip (library.close zos)) := by
  rcases source_of_compress reached isOpen compressed with ⟨zos, adds, source⟩
  rcases holds_addFiles (openFolder reached isOpen) (openOutput_spec isOpen).1 proper lists.1
    Holds.create (by simp) adds with ⟨files, holds, gathers⟩
  exact ⟨zos, files, holds, gathers, source⟩

/-- An archive in the folder gets an entry for itself, if the loops end at all. -/
theorem elsewhere_of_roundTrips (lawful : library.Lawful) (reached : Reached disk.tree folder)
    (isOpen : openOutput disk zipFile = (opened, true))
    (lists : Lists opened.tree folder.path names) (proper : ∀ name ∈ names, FileName name)
    (roundTrips : RoundTrips library disk folder zipFile names) (name : JString) :
    name :: folder.path ≠ zipFile.path := by
  intro inside
  rcases roundTrips with ⟨fuel, after, compressed, unpacks⟩
  rcases gathers_of_compress reached isOpen lists proper compressed with
    ⟨zos, files, holds, gathers, source⟩
  have empty := (openOutput_spec isOpen).2.1
  rw [← inside] at empty
  have present : name ∈ names := (lists.2 name).2 (by rw [empty]; simp)
  have once := (proper name present).proper
  rcases gathers.gathered (openFolder reached isOpen) present once empty with ⟨bytes, among⟩
  rcases lawful.opens holds (List.ne_nil_of_mem among) with ⟨archive, opens, order⟩
  rcases unpacks ⟨treeWithTarget, []⟩ target empty_target with ⟨unpacked, unzipped, same⟩
  rcases unzip_gathered lists proper gathers order ⟨treeWithTarget, []⟩ empty_target with
    ⟨unpacked', unzipped', done⟩
  rw [source, opens, unzipped'] at unzipped
  cases unzipped
  have entry : fileEntry (name, bytes) ∈ archive.entries :=
    order.mem_iff.2 (List.mem_map_of_mem among)
  have there := done.files _ entry (flat_fileEntry once).1 bytes rfl
  rw [path_fileEntry once, same, filesBefore, if_pos inside] at there
  cases there

/-- Outside the folder of the archive, the files which are gathered are those of before. -/
theorem before_iff_gathered (reached : Reached disk.tree folder)
    (isOpen : openOutput disk zipFile = (opened, true))
    (lists : Lists opened.tree folder.path names) (proper : ∀ name ∈ names, FileName name)
    (elsewhere : ∀ name, name :: folder.path ≠ zipFile.path)
    (gathers : Gathers opened.tree folder zipFile names files) :
    (∃ name bytes, disk.tree.node (name :: folder.path) = some (.file bytes)) ↔ files ≠ [] := by
  have kept := (openOutput_spec isOpen).2.2
  constructor
  · rintro ⟨name, bytes, before⟩
    have now := (kept.files (elsewhere name)).2 before
    have present : name ∈ names := (lists.2 name).2 (by rw [now]; simp)
    rcases gathers.gathered (openFolder reached isOpen) present (proper name present).proper now
      with ⟨put, among⟩
    exact List.ne_nil_of_mem among
  · intro some'
    rcases List.exists_mem_of_ne_nil files some' with ⟨file, among⟩
    have found := gathers.bytes file among (elsewhere file.1)
    exact ⟨file.1, file.2, (kept.files (elsewhere file.1)).1 found⟩

theorem unzip_refused (other : FileSystem) (targetDir : File) :
    (unzip other (.file none) targetDir).2 ≠ .returned true := by
  unfold unzip unzipInto
  simp only
  split
  · split <;> simp
  · simp

/-- The round trip succeeds exactly when the archive is not put into the folder itself and, on
platforms whose archives need an entry, some file is there. -/
theorem compressed_folder_round_trips_iff (lawful : library.Lawful)
    (reached : Reached disk.tree folder) (isOpen : openOutput disk zipFile = (opened, true))
    (lists : Lists opened.tree folder.path names) (proper : ∀ name ∈ names, FileName name) :
    RoundTrips library disk folder zipFile names ↔
      (∀ name, name :: folder.path ≠ zipFile.path) ∧
        (library.AdmitsEmpty ∨
          ∃ name bytes, disk.tree.node (name :: folder.path) = some (.file bytes)) := by
  constructor
  · intro roundTrips
    have elsewhere := elsewhere_of_roundTrips lawful reached isOpen lists proper roundTrips
    refine ⟨elsewhere, ?_⟩
    rcases roundTrips with ⟨fuel, after, compressed, unpacks⟩
    rcases gathers_of_compress reached isOpen lists proper compressed with
      ⟨zos, files, holds, gathers, source⟩
    rw [before_iff_gathered reached isOpen lists proper elsewhere gathers]
    by_contra neither
    rw [not_or, not_not] at neither
    rcases neither with ⟨refused, rfl⟩
    rcases unpacks ⟨treeWithTarget, []⟩ target empty_target with ⟨unpacked, unzipped, _⟩
    rw [source, holds_nil holds, Option.not_isSome_iff_eq_none.1 refused] at unzipped
    exact unzip_refused _ _ (congrArg Prod.snd unzipped)
  · rintro ⟨elsewhere, readable⟩
    rcases exists_fuel opened.tree folder.path names with ⟨fuel, enough⟩
    rcases exists_addFiles lawful (openFolder reached isOpen) (openOutput_spec isOpen).1 proper
      lists.1 elsewhere enough Holds.create (by simp) with ⟨_, adds⟩
    rcases exists_compress reached isOpen adds with ⟨after, compressed⟩
    rcases gathers_of_compress reached isOpen lists proper compressed with
      ⟨zos, files, holds, gathers, source⟩
    rw [before_iff_gathered reached isOpen lists proper elsewhere gathers] at readable
    rcases exists_archive lawful holds readable with ⟨archive, opens, order⟩
    refine ⟨fuel, after, compressed, ?_⟩
    intro other targetDir emptyDir
    rcases unzip_gathered lists proper gathers order other emptyDir with ⟨unpacked, unzipped, done⟩
    rw [source, opens]
    exact ⟨unpacked, unzipped,
      contents_eq_filesBefore reached isOpen lists proper elsewhere gathers order done⟩

end Calls

/-! ## A library which stores the files -/

def filesCode : PrefixCode (List (JString × List UInt8)) :=
  PrefixCode.list (PrefixCode.pair (PrefixCode.list PrefixCode.unit)
    (PrefixCode.list PrefixCode.byte))

/-- Keeps the files, the newest first, and writes them when it is closed. -/
def storing : ZipLibrary (List (JString × List UInt8)) where
  create := []
  putNextEntry zos name :=
    if name ∈ zos.map Prod.fst then none else some ((name, []) :: zos)
  write zos more := match zos with
    | [] => []
    | (name, bytes) :: zos => (name, bytes ++ more) :: zos
  flushed _ := []
  close zos := filesCode.write zos.reverse
  openZip bytes := match filesCode.read bytes with
    | none => none
    | some (files, _) => some ⟨files.map fileEntry, files.map fileEntry⟩

theorem storing_openZip (files : List (JString × List UInt8)) :
    storing.openZip (filesCode.write files) =
      some ⟨files.map fileEntry, files.map fileEntry⟩ := by
  unfold storing
  simp only [PrefixCode.read_write_nil]

theorem storing_holds {zos files : List (JString × List UInt8)} (holds : Holds storing zos files) :
    zos = files.reverse := by
  induction holds with
  | create => rfl
  | put _ _ _ entered ih =>
      unfold storing at entered
      simp only at entered
      split at entered
      · cases entered
      · cases entered
        simp [ih]
  | write more _ ih => simp [ih, storing]

theorem storing_lawful : storing.Lawful := by
  constructor
  · intro zos files name holds _ fresh
    have absent : name ∉ zos.map Prod.fst := by
      rw [storing_holds holds, List.map_reverse, List.mem_reverse]
      exact fresh
    exact ⟨(name, []) :: zos, if_neg absent⟩
  · intro zos files holds _
    refine ⟨⟨files.map fileEntry, files.map fileEntry⟩, ?_, List.Perm.refl _⟩
    rw [storing_holds holds]
    change storing.openZip (filesCode.write files.reverse.reverse) = _
    rw [List.reverse_reverse, storing_openZip]
  · intro archive opens
    change storing.openZip (filesCode.write []) = some archive at opens
    rw [storing_openZip] at opens
    cases opens
    rfl

theorem storing_admitsEmpty : storing.AdmitsEmpty := by
  change (storing.openZip (filesCode.write [])).isSome = true
  rw [storing_openZip]
  rfl

/-- A tree with one file, `/t/a`. -/
def treeWithFile : Tree :=
  treeWithTarget.insert (ascii ['a']) target.path (.file [1, 2]) rfl
    (by rw [empty_target.empty]; simp)

theorem compressed_folder_round_trips_beside :
    RoundTrips storing ⟨treeWithFile, []⟩ target [.down (ascii ['z'])] [ascii ['a']] := by
  have lists : Lists (openOutput ⟨treeWithFile, []⟩ [.down (ascii ['z'])]).1.tree target.path
      [ascii ['a']] := by
    refine ⟨List.nodup_singleton _, ?_⟩
    intro name
    have outside : name :: target.path ≠ [ascii ['z']] := by
      intro same
      have lengths := congrArg List.length same
      cases lengths
    have node : (openOutput ⟨treeWithFile, []⟩ [.down (ascii ['z'])]).1.tree.node
        (name :: target.path) =
        if name :: target.path = [ascii ['z']] then some (.file [])
        else if name :: target.path = [ascii ['z']] then some (.file [])
        else if name :: target.path = ascii ['a'] :: target.path then some (.file [1, 2])
        else treeWithTarget.node (name :: target.path) := rfl
    rw [node, if_neg outside, if_neg outside, empty_target.empty]
    simp
  refine (compressed_folder_round_trips_iff storing_lawful ⟨rfl, rfl⟩ rfl lists ?_).2
    ⟨?_, Or.inl storing_admitsEmpty⟩
  · intro name among
    rw [List.mem_singleton.1 among]
    exact ⟨by unfold ProperName; decide, by decide, by decide⟩
  · intro name same
    have lengths := congrArg List.length same
    cases lengths

/-- An archive which is put into the folder contains itself. -/
theorem compressed_folder_does_not_round_trip :
    ¬∀ (σ : Type) (library : ZipLibrary σ), library.Lawful → library.AdmitsEmpty →
      ∀ (disk opened : FileSystem) (folder zipFile : File), Reached disk.tree folder →
        openOutput disk zipFile = (opened, true) → ∀ names,
          Lists opened.tree folder.path names → (∀ name ∈ names, FileName name) →
            RoundTrips library disk folder zipFile names := by
  intro always
  have lists : Lists (openOutput ⟨treeWithTarget, []⟩ (target.child (ascii ['z']))).1.tree
      target.path [ascii ['z']] := by
    refine ⟨List.nodup_singleton _, ?_⟩
    intro name
    have node : (openOutput ⟨treeWithTarget, []⟩ (target.child (ascii ['z']))).1.tree.node
        (name :: target.path) =
        if name :: target.path = ascii ['z'] :: target.path then some (.file [])
        else if name :: target.path = ascii ['z'] :: target.path then some (.file [])
        else treeWithTarget.node (name :: target.path) := rfl
    rw [node, empty_target.empty]
    by_cases same : name = ascii ['z'] <;> simp [same]
  have proper : ∀ name ∈ [ascii ['z']], FileName name := by
    intro name among
    rw [List.mem_singleton.1 among]
    exact ⟨by unfold ProperName; decide, by decide, by decide⟩
  have roundTrips := always _ storing storing_lawful storing_admitsEmpty ⟨treeWithTarget, []⟩ _
    target (target.child (ascii ['z'])) ⟨rfl, rfl⟩ rfl _ lists proper
  exact elsewhere_of_roundTrips storing_lawful ⟨rfl, rfl⟩ rfl lists proper roundTrips
    (ascii ['z']) rfl

end AndroidCollection.Io
