import AndroidCollection.Io.Zip

/-!
# Writing zip archives

`compress` creates the archive first and lists the folder afterwards. The part of
`java.util.zip` which turns entries into bytes and back is a parameter; what is
relied on is that an archive which has been closed is read back with the entries
which have been put into it. While the archive is open, some of its bytes are in
the file already, and a file of the folder which is the archive itself is read as
it is at that moment.
-/

namespace AndroidCollection.Io

open Java FileTree

/-- A `ZipOutputStream` over a file, and `ZipFile`. -/
structure ZipLibrary (σ : Type) where
  create : σ
  /-- Nothing is returned when there is an exception. -/
  putNextEntry : σ → JString → Option σ
  write : σ → List UInt8 → σ
  /-- The bytes which are in the file while the stream is open. -/
  flushed : σ → List UInt8
  /-- The bytes which are in the file after `close()`, whose exception is ignored. -/
  close : σ → List UInt8
  openZip : List UInt8 → Option Archive

variable {σ : Type} (library : ZipLibrary σ)

/-- What is found at the path of an archive. -/
def ZipLibrary.source (tree : Tree) (zipFile : File) : Source :=
  match zipFile.resolve tree with
  | none => .missing
  | some path =>
      match tree.node path with
      | none => .missing
      | some .dir => .directory
      | some (.file bytes) => .file (library.openZip bytes)

/-- Creates the file with its folder if it is missing, and opens a stream which truncates it. -/
def openOutput (disk : FileSystem) (zipFile : File) : FileSystem × Bool :=
  if !zipFile.exists' disk.tree then
    let zipFolder := zipFile.getParentFile
    match if !zipFolder.exists' disk.tree then zipFolder.mkdirs disk else (disk, true) with
    | (made, false) => (made, false)
    | (made, true) =>
        match zipFile.createNewFile made with
        | none => (made, false)
        | some created =>
            match zipFile.write created [] with
            | none => (created, false)
            | some opened => (opened, true)
  else
    match zipFile.write disk [] with
    | none => (disk, false)
    | some opened => (opened, true)

/-- What a file contains while the archive is open. -/
def contentDuring (disk : FileSystem) (zipFile file : File) (zos : σ) : List UInt8 :=
  if file.resolve disk.tree = zipFile.resolve disk.tree then library.flushed zos
  else (file.read disk.tree).getD []

def bufferSize : ℕ :=
  8 * 1024

/-- The loop which reads a file through the buffer; the fuel bounds the number of its rounds. -/
def copyFile (content : σ → List UInt8) : ℕ → ℕ → σ → Option σ
  | 0, _, _ => none
  | fuel + 1, position, zos =>
      match ((content zos).drop position).take bufferSize with
      | [] => some zos
      | block => copyFile content fuel (position + block.length) (library.write zos block)

/-- The loop over the names which `folder.list()` has returned; `false` stands for an exception. -/
def addFiles (disk : FileSystem) (folder zipFile : File) (fuel : ℕ) :
    σ → List JString → Option (σ × Bool)
  | zos, [] => some (zos, true)
  | zos, fileName :: fileNames =>
      if fileName = ascii ['.'] ∨ fileName = ascii ['.', '.'] then
        addFiles disk folder zipFile fuel zos fileNames
      else
        let file := folder.child fileName
        if !file.isFile disk.tree then addFiles disk folder zipFile fuel zos fileNames
        else
          match library.putNextEntry zos fileName with
          | none => some (zos, false)
          | some put =>
              match copyFile library (contentDuring library disk zipFile file) fuel 0 put with
              | none => none
              | some copied => addFiles disk folder zipFile fuel copied fileNames

/-- No result means that the fuel does not suffice, and `false` that there is an exception. -/
def compress (disk : FileSystem) (folder zipFile : File) (list : List JString) (fuel : ℕ) :
    Option (FileSystem × Bool) :=
  if !folder.exists' disk.tree || !folder.isDirectory disk.tree then some (disk, false)
  else
    match openOutput disk zipFile with
    | (opened, false) => some (opened, false)
    | (opened, true) =>
        match addFiles library opened folder zipFile fuel library.create list with
        | none => none
        | some (zos, completed) =>
            match zipFile.write opened (library.close zos) with
            | none => some (opened, false)
            | some after => some (after, completed)

/-! ## What is relied on -/

/-- The name of a file in a directory, as file systems admit them. -/
structure FileName (name : JString) : Prop where
  proper : ProperName name
  paired : surrogatesPaired name = true
  short : (utf8Bytes name).length ≤ 255

/-- The files which have been put into an open archive. -/
inductive Holds : σ → List (JString × List UInt8) → Prop
  | create : Holds library.create []
  | put {zos after files name} : Holds zos files → FileName name →
      name ∉ files.map Prod.fst → library.putNextEntry zos name = some after →
      Holds after (files ++ [(name, [])])
  | write {zos files name bytes} (more : List UInt8) : Holds zos (files ++ [(name, bytes)]) →
      Holds (library.write zos more) (files ++ [(name, bytes ++ more)])

/-- What has been put into an archive can be read back once it has been closed. -/
structure ZipLibrary.Lawful : Prop where
  puts : ∀ {zos files name}, Holds library zos files → FileName name →
    name ∉ files.map Prod.fst → ∃ after, library.putNextEntry zos name = some after
  opens : ∀ {zos files}, Holds library zos files → files ≠ [] →
    ∃ archive, library.openZip (library.close zos) = some archive ∧
      archive.entries.Perm (files.map fileEntry)
  /-- An archive without entries may be refused. -/
  noEntries : ∀ {archive}, library.openZip (library.close library.create) = some archive →
    archive.entries = []

/-- Archives without entries are not refused. -/
def ZipLibrary.AdmitsEmpty : Prop :=
  (library.openZip (library.close library.create)).isSome = true

section Reading

variable {library} {zos : σ} {files : List (JString × List UInt8)}

theorem holds_nil (holds : Holds library zos []) : zos = library.create := by
  generalize none' : [] = files at holds
  cases holds with
  | create => rfl
  | put => simp at none'
  | write => simp at none'

theorem exists_archive (lawful : library.Lawful) (holds : Holds library zos files)
    (readable : library.AdmitsEmpty ∨ files ≠ []) :
    ∃ archive, library.openZip (library.close zos) = some archive ∧
      archive.entries.Perm (files.map fileEntry) := by
  by_cases some' : files = []
  · subst some'
    rw [holds_nil holds]
    rcases Option.isSome_iff_exists.1 (readable.resolve_right fun some' => some' rfl) with
      ⟨archive, opens⟩
    refine ⟨archive, opens, ?_⟩
    rw [lawful.noEntries opens]
    exact List.Perm.nil
  · exact lawful.opens holds some'

end Reading

/-! ## Opening the output -/

/-- All directories are still there, and all regular files but one. -/
structure Kept (disk after : FileSystem) (path : List JString) : Prop where
  dirs : ∀ {other}, disk.tree.node other = some .dir → after.tree.node other = some .dir
  files : ∀ {other bytes}, other ≠ path →
    (after.tree.node other = some (.file bytes) ↔ disk.tree.node other = some (.file bytes))

theorem Kept.trans {disk between after : FileSystem} {path : List JString}
    (early : Kept disk between path) (late : Kept between after path) : Kept disk after path := by
  constructor
  · intro other found
    exact late.dirs (early.dirs found)
  · intro other bytes different
    rw [late.files different, early.files different]

theorem kept_mkdirs (disk : FileSystem) (file : File) (path : List JString) :
    Kept disk (file.mkdirs disk).1 path := by
  unfold File.mkdirs
  split
  · exact ⟨fun found => found, fun _ => Iff.rfl⟩
  · rcases Disk.grows_mkdirs disk file.path with ⟨_, grows, _⟩
    exact ⟨grows.dirs, fun _ => Disk.file_mkdirs_iff disk file.path⟩

section Output

variable {disk opened : FileSystem} {zipFile : File}

/-- Writing needs a way through existing directories, and changes one file. -/
theorem File.write_spec {after : FileSystem} {file : File} {bytes : List UInt8}
    (wrote : file.write disk bytes = some after) :
    file.resolve disk.tree = some file.path ∧ file.resolve after.tree = some file.path ∧
      after.tree.node file.path = some (.file bytes) ∧ Kept disk after file.path := by
  unfold File.write at wrote
  rcases Option.bind_eq_some_iff.1 wrote with ⟨path, resolved, wrote⟩
  have normal : path = file.path := normalize_of_walk resolved
  subst normal
  have grows := Disk.grows_write wrote
  have nodes := (Disk.write_spec wrote).2.2.2
  refine ⟨resolved, walk_of_dirs_kept grows.dirs resolved, ?_, grows.dirs, ?_⟩
  · rw [nodes, if_pos rfl]
  · intro other bytes different
    rw [nodes, if_neg different]

theorem kept_createNewFile {created : FileSystem}
    (new : zipFile.createNewFile disk = some created) : Kept disk created zipFile.path := by
  unfold File.createNewFile at new
  split at new
  · cases new
  · exact (File.write_spec new).2.2.2

/-- An output which has been opened is empty, and nothing else is lost. -/
theorem openOutput_spec (isOpen : openOutput disk zipFile = (opened, true)) :
    zipFile.resolve opened.tree = some zipFile.path ∧
      opened.tree.node zipFile.path = some (.file []) ∧ Kept disk opened zipFile.path := by
  have truncated {before : FileSystem} (written : zipFile.write before [] = some opened)
      (kept : Kept disk before zipFile.path) :
      zipFile.resolve opened.tree = some zipFile.path ∧
        opened.tree.node zipFile.path = some (.file []) ∧ Kept disk opened zipFile.path := by
    rcases File.write_spec written with ⟨_, resolved, found, keeps⟩
    exact ⟨resolved, found, kept.trans keeps⟩
  unfold openOutput at isOpen
  split at isOpen
  · simp only at isOpen
    split at isOpen
    · cases isOpen
    · next made is =>
        have folders : Kept disk made zipFile.path := by
          split at is
          · have kept := kept_mkdirs disk zipFile.getParentFile zipFile.path
            rw [is] at kept
            exact kept
          · cases is
            exact ⟨fun found => found, fun _ => Iff.rfl⟩
        split at isOpen
        · cases isOpen
        · next created new =>
            split at isOpen
            · cases isOpen
            · next written =>
                cases isOpen
                exact truncated written (folders.trans (kept_createNewFile new))
  · split at isOpen
    · cases isOpen
    · next written =>
        cases isOpen
        exact truncated written ⟨fun found => found, fun _ => Iff.rfl⟩

end Output

/-! ## The loops -/

section Loops

variable {library}

theorem take_add_block (whole : List UInt8) (position size : ℕ) :
    whole.take (position + ((whole.drop position).take size).length) =
      whole.take position ++ (whole.drop position).take size := by
  rw [List.take_add, List.append_cancel_left_eq, List.take_eq_take_iff, List.length_take]
  omega

/-- Whatever the file is read as, its bytes go into the entry which is open. -/
theorem holds_copyFile {content : σ → List UInt8} {fuel position : ℕ} {zos copied : σ}
    {files : List (JString × List UInt8)} {name : JString} {bytes : List UInt8}
    (holds : Holds library zos (files ++ [(name, bytes)]))
    (copies : copyFile library content fuel position zos = some copied) :
    ∃ read, Holds library copied (files ++ [(name, bytes ++ read)]) := by
  induction fuel generalizing position zos bytes with
  | zero => cases copies
  | succ fuel ih =>
      unfold copyFile at copies
      split at copies
      · cases copies
        exact ⟨[], by rwa [List.append_nil]⟩
      · rcases ih (holds.write _) copies with ⟨read, done⟩
        exact ⟨_ ++ read, by rwa [← List.append_assoc]⟩

/-- A file which does not change meanwhile is read to its end. -/
theorem holds_copyFile_of_const {content : σ → List UInt8} {whole : List UInt8}
    (const : ∀ zos, content zos = whole) {fuel position : ℕ} {zos copied : σ}
    {files : List (JString × List UInt8)} {name : JString}
    (holds : Holds library zos (files ++ [(name, whole.take position)]))
    (copies : copyFile library content fuel position zos = some copied) :
    Holds library copied (files ++ [(name, whole)]) := by
  induction fuel generalizing position zos with
  | zero => cases copies
  | succ fuel ih =>
      unfold copyFile at copies
      rw [const] at copies
      split at copies
      · next ended =>
          cases copies
          rw [List.take_eq_nil_iff, List.drop_eq_nil_iff] at ended
          have length := ended.resolve_left (by decide)
          rwa [List.take_of_length_le length] at holds
      · apply ih _ copies
        have written := holds.write ((whole.drop position).take bufferSize)
        rwa [← take_add_block] at written

theorem exists_copyFile {content : σ → List UInt8} {whole : List UInt8}
    (const : ∀ zos, content zos = whole) {fuel position : ℕ}
    (enough : whole.length - position < fuel) (zos : σ) :
    ∃ copied, copyFile library content fuel position zos = some copied := by
  induction fuel generalizing position zos with
  | zero => cases enough
  | succ fuel ih =>
      unfold copyFile
      rw [const]
      split
      · exact ⟨zos, rfl⟩
      · next more =>
          apply ih
          have length : ((whole.drop position).take bufferSize).length ≠ 0 :=
            fun none' => more (List.length_eq_zero_iff.1 none')
          rw [List.length_take, List.length_drop] at length ⊢
          omega

/-- When every block which is written makes the file longer, its end is never reached. -/
theorem copyFile_never_ends {content : σ → List UInt8}
    (longer : ∀ zos block,
      (content zos).length + block.length ≤ (content (library.write zos block)).length)
    (fuel : ℕ) {position : ℕ} {zos : σ} (ahead : position < (content zos).length) :
    copyFile library content fuel position zos = none := by
  induction fuel generalizing position zos with
  | zero => rfl
  | succ fuel ih =>
      unfold copyFile
      split
      · next ended =>
          rw [List.take_eq_nil_iff, List.drop_eq_nil_iff] at ended
          exact absurd (ended.resolve_left (by decide)) (Nat.not_le.2 ahead)
      · apply ih
        have further := longer zos (((content zos).drop position).take bufferSize)
        omega

variable {disk : FileSystem} {folder zipFile : File}

/-- A folder through which its files are reached. -/
def Reached (tree : Tree) (folder : File) : Prop :=
  folder.resolve tree = some folder.path ∧ tree.node folder.path = some .dir

theorem resolve_child {tree : Tree} (reached : Reached tree folder) {name : JString}
    (proper : ProperName name) :
    (folder.child name).resolve tree = some (name :: folder.path) := by
  have walked := reached.1
  unfold File.resolve at walked ⊢
  rw [File.child, proper.1, walk_append, walked, Option.bind_some, walk,
    if_pos (isDir_iff.2 reached.2)]
  rfl

theorem read_child {tree : Tree} (reached : Reached tree folder) {name : JString}
    (proper : ProperName name) {bytes : List UInt8} :
    (folder.child name).read tree = some bytes ↔
      tree.node (name :: folder.path) = some (.file bytes) := by
  unfold File.read
  rw [resolve_child reached proper]
  simp only
  split
  · next found => rw [found, Option.some_inj, Option.some_inj, Node.file.injEq]
  · next noFile =>
      constructor
      · intro contrary
        cases contrary
      · intro found
        exact absurd found (noFile bytes)

theorem not_dots {name : JString} (proper : ProperName name) :
    ¬(name = ascii ['.'] ∨ name = ascii ['.', '.']) := by
  rintro (rfl | rfl)
  · exact absurd proper.1 (by decide)
  · exact absurd proper.1 (by decide)

section Rounds

variable {name : JString} {names : List JString} {fuel : ℕ} {zos : σ}

theorem addFiles_skip (proper : ProperName name)
    (noFile : (folder.child name).isFile disk.tree = false) :
    addFiles library disk folder zipFile fuel zos (name :: names) =
      addFiles library disk folder zipFile fuel zos names := by
  rw [addFiles, if_neg (not_dots proper)]
  simp [noFile]

theorem addFiles_file (proper : ProperName name)
    (isFile : (folder.child name).isFile disk.tree = true) {put copied : σ}
    (entered : library.putNextEntry zos name = some put)
    (copies : copyFile library
      (contentDuring library disk zipFile (folder.child name)) fuel 0 put = some copied) :
    addFiles library disk folder zipFile fuel zos (name :: names) =
      addFiles library disk folder zipFile fuel copied names := by
  rw [addFiles, if_neg (not_dots proper)]
  simp [isFile, entered, copies]

theorem addFiles_file_cases (proper : ProperName name)
    (isFile : (folder.child name).isFile disk.tree = true) {after : σ}
    (adds : addFiles library disk folder zipFile fuel zos (name :: names) = some (after, true)) :
    ∃ put copied, library.putNextEntry zos name = some put ∧
      copyFile library
        (contentDuring library disk zipFile (folder.child name)) fuel 0 put = some copied ∧
      addFiles library disk folder zipFile fuel copied names = some (after, true) := by
  rw [addFiles, if_neg (not_dots proper)] at adds
  simp only [isFile, Bool.not_true, Bool.false_eq_true, if_false] at adds
  split at adds
  · cases adds
  · next put entered =>
      split at adds
      · cases adds
      · next copied copies => exact ⟨put, copied, entered, copies, adds⟩

end Rounds

/-- The files of a folder whose names are given, and their bytes unless they are the archive. -/
structure Gathers (tree : Tree) (folder zipFile : File) (names : List JString)
    (files : List (JString × List UInt8)) : Prop where
  names : files.map Prod.fst = names.filter fun name => (folder.child name).isFile tree
  bytes : ∀ file ∈ files, file.1 :: folder.path ≠ zipFile.path →
    tree.node (file.1 :: folder.path) = some (.file file.2)

theorem Gathers.listed {tree : Tree} {names : List JString} {files : List (JString × List UInt8)}
    (gathers : Gathers tree folder zipFile names files) {file : JString × List UInt8}
    (among : file ∈ files) : file.1 ∈ names := by
  have present : file.1 ∈ files.map Prod.fst := List.mem_map_of_mem among
  rw [gathers.names] at present
  exact List.mem_of_mem_filter present

theorem Gathers.gathered {tree : Tree} {names : List JString}
    {files : List (JString × List UInt8)} (gathers : Gathers tree folder zipFile names files)
    (reached : Reached tree folder) {name : JString} (listed : name ∈ names)
    (proper : ProperName name) {bytes : List UInt8}
    (found : tree.node (name :: folder.path) = some (.file bytes)) :
    ∃ put, (name, put) ∈ files := by
  have isFile : (folder.child name).isFile tree = true := by
    unfold File.isFile
    rw [(read_child reached proper).2 found]
    rfl
  have present : name ∈ files.map Prod.fst := by
    rw [gathers.names]
    exact List.mem_filter.2 ⟨listed, isFile⟩
  rcases List.mem_map.1 present with ⟨⟨_, put⟩, among, rfl⟩
  exact ⟨put, among⟩

theorem gathers_skip {names : List JString} {files : List (JString × List UInt8)} {name : JString}
    (gathers : Gathers disk.tree folder zipFile names files)
    (noFile : (folder.child name).isFile disk.tree = false) :
    Gathers disk.tree folder zipFile (name :: names) files := by
  constructor
  · rw [List.filter_cons_of_neg (by simp [noFile])]
    exact gathers.names
  · exact gathers.bytes

theorem gathers_cons {names : List JString} {files : List (JString × List UInt8)} {name : JString}
    {bytes : List UInt8} (gathers : Gathers disk.tree folder zipFile names files)
    (isFile : (folder.child name).isFile disk.tree = true)
    (found : name :: folder.path ≠ zipFile.path →
      disk.tree.node (name :: folder.path) = some (.file bytes)) :
    Gathers disk.tree folder zipFile (name :: names) ((name, bytes) :: files) := by
  constructor
  · rw [List.filter_cons_of_pos (by exact isFile), List.map_cons, gathers.names]
  · intro file among
    rcases List.mem_cons.1 among with rfl | among
    · exact found
    · exact gathers.bytes file among

/-- A file which is not the archive does not change while the archive is written. -/
theorem contentDuring_of_elsewhere (library) (reached : Reached disk.tree folder)
    (output : zipFile.resolve disk.tree = some zipFile.path) {name : JString}
    (proper : ProperName name) (elsewhere : name :: folder.path ≠ zipFile.path)
    {whole : List UInt8} (read : (folder.child name).read disk.tree = some whole) (zos : σ) :
    contentDuring library disk zipFile (folder.child name) zos = whole := by
  unfold contentDuring
  rw [resolve_child reached proper, output,
    if_neg (fun equal => elsewhere (Option.some.inj equal)), read, Option.getD_some]

/-- One file of the folder: after a run without exception it is in the archive. -/
theorem holds_file (reached : Reached disk.tree folder)
    (output : zipFile.resolve disk.tree = some zipFile.path) {name : JString}
    (proper : ProperName name) (isFile : (folder.child name).isFile disk.tree = true)
    {fuel : ℕ} {put copied : σ} {done : List (JString × List UInt8)}
    (holds : Holds library put (done ++ [(name, [])]))
    (copies : copyFile library
      (contentDuring library disk zipFile (folder.child name)) fuel 0 put = some copied) :
    ∃ bytes, Holds library copied (done ++ [(name, bytes)]) ∧
      (name :: folder.path ≠ zipFile.path →
        disk.tree.node (name :: folder.path) = some (.file bytes)) := by
  by_cases same : name :: folder.path = zipFile.path
  · rcases holds_copyFile holds copies with ⟨read, held⟩
    exact ⟨_, held, fun contrary => absurd same contrary⟩
  · rcases Option.isSome_iff_exists.1 isFile with ⟨whole, read⟩
    have const := contentDuring_of_elsewhere library reached output proper same read
    exact ⟨whole, holds_copyFile_of_const const holds copies,
      fun _ => (read_child reached proper).1 read⟩

theorem fresh_append {name : JString} {names : List JString} {bytes : List UInt8}
    {done : List (JString × List UInt8)}
    (fresh : ∀ other ∈ name :: names, other ∉ done.map Prod.fst) (once : name ∉ names) :
    ∀ other ∈ names, other ∉ (done ++ [(name, bytes)]).map Prod.fst := by
  intro other among
  rw [List.map_append, List.mem_append]
  rintro (earlier | same)
  · exact fresh other (List.mem_cons_of_mem name among) earlier
  · rw [List.map_singleton, List.mem_singleton] at same
    cases same
    exact once among

/-- What a run without exception leaves in the archive. -/
theorem holds_addFiles (reached : Reached disk.tree folder)
    (output : zipFile.resolve disk.tree = some zipFile.path) {fuel : ℕ} {names : List JString}
    (proper : ∀ name ∈ names, FileName name) (distinct : names.Nodup) {zos after : σ}
    {done : List (JString × List UInt8)} (holds : Holds library zos done)
    (fresh : ∀ name ∈ names, name ∉ done.map Prod.fst)
    (adds : addFiles library disk folder zipFile fuel zos names = some (after, true)) :
    ∃ files, Holds library after (done ++ files) ∧
      Gathers disk.tree folder zipFile names files := by
  induction names generalizing zos done with
  | nil =>
      cases adds
      exact ⟨[], by rwa [List.append_nil], rfl, by simp⟩
  | cons name names ih =>
      have first := proper name List.mem_cons_self
      have others : ∀ other ∈ names, FileName other :=
        fun other among => proper other (List.mem_cons_of_mem name among)
      rcases List.nodup_cons.1 distinct with ⟨once, distinct⟩
      cases isFile : (folder.child name).isFile disk.tree with
      | false =>
          rw [addFiles_skip first.proper isFile] at adds
          rcases ih others distinct holds
            (fun other among => fresh other (List.mem_cons_of_mem name among)) adds with
            ⟨files, held, gathers⟩
          exact ⟨files, held, gathers_skip gathers isFile⟩
      | true =>
          rcases addFiles_file_cases first.proper isFile adds with
            ⟨put, copied, entered, copies, addsRest⟩
          have new := fresh name List.mem_cons_self
          rcases holds_file reached output first.proper isFile
            (holds.put first new entered) copies with ⟨bytes, held, found⟩
          rcases ih others distinct held (fresh_append fresh once) addsRest with
            ⟨files, complete, gathers⟩
          refine ⟨(name, bytes) :: files, ?_, gathers_cons gathers isFile found⟩
          rwa [List.append_assoc, List.singleton_append] at complete

/-- The loops end when the archive is not among the files. -/
theorem exists_addFiles (lawful : library.Lawful) (reached : Reached disk.tree folder)
    (output : zipFile.resolve disk.tree = some zipFile.path) {fuel : ℕ} {names : List JString}
    (proper : ∀ name ∈ names, FileName name) (distinct : names.Nodup)
    (elsewhere : ∀ name, name :: folder.path ≠ zipFile.path)
    (enough : ∀ name ∈ names, ∀ bytes,
      disk.tree.node (name :: folder.path) = some (.file bytes) → bytes.length < fuel)
    {zos : σ} {done : List (JString × List UInt8)} (holds : Holds library zos done)
    (fresh : ∀ name ∈ names, name ∉ done.map Prod.fst) :
    ∃ after, addFiles library disk folder zipFile fuel zos names = some (after, true) := by
  induction names generalizing zos done with
  | nil => exact ⟨zos, rfl⟩
  | cons name names ih =>
      have first := proper name List.mem_cons_self
      have others : ∀ other ∈ names, FileName other :=
        fun other among => proper other (List.mem_cons_of_mem name among)
      have enoughOthers : ∀ other ∈ names, ∀ bytes,
          disk.tree.node (other :: folder.path) = some (.file bytes) → bytes.length < fuel :=
        fun other among => enough other (List.mem_cons_of_mem name among)
      rcases List.nodup_cons.1 distinct with ⟨once, distinct⟩
      cases isFile : (folder.child name).isFile disk.tree with
      | false =>
          rw [addFiles_skip first.proper isFile]
          exact ih others distinct enoughOthers holds
            fun other among => fresh other (List.mem_cons_of_mem name among)
      | true =>
          have new := fresh name List.mem_cons_self
          rcases lawful.puts holds first new with ⟨put, entered⟩
          rcases Option.isSome_iff_exists.1 isFile with ⟨whole, read⟩
          have const := contentDuring_of_elsewhere library reached output first.proper
            (elsewhere name) read
          have long := enough name List.mem_cons_self whole
            ((read_child reached first.proper).1 read)
          rcases exists_copyFile const (Nat.lt_of_le_of_lt (Nat.sub_le _ 0) long) put with
            ⟨copied, copies⟩
          rcases holds_file reached output first.proper isFile
            (holds.put first new entered) copies with ⟨bytes, held, _⟩
          rw [addFiles_file first.proper isFile entered copies]
          exact ih others distinct enoughOthers held (fresh_append fresh once)

end Loops

end AndroidCollection.Io
