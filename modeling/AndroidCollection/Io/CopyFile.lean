import AndroidCollection.Java.Text
import Mathlib.Data.List.TakeDrop

/-!
# Copying a file

`FileUtil.copyFile` opens the source for reading and the target for writing, and
moves the bytes from one stream to the other. Opening the target empties it, and
the first read comes later: if the two paths name the same file, nothing is left
to be read. An exception is printed, and ends the copying where it is.

A path leads to a directory entry, once links and relative names have been
followed, and an entry names an inode; two entries can name the same one. What a
call on a stream does depends on the position which both streams have got to. So
a device says how many bytes the read at a position gives, and which calls raise.
-/

namespace AndroidCollection.Io.FileUtil

open Java

/-! ## Files -/

inductive Node where
  | file (content : List UInt8)
  | directory
deriving DecidableEq, Repr

structure Storage where
  /-- The entry which a path leads to, if the directories on the way are there. -/
  entry : JString → Option Ref
  inode : Ref → Option Ref
  node : Ref → Node
  created : ℕ
  inode_lt : ∀ {entry found}, inode entry = some found → found < created

/-- How the streams of a copy behave. -/
structure Device where
  opensInput : Bool
  opensOutput : Bool
  /-- How many bytes the read at a position would give. -/
  available : ℕ → ℕ
  readRaises : ℕ → Bool
  /-- The write at a position raises after so many bytes, which are not all. -/
  writeRaises : ℕ → Option ℕ

def Node.content : Node → Option (List UInt8)
  | .file content => some content
  | .directory => none

namespace Storage

variable (storage : Storage)

def find (path : JString) : Option Ref :=
  (storage.entry path).bind storage.inode

def contentOf (path : JString) : Option (List UInt8) :=
  (storage.find path).bind fun inode => (storage.node inode).content

def exists' (path : JString) : Bool :=
  (storage.find path).isSome

/-- What the file holds after bytes have been written at a position. -/
def store (content : List UInt8) (position : ℕ) (bytes : List UInt8) : List UInt8 :=
  content.take position ++ List.replicate (position - content.length) 0 ++ bytes ++
    content.drop (position + bytes.length)

def put (inode : Ref) (content : List UInt8) : Storage :=
  { storage with
    node := fun other => if other = inode then .file content else storage.node other }

def read (inode : Ref) : List UInt8 :=
  (storage.node inode).content.getD []

def write (inode : Ref) (position : ℕ) (bytes : List UInt8) : Storage :=
  storage.put inode (store (storage.read inode) position bytes)

/-- An empty file at an entry which names none. -/
def create (entry : Ref) : Storage where
  entry := storage.entry
  inode := fun other => if other = entry then some storage.created else storage.inode other
  node := fun other => if other = storage.created then .file [] else storage.node other
  created := storage.created + 1
  inode_lt := by
    intro other found named
    split at named
    · cases named
      exact Nat.lt_succ_self _
    · exact (storage.inode_lt named).trans (Nat.lt_succ_self _)

end Storage

/-- `new FileInputStream(in)`. -/
def openInput (device : Device) (storage : Storage) (path : JString) : Option Ref :=
  if device.opensInput then
    match storage.find path with
    | none => none
    | some inode => if (storage.node inode).content.isSome then some inode else none
  else
    none

/-- `new FileOutputStream(out)`: the file is created, or emptied. -/
def openOutput (device : Device) (storage : Storage) (path : JString) : Option (Storage × Ref) :=
  if device.opensOutput then
    match storage.entry path with
    | none => none
    | some entry =>
        match storage.inode entry with
        | none => some (storage.create entry, storage.created)
        | some inode =>
            if (storage.node inode).content.isSome then some (storage.put inode [], inode) else none
  else
    none

/-! ## `FileUtil` -/

/-- The length of the buffer. -/
def BUFFER : ℕ :=
  4096

/-- The bytes which the read at a position gives: at least one, if there is one. -/
def Device.bytesAt (device : Device) (content : List UInt8) (position : ℕ) : List UInt8 :=
  (content.drop position).take (max 1 (min BUFFER (device.available position)))

theorem Device.length_bytesAt (device : Device) {content : List UInt8} {position : ℕ}
    (before : position < content.length) :
    0 < (device.bytesAt content position).length ∧
      position + (device.bytesAt content position).length ≤ content.length := by
  simp only [Device.bytesAt, List.length_take, List.length_drop]
  omega

theorem Storage.length_store (content : List UInt8) (position : ℕ) (bytes : List UInt8) :
    (Storage.store content position bytes).length =
      max content.length (position + bytes.length) := by
  simp only [Storage.store, List.length_append, List.length_take, List.length_replicate,
    List.length_drop]
  omega

/-- Writing what has been read at the same position does not make the file longer. -/
theorem Storage.length_read_write (storage : Storage) (input output : Ref) {position : ℕ}
    {bytes : List UInt8} (fits : position + bytes.length ≤ (storage.read input).length) :
    ((storage.write output position bytes).read input).length = (storage.read input).length := by
  simp only [Storage.write, Storage.put, Storage.read]
  split
  · next same =>
      subst same
      simp only [Node.content, Option.getD_some, Storage.length_store]
      exact Nat.max_eq_left fits
  · rfl

/-- `copyFile(InputStream, OutputStream)`, from the position which the streams have got to. -/
def copyFileStreams (device : Device) (storage : Storage) (input output : Ref) (position : ℕ) :
    Storage :=
  if device.readRaises position then storage
  else if _ : (storage.read input).length ≤ position then storage
  else
    match device.writeRaises position with
    | some written =>
        storage.write output position
          ((device.bytesAt (storage.read input) position).dropLast.take written)
    | none =>
        copyFileStreams device
          (storage.write output position (device.bytesAt (storage.read input) position))
          input output (position + (device.bytesAt (storage.read input) position).length)
termination_by (storage.read input).length - position
decreasing_by
  have given := device.length_bytesAt (Nat.lt_of_not_le ‹_›)
  rw [Storage.length_read_write storage input output given.2]
  omega

/-- `copyFile(File, File)`. -/
def copyFileFiles (device : Device) (storage : Storage) (in_ out : JString) : Storage :=
  match openInput device storage in_ with
  | none => storage
  | some input =>
      match openOutput device storage out with
      | none => storage
      | some (opened, output) => copyFileStreams device opened input output 0

/-- `copyFile(String, String)`. -/
def copyFile (device : Device) (storage : Storage) (sourceFile targetFile : JString) : Storage :=
  if !storage.exists' sourceFile then storage
  else copyFileFiles device storage sourceFile targetFile

/-! ## Copies -/

/-- The streams can be opened: there are directories on the way to the target, but it is none. -/
def Opens (device : Device) (storage : Storage) (targetFile : JString) : Prop :=
  device.opensInput = true ∧ device.opensOutput = true ∧ storage.entry targetFile ≠ none ∧
    ∀ inode, storage.find targetFile = some inode → storage.node inode ≠ .directory

/-- No call raises from a position on until all the bytes are written. -/
def Device.undisturbed (device : Device) (content : List UInt8) (position : ℕ) : Bool :=
  if _ : content.length ≤ position then true
  else
    !device.readRaises position && (device.writeRaises position).isNone &&
      device.undisturbed content (position + (device.bytesAt content position).length)
termination_by content.length - position
decreasing_by
  have given := device.length_bytesAt (Nat.lt_of_not_le ‹_›)
  omega

/-- A device on which no call raises. -/
def Device.steady (available : ℕ → ℕ) : Device where
  opensInput := true
  opensOutput := true
  available := available
  readRaises := fun _ => false
  writeRaises := fun _ => none

theorem undisturbed_steady (available : ℕ → ℕ) (content : List UInt8) (position : ℕ) :
    (Device.steady available).undisturbed content position = true := by
  fun_induction Device.undisturbed with
  | case1 position ended => rfl
  | case2 position remains ih =>
      rw [ih]
      rfl

/-- The content of the source gets to the target: the streams are opened, and if there is anything
to be copied, the paths name different files and no call raises. If a stream is not opened, the
target keeps what it holds. -/
def Copyable (device : Device) (storage : Storage) (sourceFile targetFile : JString)
    (content : List UInt8) : Prop :=
  (Opens device storage targetFile ∧
      (content = [] ∨ storage.find sourceFile ≠ storage.find targetFile ∧
        device.undisturbed content 0 = true)) ∨
    (¬Opens device storage targetFile ∧ storage.contentOf targetFile = some content)

section Copying

variable {device : Device} {storage : Storage} {input output : Ref} {position : ℕ}
  {content : List UInt8}

theorem Storage.store_take (bytes : List UInt8) (reached : position ≤ content.length) :
    Storage.store (content.take position) position bytes = content.take position ++ bytes := by
  have length : (content.take position).length = position := by simp [reached]
  rw [Storage.store, length, Nat.sub_self, List.replicate_zero, List.append_nil,
    List.take_of_length_le length.le, List.drop_eq_nil_of_le (by omega), List.append_nil]

theorem Storage.node_put (inode : Ref) (bytes : List UInt8) (other : Ref) :
    (storage.put inode bytes).node other =
      if other = inode then .file bytes else storage.node other :=
  rfl

theorem Storage.read_eq {inode : Ref} (holds : storage.node inode = .file content) :
    storage.read inode = content := by
  rw [Storage.read, holds]
  rfl

/-- What has been read is appended to the part which is there. -/
theorem Storage.write_take (holds : storage.node output = .file (content.take position))
    (reached : position ≤ content.length) (bytes : List UInt8) :
    storage.write output position bytes = storage.put output (content.take position ++ bytes) := by
  rw [Storage.write, Storage.read_eq holds, Storage.store_take bytes reached]

theorem Device.take_append_bytesAt (device : Device) (content : List UInt8) (position : ℕ) :
    content.take position ++ device.bytesAt content position =
      content.take (position + (device.bytesAt content position).length) := by
  rw [Device.bytesAt, List.take_add, List.length_take, ← List.take_eq_take_min]

/-- Between different files, all of the source arrives exactly if no call raises. -/
theorem node_copyFileStreams_iff (different : input ≠ output)
    (source : storage.node input = .file content)
    (target : storage.node output = .file (content.take position))
    (reached : position ≤ content.length) :
    (copyFileStreams device storage input output position).node output = .file content ↔
      device.undisturbed content position = true := by
  have given := Storage.read_eq source
  -- the copying stops short, and the target has only a part of the source
  have short {part : List UInt8} (less : part.length < content.length) :
      Node.file part ≠ .file content := by
    intro same
    exact less.ne (congrArg List.length (Node.file.inj same))
  fun_induction copyFileStreams device storage input output position with
  | case1 storage position raises =>
      rw [Device.undisturbed, target]
      by_cases ended : content.length ≤ position
      · simp [ended, List.take_of_length_le]
      · simp [ended, raises, List.take_eq_self_iff]
  | case2 storage position reads ended =>
      rw [given] at ended
      rw [Device.undisturbed, target]
      simp [ended, List.take_of_length_le]
  | case3 storage position reads remains written raises =>
      rw [given] at remains
      have bytes := device.length_bytesAt (Nat.lt_of_not_le remains)
      rw [Device.undisturbed, dif_neg remains, given, Storage.write_take target reached,
        Storage.node_put, if_pos rfl]
      refine iff_of_false (short ?_) (by simp [raises])
      simp only [List.length_append, List.length_take, List.length_dropLast]
      omega
  | case4 storage position reads remains writes ih =>
      rw [given] at remains ih
      have bytes := device.length_bytesAt (Nat.lt_of_not_le remains)
      have written := Storage.write_take target reached (device.bytesAt content position)
      have stays : (storage.write output position (device.bytesAt content position)).node input =
          .file content := by
        rw [written, Storage.node_put, if_neg different, source]
      have grows : (storage.write output position (device.bytesAt content position)).node output =
          .file (content.take (position + (device.bytesAt content position).length)) := by
        rw [written, Storage.node_put, if_pos rfl, device.take_append_bytesAt]
      rw [Device.undisturbed, dif_neg remains, given]
      refine (ih stays grows bytes.2 (Storage.read_eq stays)).trans ?_
      simp [reads, writes]

theorem find_copyFileStreams (path : JString) :
    (copyFileStreams device storage input output position).find path = storage.find path := by
  fun_induction copyFileStreams device storage input output position with
  | case1 storage position raises => rfl
  | case2 storage position reads ended => rfl
  | case3 storage position reads remains written raises => rfl
  | case4 storage position reads remains writes ih => exact ih

/-- Nothing is read from an empty file. -/
theorem copyFileStreams_of_empty (source : storage.node input = .file []) :
    copyFileStreams device storage input output position = storage := by
  rw [copyFileStreams, Storage.read_eq source]
  simp

/-! ## The streams -/

variable {sourceFile targetFile : JString}

theorem Storage.contentOf_eq_some_iff :
    storage.contentOf sourceFile = some content ↔
      ∃ inode, storage.find sourceFile = some inode ∧ storage.node inode = .file content := by
  rw [Storage.contentOf, Option.bind_eq_some_iff]
  apply exists_congr
  intro inode
  apply and_congr_right
  intro _
  cases storage.node inode with
  | file held => simp [Node.content]
  | directory => simp [Node.content]

theorem Storage.find_lt (named : storage.find sourceFile = some input) :
    input < storage.created := by
  rcases Option.bind_eq_some_iff.1 named with ⟨entry, _, found⟩
  exact storage.inode_lt found

theorem openInput_eq (device : Device) (named : storage.find sourceFile = some input)
    (source : storage.node input = .file content) :
    openInput device storage sourceFile = if device.opensInput then some input else none := by
  have isFile : (storage.node input).content.isSome = true := by
    rw [source]
    rfl
  simp only [openInput, named, isFile, if_true]

/-- Opening the target leaves an empty file there, and the files of other inodes. -/
structure Emptied (storage : Storage) (targetFile : JString) (opened : Storage) (output : Ref) :
    Prop where
  named : opened.find targetFile = some output
  empty : opened.node output = .file []
  others : ∀ {inode}, inode < storage.created → inode ≠ output →
    opened.node inode = storage.node inode
  same : ∀ {inode}, inode < storage.created →
    (inode = output ↔ storage.find targetFile = some inode)

theorem emptied_create {entry : Ref} (leads : storage.entry targetFile = some entry)
    (missing : storage.inode entry = none) :
    Emptied storage targetFile (storage.create entry) storage.created := by
  constructor
  · simp [Storage.find, Storage.create, leads]
  · simp [Storage.create]
  · intro inode older _
    simp [Storage.create, older.ne]
  · intro inode older
    simp [Storage.find, leads, missing, older.ne]

theorem emptied_put {entry : Ref} (leads : storage.entry targetFile = some entry)
    (found : storage.inode entry = some output) :
    Emptied storage targetFile (storage.put output []) output := by
  constructor
  · simp [Storage.find, Storage.put, leads, found]
  · simp [Storage.put]
  · intro inode _ different
    simp [Storage.put, different]
  · intro inode _
    simp [Storage.find, leads, found, eq_comm]

theorem Node.isSome_content_iff (node : Node) :
    node.content.isSome = true ↔ node ≠ .directory := by
  cases node <;> simp [Node.content]

theorem openOutput_cases (device : Device) (storage : Storage) (targetFile : JString)
    (ready : device.opensInput = true) :
    (Opens device storage targetFile ∧ ∃ opened output,
        openOutput device storage targetFile = some (opened, output) ∧
          Emptied storage targetFile opened output) ∨
      (¬Opens device storage targetFile ∧ openOutput device storage targetFile = none) := by
  by_cases opens : device.opensOutput = true
  · cases leads : storage.entry targetFile with
    | none =>
        right
        simp [Opens, openOutput, leads]
    | some entry =>
        have find : storage.find targetFile = storage.inode entry := by
          rw [Storage.find, leads]
          rfl
        cases found : storage.inode entry with
        | none =>
            left
            refine ⟨⟨ready, opens, by simp [leads], by simp [find, found]⟩, storage.create entry,
              storage.created, ?_, emptied_create leads found⟩
            simp only [openOutput, opens, leads, found, if_true]
        | some inode =>
            by_cases isFile : (storage.node inode).content.isSome = true
            · left
              have notDirectory := (Node.isSome_content_iff _).1 isFile
              refine ⟨⟨ready, opens, by simp [leads], by simp [find, found, notDirectory]⟩,
                storage.put inode [], inode, ?_, emptied_put leads found⟩
              simp only [openOutput, opens, leads, found, isFile, if_true]
            · right
              have directory := mt (Node.isSome_content_iff _).2 isFile
              constructor
              · intro others
                exact directory (others.2.2.2 inode (find.trans found))
              · simp only [openOutput, opens, leads, found, if_true, if_neg isFile]
  · right
    simp [Opens, openOutput, opens]

/-- What the streams make of the files once they are opened. -/
theorem contentOf_copyFileStreams_iff {opened : Storage}
    (named : storage.find sourceFile = some input) (source : storage.node input = .file content)
    (emptied : Emptied storage targetFile opened output) :
    (copyFileStreams device opened input output 0).contentOf targetFile = some content ↔
      content = [] ∨ storage.find sourceFile ≠ storage.find targetFile ∧
        device.undisturbed content 0 = true := by
  have older := Storage.find_lt named
  have target : (copyFileStreams device opened input output 0).contentOf targetFile =
        some content ↔
      (copyFileStreams device opened input output 0).node output = .file content := by
    rw [Storage.contentOf_eq_some_iff, find_copyFileStreams, emptied.named]
    constructor
    · rintro ⟨inode, reached, holds⟩
      exact Option.some.inj reached ▸ holds
    · intro holds
      exact ⟨output, rfl, holds⟩
  rw [target, named]
  by_cases same : input = output
  · -- the source is empty before it is read
    have reaches := (emptied.same older).1 same
    rw [copyFileStreams_of_empty (same ▸ emptied.empty), emptied.empty, reaches]
    constructor
    · intro nothing
      exact Or.inl (Node.file.inj nothing).symm
    · rintro (rfl | ⟨apart, _⟩)
      · rfl
      · exact absurd rfl apart
  · have apart : some input ≠ storage.find targetFile :=
      fun reaches => same ((emptied.same older).2 reaches.symm)
    have stays : opened.node input = .file content := by
      rw [emptied.others older same, source]
    have start : opened.node output = .file (content.take 0) := emptied.empty
    rw [node_copyFileStreams_iff same stays start (Nat.zero_le _)]
    constructor
    · intro undisturbed
      exact Or.inr ⟨apart, undisturbed⟩
    · rintro (rfl | ⟨_, undisturbed⟩)
      · rw [Device.undisturbed]
        simp
      · exact undisturbed

end Copying

theorem contentOf_copyFile_iff (device : Device) (storage : Storage)
    (sourceFile targetFile : JString) (content : List UInt8)
    (held : storage.contentOf sourceFile = some content) :
    (copyFile device storage sourceFile targetFile).contentOf targetFile = some content ↔
      Copyable device storage sourceFile targetFile content := by
  rcases Storage.contentOf_eq_some_iff.1 held with ⟨input, named, source⟩
  have present : storage.exists' sourceFile = true := by
    rw [Storage.exists', named]
    rfl
  have opening := openInput_eq device named source
  unfold copyFile copyFileFiles Copyable
  rw [present]
  simp only [Bool.not_true, Bool.false_eq_true, if_false]
  cases ready : device.opensInput with
  | false =>
      have refused : ¬Opens device storage targetFile := by
        rintro ⟨opens, _⟩
        rw [ready] at opens
        cases opens
      simp [opening, ready, refused]
  | true =>
      rw [ready, if_pos rfl] at opening
      rcases openOutput_cases device storage targetFile ready with
        ⟨opens, opened, output, done, emptied⟩ | ⟨refused, fails⟩
      · simp only [opening, done]
        rw [contentOf_copyFileStreams_iff named source emptied]
        simp [opens]
      · simp [opening, fails, refused]

/-- Three bytes are copied to a new file. -/
theorem contentOf_copyFile_three :
    (copyFile (.steady fun _ => 2)
        { entry := fun path => if path = [] then none else some path.length
          inode := fun entry => if entry = 1 then some 0 else none
          node := fun _ => .file [7, 8, 9]
          created := 1
          inode_lt := by
            intro entry found named
            split at named <;> cases named
            decide } [0x61] [0x62, 0x63]).contentOf [0x62, 0x63] = some [7, 8, 9] := by
  apply (contentOf_copyFile_iff _ _ _ _ _ rfl).2
  left
  refine ⟨⟨rfl, rfl, by decide, ?_⟩, Or.inr ⟨by decide, undisturbed_steady _ _ _⟩⟩
  intro inode named
  cases named

/-- Both paths name the file, by its name in the directory and by its whole path. -/
theorem not_contentOf_copyFile_same :
    ¬∀ (available : ℕ → ℕ) (storage : Storage) (sourceFile targetFile : JString)
        (content : List UInt8), storage.contentOf sourceFile = some content →
      (copyFile (.steady available) storage sourceFile targetFile).contentOf targetFile =
        some content := by
  intro keeps
  have copied := keeps (fun _ => 1)
    { entry := fun _ => some 0
      inode := fun entry => if entry = 0 then some 0 else none
      node := fun _ => .file [7]
      created := 1
      inode_lt := by
        intro entry found named
        split at named <;> cases named
        decide } [0x61] [0x2F, 0x61] [7] rfl
  simp [copyFile, copyFileFiles, openInput, openOutput, Storage.exists', Storage.find,
    Device.steady, Storage.put, Node.content, copyFileStreams, Storage.read,
    Storage.contentOf] at copied

end AndroidCollection.Io.FileUtil
