import AndroidCollection.Io.CopyFile
import Mathlib.Algebra.BigOperators.Group.List.Basic
import Mathlib.Algebra.Order.BigOperators.Group.List

/-!
# Copying with a length which is a byte

`FileUtil.copy` calls the `read` which gives the next byte, and takes what it gives for
the number of bytes in its buffer. Nothing is ever put into that buffer, so for each
byte of the source as many zeros are written as the byte says. The target holds nothing
but zeros, and no more of them than the bytes of the source add up to: this is the
source only if both are empty.

Both streams are buffered. The buffer of the output has room for more bytes than a
single `write` gets. Unlike `copyFile`, an exception leaves the streams open, and the
zeros which are still in the buffer are lost.
-/

namespace AndroidCollection.Io.FileUtil

open Java

/-! ## Buffered streams -/

/-- The length of the buffers of both streams. -/
def STREAM_BUFFER : ℕ :=
  8192

/-- A `BufferedInputStream`: the bytes in its buffer, and the position in the file. -/
structure Reader where
  buffered : List UInt8 := []
  position : ℕ := 0

/-- A `BufferedOutputStream`. -/
structure Writer where
  pending : List UInt8 := []
  position : ℕ := 0

/-- What the read of a whole buffer gives. -/
def Reader.filled (device : Device) (file : List UInt8) (reader : Reader) : List UInt8 :=
  (file.drop reader.position).take
    (max 1 (min STREAM_BUFFER (device.available reader.position)))

/-- `read()`: the next byte, or none at the end of the file; nothing when it raises. -/
def Reader.read (device : Device) (file : List UInt8) (reader : Reader) :
    Option (Option UInt8 × Reader) :=
  match reader.buffered with
  | byte :: rest => some (some byte, { reader with buffered := rest })
  | [] =>
      if device.readRaises reader.position then none
      else
        match reader.filled device file with
        | [] => some (none, reader)
        | byte :: rest => some (some byte, ⟨rest, reader.position + (rest.length + 1)⟩)

/-- `flushBuffer()`: the storage, and the stream unless the write has raised. -/
def Writer.flush (device : Device) (storage : Storage) (output : Ref) (writer : Writer) :
    Storage × Option Writer :=
  if writer.pending = [] then (storage, some writer)
  else
    match device.writeRaises writer.position with
    | some written =>
        (storage.write output writer.position (writer.pending.dropLast.take written), none)
    | none =>
        (storage.write output writer.position writer.pending,
          some ⟨[], writer.position + writer.pending.length⟩)

/-- `write(buffer, 0, len)` of fewer bytes than the buffer of the stream has. -/
def Writer.write (device : Device) (storage : Storage) (output : Ref) (writer : Writer)
    (bytes : List UInt8) : Storage × Option Writer :=
  if STREAM_BUFFER - writer.pending.length < bytes.length then
    match writer.flush device storage output with
    | (flushed, some writer) =>
        (flushed, some { writer with pending := writer.pending ++ bytes })
    | (flushed, none) => (flushed, none)
  else (storage, some { writer with pending := writer.pending ++ bytes })

/-! ## `FileUtil.copy` -/

/-- The bytes of `buffer` up to `len`. -/
def zeros (len : UInt8) : List UInt8 :=
  (List.replicate BUFFER 0).take len.toNat

/-- The loop, and the closing of the streams; nothing when the fuel does not last. The input is
closed first, and if that raises, the output is not flushed. -/
def copyLoop (device : Device) (closeRaises : Bool) (input output : Ref) :
    ℕ → Storage → Reader → Writer → Option Storage
  | 0, _, _, _ => none
  | fuel + 1, storage, reader, writer =>
      match reader.read device (storage.read input) with
      | none => some storage
      | some (none, _) =>
          if closeRaises then some storage else some (writer.flush device storage output).1
      | some (some len, reader) =>
          match writer.write device storage output (zeros len) with
          | (stored, none) => some stored
          | (stored, some writer) =>
              copyLoop device closeRaises input output fuel stored reader writer

/-- `copy(File, File)`. -/
def copy (fuel : ℕ) (device : Device) (closeRaises : Bool) (storage : Storage)
    (source target : JString) : Option Storage :=
  match openInput device storage source with
  | none => some storage
  | some input =>
      match openOutput device storage target with
      | none => some storage
      | some (opened, output) => copyLoop device closeRaises input output fuel opened {} {}

/-! ## Zeros in the target -/

/-- The target has been written up to the position of the stream, and with what is in the buffer
it gets a total of zeros. -/
structure Zeroed (total : ℕ) (storage : Storage) (output : Ref) (writer : Writer) : Prop where
  written : storage.node output = .file (List.replicate writer.position 0)
  pending : ∃ count, writer.pending = List.replicate count 0 ∧ writer.position + count = total

/-- There are at most so many zeros, and nothing else, in the target. -/
def HoldsZeros (total : ℕ) (storage : Storage) (output : Ref) : Prop :=
  ∃ count ≤ total, storage.node output = .file (List.replicate count 0)

/-- Only the target has been changed. -/
structure OnlyChanges (output : Ref) (before after : Storage) : Prop where
  find : ∀ path, after.find path = before.find path
  node : ∀ {other}, other ≠ output → after.node other = before.node other

section Zeros

variable (device : Device) {storage : Storage} {output : Ref} {writer : Writer} {total : ℕ}

theorem zeros_eq (len : UInt8) : zeros len = List.replicate len.toNat 0 := by
  have byte : len.toNat < 256 := len.toNat_lt
  rw [zeros, List.take_replicate, Nat.min_eq_left (by rw [BUFFER]; omega)]

theorem onlyChanges_refl (output : Ref) (storage : Storage) :
    OnlyChanges output storage storage :=
  ⟨fun _ => rfl, fun _ => rfl⟩

theorem onlyChanges_write (storage : Storage) (output : Ref) (position : ℕ)
    (bytes : List UInt8) : OnlyChanges output storage (storage.write output position bytes) :=
  ⟨fun _ => rfl, fun different => if_neg different⟩

theorem Zeroed.holdsZeros (zeroed : Zeroed total storage output writer) :
    HoldsZeros total storage output := by
  rcases zeroed.pending with ⟨count, _, sum⟩
  exact ⟨writer.position, by omega, zeroed.written⟩

theorem HoldsZeros.mono {larger : ℕ} (holds : HoldsZeros total storage output)
    (le : total ≤ larger) : HoldsZeros larger storage output := by
  rcases holds with ⟨count, bounded, held⟩
  exact ⟨count, bounded.trans le, held⟩

/-- Zeros which are written at the end. -/
theorem node_write_zeros {position : ℕ}
    (written : storage.node output = .file (List.replicate position 0)) (count : ℕ) :
    (storage.write output position (List.replicate count 0)).node output =
      .file (List.replicate (position + count) 0) := by
  rw [Storage.write, Storage.read_eq written, Storage.node_put, if_pos rfl, Storage.store]
  simp [List.replicate_append_replicate]

theorem OnlyChanges.trans {between after : Storage} (first : OnlyChanges output storage between)
    (second : OnlyChanges output between after) : OnlyChanges output storage after :=
  ⟨fun path => (second.find path).trans (first.find path),
    fun different => (second.node different).trans (first.node different)⟩

/-- What a call on the output stream leaves, which may have raised. -/
structure Leaves (total : ℕ) (output : Ref) (before : Storage) (result : Storage × Option Writer) :
    Prop where
  holds : HoldsZeros total result.1 output
  changes : OnlyChanges output before result.1
  zeroed : ∀ writer, result.2 = some writer → Zeroed total result.1 output writer

theorem leaves_flush (zeroed : Zeroed total storage output writer) :
    Leaves total output storage (writer.flush device storage output) := by
  rcases zeroed.pending with ⟨count, pending, sum⟩
  rw [Writer.flush]
  split
  · refine ⟨zeroed.holdsZeros, onlyChanges_refl output storage, ?_⟩
    intro same unchanged
    rwa [← Option.some.inj unchanged]
  · split
    · next written _ =>
        refine ⟨?_, onlyChanges_write _ _ _ _, fun _ raised => by cases raised⟩
        rw [pending, List.dropLast_replicate, List.take_replicate]
        exact ⟨_, by omega, node_write_zeros zeroed.written _⟩
    · have stored := node_write_zeros zeroed.written count
      rw [pending]
      refine ⟨⟨_, sum.le, stored⟩, onlyChanges_write _ _ _ _, ?_⟩
      intro flushed done
      cases done
      refine ⟨?_, 0, rfl, ?_⟩
      · simpa using stored
      · simpa using sum

/-- Bytes which are appended to those in the buffer. -/
theorem Zeroed.append (zeroed : Zeroed total storage output writer) (count : ℕ) :
    Zeroed (total + count) storage output
      { writer with pending := writer.pending ++ List.replicate count 0 } := by
  rcases zeroed.pending with ⟨before, pending, sum⟩
  refine ⟨zeroed.written, before + count, ?_, ?_⟩
  · rw [pending, List.replicate_append_replicate]
  · rw [← Nat.add_assoc, sum]

theorem leaves_write (zeroed : Zeroed total storage output writer) (len : UInt8) :
    Leaves (total + len.toNat) output storage
      (writer.write device storage output (zeros len)) := by
  rw [Writer.write, zeros_eq]
  split
  · have flushed := leaves_flush device zeroed
    rcases done : writer.flush device storage output with ⟨stored, _ | between⟩ <;>
      rw [done] at flushed
    · exact ⟨flushed.holds.mono (Nat.le_add_right _ _), flushed.changes,
        fun _ raised => by cases raised⟩
    · have appended := (flushed.zeroed between rfl).append len.toNat
      refine ⟨appended.holdsZeros, flushed.changes, ?_⟩
      intro same unchanged
      rwa [← Option.some.inj unchanged]
  · have appended := zeroed.append len.toNat
    refine ⟨appended.holdsZeros, onlyChanges_refl output storage, ?_⟩
    intro same unchanged
    rwa [← Option.some.inj unchanged]

end Zeros

/-! ## Bytes of the source -/

/-- The bytes which have been read, those in the buffer, and those which the file still has. -/
def Reading (content consumed : List UInt8) (reader : Reader) : Prop :=
  content = consumed ++ (reader.buffered ++ content.drop reader.position)

theorem Reader.filled_append_drop (device : Device) (content : List UInt8) (reader : Reader) :
    reader.filled device content ++
        content.drop (reader.position + (reader.filled device content).length) =
      content.drop reader.position := by
  rw [← List.drop_drop]
  exact List.prefix_iff_eq_append.1 (List.take_prefix _ _)

theorem reading_read {device : Device} {content consumed : List UInt8} {reader next : Reader}
    {byte : UInt8} (reading : Reading content consumed reader)
    (given : reader.read device content = some (some byte, next)) :
    Reading content (consumed ++ [byte]) next := by
  rw [Reader.read] at given
  split at given
  · next first rest buffered =>
      cases given
      rw [Reading, buffered] at reading
      simpa [Reading] using reading
  · next empty =>
      split at given
      · cases given
      · have whole := reader.filled_append_drop device content
        split at given
        · cases given
        · next first rest filled =>
            cases given
            rw [filled] at whole
            rw [Reading, empty, List.nil_append, ← whole] at reading
            simpa [Reading] using reading

def byteSum (bytes : List UInt8) : ℕ :=
  (bytes.map UInt8.toNat).sum

theorem byteSum_append (first second : List UInt8) :
    byteSum (first ++ second) = byteSum first + byteSum second := by
  simp [byteSum]

theorem byteSum_replicate_zero (count : ℕ) : byteSum (List.replicate count 0) = 0 := by
  simp [byteSum]

theorem Reading.byteSum_le {content consumed : List UInt8} {reader : Reader}
    (reading : Reading content consumed reader) : byteSum consumed ≤ byteSum content := by
  have sums := congrArg byteSum reading
  rw [byteSum_append] at sums
  omega

/-! ## The whole copy -/

section Copying

variable (device : Device) (closeRaises : Bool) {storage : Storage} {input output : Ref}
  {content : List UInt8}

/-- However the loop ends, the target holds no more zeros than the bytes which it has got. -/
theorem copyLoop_holdsZeros {fuel : ℕ} {consumed : List UInt8} {reader : Reader} {writer : Writer}
    (different : input ≠ output) (source : storage.node input = .file content)
    (reading : Reading content consumed reader)
    (zeroed : Zeroed (byteSum consumed) storage output writer)
    (enough : content.length < consumed.length + fuel) :
    ∃ final, copyLoop device closeRaises input output fuel storage reader writer = some final ∧
      HoldsZeros (byteSum content) final output ∧ OnlyChanges output storage final := by
  have within := reading.byteSum_le
  induction fuel generalizing storage consumed reader writer with
  | zero =>
      have longer := congrArg List.length reading
      rw [List.length_append] at longer
      omega
  | succ fuel ih =>
      rw [copyLoop, Storage.read_eq source]
      rcases given : reader.read device content with _ | ⟨_ | len, next⟩
      · exact ⟨storage, rfl, zeroed.holdsZeros.mono within, onlyChanges_refl output storage⟩
      · have flushed := leaves_flush device zeroed
        cases closeRaises with
        | true =>
            exact ⟨storage, rfl, zeroed.holdsZeros.mono within, onlyChanges_refl output storage⟩
        | false => exact ⟨_, rfl, flushed.holds.mono within, flushed.changes⟩
      · have read := reading_read reading given
        have stored := leaves_write device zeroed len
        have sum : byteSum (consumed ++ [len]) = byteSum consumed + len.toNat := by
          simp [byteSum]
        have part := read.byteSum_le
        rw [← sum] at stored
        rcases done : writer.write device storage output (zeros len) with ⟨after, _ | later⟩ <;>
          rw [done] at stored
        · exact ⟨after, by simp [done], stored.holds.mono part, stored.changes⟩
        · have kept : after.node input = .file content := by
            rw [stored.changes.node different, source]
          have fuelLeft : content.length < (consumed ++ [len]).length + fuel := by
            rw [List.length_append, List.length_singleton]
            omega
          rcases ih kept read (stored.zeroed later rfl) fuelLeft part with
            ⟨final, ends, holds, changes⟩
          refine ⟨final, ?_, holds, stored.changes.trans changes⟩
          simpa [done] using ends

/-- Nothing is written when the file which is read is empty. -/
theorem copyLoop_of_empty {fuel : ℕ} (some : 0 < fuel) (source : storage.node input = .file []) :
    copyLoop device closeRaises input output fuel storage {} {} = Option.some storage := by
  obtain ⟨fuel, rfl⟩ := Nat.exists_eq_succ_of_ne_zero some.ne'
  rw [copyLoop, Storage.read_eq source]
  cases raises : device.readRaises 0 with
  | true => simp [Reader.read, raises]
  | false => simp [Reader.read, Reader.filled, Writer.flush, raises]

theorem holdsZeros_byteSum_iff (holds : HoldsZeros (byteSum content) storage output) :
    storage.node output = .file content ↔ content = [] := by
  rcases holds with ⟨count, bounded, held⟩
  rw [held, Node.file.injEq]
  constructor
  · rintro rfl
    rw [byteSum_replicate_zero] at bounded
    rw [Nat.le_zero.1 bounded, List.replicate_zero]
  · rintro rfl
    rw [Nat.le_zero.1 bounded, List.replicate_zero]

variable {sourceFile targetFile : JString}

/-- Once the streams are opened, only an empty content arrives. -/
theorem contentOf_copyLoop_iff {opened : Storage} {fuel : ℕ}
    (named : storage.find sourceFile = some input) (source : storage.node input = .file content)
    (emptied : Emptied storage targetFile opened output) (enough : content.length < fuel) :
    ∃ copied, copyLoop device closeRaises input output fuel opened {} {} = some copied ∧
      (copied.contentOf targetFile = some content ↔ content = []) := by
  have older := Storage.find_lt named
  have atTarget {copied : Storage} (stays : copied.find targetFile = opened.find targetFile) :
      copied.contentOf targetFile = some content ↔ copied.node output = .file content := by
    rw [Storage.contentOf_eq_some_iff, stays, emptied.named]
    simp
  by_cases same : input = output
  · refine ⟨opened, copyLoop_of_empty device closeRaises (by omega) (same ▸ emptied.empty), ?_⟩
    rw [atTarget rfl, emptied.empty, Node.file.injEq, eq_comm]
  · have stays : opened.node input = .file content := by
      rw [emptied.others older same, source]
    have zeroed : Zeroed (byteSum []) opened output {} := ⟨emptied.empty, 0, rfl, rfl⟩
    have reading : Reading content [] {} := rfl
    rcases copyLoop_holdsZeros device closeRaises same stays reading zeroed
      (by simpa using enough) with ⟨copied, ends, holds, changes⟩
    exact ⟨copied, ends, (atTarget (changes.find targetFile)).trans (holdsZeros_byteSum_iff holds)⟩

end Copying

/-- The target gets the content only if there is none, or keeps it if a stream is not opened. -/
theorem contentOf_copy_iff (device : Device) (closeRaises : Bool) (storage : Storage)
    (source target : JString) (content : List UInt8)
    (held : storage.contentOf source = some content) (fuel : ℕ) (enough : content.length < fuel) :
    ∃ copied, copy fuel device closeRaises storage source target = some copied ∧
      (copied.contentOf target = some content ↔
        (Opens device storage target ∧ content = []) ∨
          (¬Opens device storage target ∧ storage.contentOf target = some content)) := by
  rcases Storage.contentOf_eq_some_iff.1 held with ⟨input, named, isFile⟩
  have opening := openInput_eq device named isFile
  rw [copy, opening]
  cases ready : device.opensInput with
  | false =>
      have refused : ¬Opens device storage target := by
        rintro ⟨opens, _⟩
        rw [ready] at opens
        cases opens
      exact ⟨storage, rfl, by simp [refused]⟩
  | true =>
      rcases openOutput_cases device storage target ready with
        ⟨opens, opened, output, done, emptied⟩ | ⟨refused, fails⟩
      · rcases contentOf_copyLoop_iff device closeRaises named isFile emptied enough with
          ⟨copied, ends, arrives⟩
        refine ⟨copied, ?_, by simp [arrives, opens]⟩
        simpa [done] using ends
      · exact ⟨storage, by simp [fails], by simp [refused]⟩

/-- The path of one character leads to a file, and other paths to entries which name none. -/
def singleFile (content : List UInt8) : Storage where
  entry := fun path => if path = [] then none else some path.length
  inode := fun entry => if entry = 1 then some 0 else none
  node := fun _ => .file content
  created := 1
  inode_lt := by
    intro entry found named
    split at named <;> cases named
    decide

theorem opens_singleFile (available : ℕ → ℕ) (content : List UInt8) :
    Opens (.steady available) (singleFile content) [0x62, 0x63] := by
  refine ⟨rfl, rfl, by simp [singleFile], ?_⟩
  intro inode named
  cases named

/-- An empty file is copied. -/
theorem contentOf_copy_empty :
    ∃ copied, copy 1 (.steady fun _ => 1) false (singleFile []) [0x61] [0x62, 0x63] = some copied ∧
      copied.contentOf [0x62, 0x63] = some [] := by
  rcases contentOf_copy_iff (.steady fun _ => 1) false (singleFile []) [0x61] [0x62, 0x63] [] rfl 1
    (by decide) with ⟨copied, ends, arrives⟩
  exact ⟨copied, ends, arrives.2 (Or.inl ⟨opens_singleFile _ _, rfl⟩)⟩

/-- For the byte five, five zeros are written. -/
theorem not_contentOf_copy_five :
    ¬∀ (available : ℕ → ℕ) (storage : Storage) (source target : JString) (content : List UInt8),
      storage.contentOf source = some content → storage.find source ≠ storage.find target →
      Opens (.steady available) storage target → ∀ fuel, content.length < fuel →
      ∃ copied, copy fuel (.steady available) false storage source target = some copied ∧
        copied.contentOf target = some content := by
  intro copies
  rcases copies (fun _ => 1) (singleFile [5]) [0x61] [0x62, 0x63] [5] rfl (by decide)
    (opens_singleFile _ _) 3 (by decide) with ⟨copied, ends, holds⟩
  have written : (copy 3 (.steady fun _ => 1) false (singleFile [5]) [0x61] [0x62, 0x63]).bind
      (fun storage => storage.contentOf [0x62, 0x63]) = some [0, 0, 0, 0, 0] := by
    decide +kernel
  rw [ends, Option.bind_some, holds] at written
  exact absurd written (by decide)

end AndroidCollection.Io.FileUtil
