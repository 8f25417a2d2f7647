import AndroidCollection.Io.CopyFile

/-!
# A copy through channels

`NIOUtil.transfer` opens both files for reading and writing. This creates a file which
is not there, the target as well as the source, and leaves the content of one which is:
nothing ever shortens the target. The channel then puts the bytes of the source over the
first ones of the target, so what the target held behind them stays there.

`transferFrom` is taken to move as many bytes as it is asked for.
-/

namespace AndroidCollection.Io.NIOUtil

open Java FileUtil

/-! ## Channels -/

/-- `new RandomAccessFile(path, "rw")`: the file is created, and not emptied. -/
def openRandom (opens : JString → Bool) (storage : Storage) (path : JString) :
    Option (Storage × Ref) :=
  if opens path then
    match storage.entry path with
    | none => none
    | some entry =>
        match storage.inode entry with
        | none => some (storage.create entry, storage.created)
        | some inode => if (storage.node inode).content.isSome then some (storage, inode) else none
  else
    none

/-- `target.transferFrom(from, position, count)` within the source. -/
def transferFrom (storage : Storage) (target source : Ref) (position count : ℕ) : Storage :=
  storage.write target position ((storage.read source).take count)

def transfer (opens : JString → Bool) (storage : Storage) (targetFilPath fromFilePath : JString) :
    Storage :=
  match openRandom opens storage targetFilPath with
  | none => storage
  | some (opened, targetFile) =>
      match openRandom opens opened fromFilePath with
      | none => opened
      | some (both, fromFile) =>
          transferFrom both targetFile fromFile 0 (both.read fromFile).length

/-! ## The property and its condition -/

/-- The target holds what the source has held, and the source still holds it. -/
def Copied (before after : Storage) (target source : JString) : Prop :=
  after.contentOf target = before.contentOf source ∧
    after.contentOf source = before.contentOf source

/-- A file can be opened at the path: there are directories on the way, but it is none. -/
def Openable (opens : JString → Bool) (storage : Storage) (path : JString) : Prop :=
  opens path = true ∧ storage.entry path ≠ none ∧
    ∀ inode, storage.find path = some inode → storage.node inode ≠ .directory

/-- There is a source, and the target is no longer; or if one of the files cannot be opened, the
target happens to hold the same, perhaps as an empty file which has been created. -/
def Transferable (opens : JString → Bool) (storage : Storage) (target source : JString) : Prop :=
  (Openable opens storage target ∧ Openable opens storage source ∧
      ∃ content, storage.contentOf source = some content ∧
        ∀ old, storage.contentOf target = some old → old.length ≤ content.length) ∨
    (¬(Openable opens storage target ∧ Openable opens storage source) ∧
      (Openable opens storage target ∧ storage.find target = none →
        storage.contentOf source = some []) ∧
      (¬(Openable opens storage target ∧ storage.find target = none) →
        storage.contentOf target = storage.contentOf source))

/-! ## Opening -/

section Opening

variable (opens : JString → Bool) (storage : Storage) {path : JString}

/-- What an opened file is: one which was there, or a new one. -/
inductive Opened (path : JString) : Storage → Ref → Prop where
  | existing {inode content} (found : storage.find path = some inode)
      (holds : storage.node inode = .file content) : Opened path storage inode
  | created {entry} (leads : storage.entry path = some entry)
      (missing : storage.inode entry = none) : Opened path (storage.create entry) storage.created

theorem openRandom_cases (path : JString) :
    (Openable opens storage path ∧ ∃ opened file,
        openRandom opens storage path = some (opened, file) ∧ Opened storage path opened file) ∨
      (¬Openable opens storage path ∧ openRandom opens storage path = none) := by
  by_cases permitted : opens path = true
  · cases leads : storage.entry path with
    | none =>
        right
        simp [Openable, openRandom, leads]
    | some entry =>
        have find : storage.find path = storage.inode entry := by
          rw [Storage.find, leads]
          rfl
        cases found : storage.inode entry with
        | none =>
            left
            refine ⟨⟨permitted, by simp [leads], by simp [find, found]⟩, _, _, ?_,
              .created leads found⟩
            simp [openRandom, permitted, leads, found]
        | some inode =>
            cases holds : storage.node inode with
            | file content =>
                left
                refine ⟨⟨permitted, by simp [leads], ?_⟩, _, _, ?_,
                  .existing (find.trans found) holds⟩
                · simp [find, found, holds]
                · simp [openRandom, permitted, leads, found, holds, Node.content]
            | directory =>
                right
                refine ⟨?_, by simp [openRandom, leads, found, holds, Node.content]⟩
                intro openable
                exact openable.2.2 inode (find.trans found) holds
  · right
    simp [Openable, openRandom, permitted]

end Opening

section Opened

variable {storage opened : Storage} {path other : JString} {file inode : Ref}

/-- The opened file holds what was there, or nothing. -/
theorem Opened.holds (isOpened : Opened storage path opened file) :
    opened.find path = some file ∧
      opened.node file = .file ((storage.contentOf path).getD []) := by
  cases isOpened with
  | existing found holds =>
      have content := Storage.contentOf_eq_some_iff.2 ⟨file, found, holds⟩
      exact ⟨found, by rw [content, holds, Option.getD_some]⟩
  | created leads missing =>
      have absent : storage.find path = none := by
        rw [Storage.find, leads]
        exact missing
      constructor
      · simp [Storage.find, Storage.create, leads]
      · simp [Storage.create, Storage.contentOf, absent]

/-- Files which were there stay as they are. -/
theorem Opened.keeps (isOpened : Opened storage path opened file)
    (found : storage.find other = some inode) :
    opened.find other = some inode ∧ opened.node inode = storage.node inode := by
  cases isOpened with
  | existing _ _ => exact ⟨found, rfl⟩
  | created leads missing =>
      have older := Storage.find_lt found
      rcases Option.bind_eq_some_iff.1 found with ⟨entry, otherLeads, named⟩
      constructor
      · simp only [Storage.find, Storage.create, otherLeads, Option.bind_some, named]
        split
        · next same =>
            rw [same, missing] at named
            cases named
        · rfl
      · simp [Storage.create, older.ne]

theorem Opened.eq_of_find (isOpened : Opened storage path opened file)
    (found : storage.find path = some inode) : opened = storage ∧ file = inode := by
  cases isOpened with
  | existing isFound _ => exact ⟨rfl, Option.some.inj (isFound.symm.trans found)⟩
  | created leads missing =>
      rw [Storage.find, leads, Option.bind_some, missing] at found
      cases found

end Opened

/-! ## The transfer -/

/-- The bytes of the source are put over the beginning of the target. -/
theorem store_zero (old content : List UInt8) :
    Storage.store old 0 content = content ++ old.drop content.length := by
  simp [Storage.store]

theorem store_zero_eq_iff (old content : List UInt8) :
    Storage.store old 0 content = content ↔ old.length ≤ content.length := by
  simp [store_zero]

section Transfer

variable {storage opened both : Storage} {target source : JString} {targetFile fromFile : Ref}

/-- What a path leads to after the whole of the source has been moved. -/
theorem contentOf_transferFrom {path : JString} {file : Ref} {old content held : List UInt8}
    (leads : both.find path = some file) (holds : both.node file = .file held)
    (before : both.node targetFile = .file old) (given : both.node fromFile = .file content) :
    (transferFrom both targetFile fromFile 0 (both.read fromFile).length).contentOf path =
      some (if file = targetFile then Storage.store old 0 content else held) := by
  have moved : transferFrom both targetFile fromFile 0 (both.read fromFile).length =
      both.put targetFile (Storage.store old 0 content) := by
    rw [transferFrom, Storage.write, Storage.read_eq before, Storage.read_eq given,
      List.take_length]
  rw [moved, Storage.contentOf_eq_some_iff]
  refine ⟨file, leads, ?_⟩
  rw [Storage.node_put]
  split
  · rfl
  · exact holds

/-- The source was there, and has not been created. -/
theorem copied_of_held {content : List UInt8} (first : Opened storage target opened targetFile)
    (second : Opened opened source both fromFile)
    (held : storage.contentOf source = some content) :
    Copied storage (transferFrom both targetFile fromFile 0 (both.read fromFile).length) target
        source ↔
      ∀ old, storage.contentOf target = some old → old.length ≤ content.length := by
  rcases Storage.contentOf_eq_some_iff.1 held with ⟨inode, found, holds⟩
  rcases first.keeps found with ⟨stays, same⟩
  rcases second.eq_of_find stays with ⟨rfl, rfl⟩
  rcases first.holds with ⟨leads, before⟩
  have given : both.node fromFile = .file content := by rw [same, holds]
  have atTarget := contentOf_transferFrom leads before before given
  have atSource := contentOf_transferFrom stays given before given
  rw [if_pos rfl] at atTarget
  have shorter : (∀ old, storage.contentOf target = some old → old.length ≤ content.length) ↔
      ((storage.contentOf target).getD []).length ≤ content.length := by
    cases storage.contentOf target <;> simp
  rw [shorter, ← store_zero_eq_iff, Copied, held, atTarget, atSource, Option.some.injEq,
    Option.some.injEq]
  constructor
  · exact And.left
  · intro whole
    refine ⟨whole, ?_⟩
    rw [whole, ite_self]

/-- A source which is not there is created. -/
theorem not_copied_of_missing (first : Opened storage target opened targetFile)
    (second : Opened opened source both fromFile) (missing : storage.contentOf source = none) :
    ¬Copied storage (transferFrom both targetFile fromFile 0 (both.read fromFile).length) target
      source := by
  rintro ⟨_, unchanged⟩
  rcases first.holds with ⟨leads, old⟩
  rcases second.holds with ⟨created, given⟩
  have before := (second.keeps leads).2.trans old
  rw [contentOf_transferFrom created given before given, missing] at unchanged
  cases unchanged

/-- Opening the target makes no difference to whether the source can be opened. -/
theorem openable_iff (first : Opened storage target opened targetFile) (opens : JString → Bool)
    (path : JString) : Openable opens opened path ↔ Openable opens storage path := by
  have older {inode : Ref} (found : storage.find path = some inode) := first.keeps found
  cases first with
  | existing _ _ => exact Iff.rfl
  | @created entry leads missing =>
      apply and_congr_right
      intro _
      apply and_congr_right
      intro _
      constructor
      · intro files inode found directory
        rcases older found with ⟨stays, same⟩
        exact files inode stays (same.trans directory)
      · intro files inode found directory
        cases named : storage.find path with
        | some known =>
            rcases older named with ⟨stays, same⟩
            rw [stays, Option.some.injEq] at found
            rw [← found] at directory
            exact files known named (same.symm.trans directory)
        | none =>
            -- the entry has been created, and names an empty file
            rcases Option.bind_eq_some_iff.1 found with ⟨other, otherLeads, otherNamed⟩
            have otherEntry : storage.entry path = some other := otherLeads
            rw [Storage.find, otherEntry, Option.bind_some] at named
            simp only [Storage.create, named] at otherNamed directory
            split at otherNamed <;> cases otherNamed
            simp at directory

/-- Only the target has been opened. -/
theorem copied_opened_iff (first : Opened storage target opened targetFile) :
    Copied storage opened target source ↔
      (storage.find target = none → storage.contentOf source = some []) ∧
        (storage.find target ≠ none → storage.contentOf target = storage.contentOf source) := by
  cases first with
  | existing found holds => simp [Copied, found]
  | created leads missing =>
      have absent : storage.find target = none := by
        rw [Storage.find, leads]
        exact missing
      have isOpened := Opened.created leads missing
      have held : storage.contentOf target = none := by
        rw [Storage.contentOf, absent]
        rfl
      rcases isOpened.holds with ⟨named, empty⟩
      rw [held] at empty
      have atTarget := Storage.contentOf_eq_some_iff.2 ⟨_, named, empty⟩
      rw [Copied, atTarget]
      simp only [absent, Option.getD_none, true_implies, ne_eq, not_true_eq_false, false_implies,
        and_true]
      constructor
      · rintro ⟨same, _⟩
        exact same.symm
      · intro source
        refine ⟨source.symm, ?_⟩
        rcases Storage.contentOf_eq_some_iff.1 source with ⟨inode, found, holds⟩
        rcases isOpened.keeps found with ⟨stays, same⟩
        rw [source]
        exact Storage.contentOf_eq_some_iff.2 ⟨inode, stays, same.trans holds⟩

end Transfer

/-- The target gets what the source holds exactly if it has not been longer. -/
theorem copied_transfer_iff (opens : JString → Bool) (storage : Storage)
    (target source : JString) :
    Copied storage (transfer opens storage target source) target source ↔
      Transferable opens storage target source := by
  rw [transfer, Transferable]
  rcases openRandom_cases opens storage target with
    ⟨openable, opened, targetFile, done, first⟩ | ⟨refused, fails⟩
  · rw [done]
    have sourceOpenable := openable_iff first opens source
    rcases openRandom_cases opens opened source with
      ⟨other, both, fromFile, doneToo, second⟩ | ⟨refused, fails⟩
    · have both := sourceOpenable.1 other
      simp only [doneToo, openable, both, and_self, not_true_eq_false, false_and, or_false,
        true_and]
      cases held : storage.contentOf source with
      | none => simpa using not_copied_of_missing first second held
      | some content => simpa using copied_of_held first second held
    · have refused := mt sourceOpenable.2 refused
      simp only [fails, openable, refused, and_false, false_and, not_false_eq_true, true_and,
        false_or]
      exact copied_opened_iff first
  · simp [fails, refused, Copied]

/-- Two files, which paths name by their lengths. -/
def twoFiles (first second : List UInt8) : Storage where
  entry := fun path => some path.length
  inode := fun entry => if entry < 2 then some entry else none
  node := fun inode => if inode = 0 then .file first else .file second
  created := 2
  inode_lt := by
    intro entry found named
    split at named <;> cases named
    assumption

theorem openable_twoFiles (first second : List UInt8) (path : JString) :
    Openable (fun _ => true) (twoFiles first second) path := by
  refine ⟨rfl, Option.some_ne_none _, ?_⟩
  intro inode _
  simp only [twoFiles]
  split <;> exact Node.noConfusion

/-- Two bytes are put over the first of three. -/
theorem not_copied_transfer_longer :
    ¬∀ (opens : JString → Bool) (storage : Storage) (target source : JString),
      Openable opens storage target → Openable opens storage source →
      ∀ content, storage.contentOf source = some content →
        Copied storage (transfer opens storage target source) target source := by
  intro copies
  have copied := copies (fun _ => true) (twoFiles [1, 2] [7, 8, 9]) [0x61] []
    (openable_twoFiles _ _ _) (openable_twoFiles _ _ _) [1, 2] rfl
  exact absurd copied.1 (by decide)

end AndroidCollection.Io.NIOUtil
