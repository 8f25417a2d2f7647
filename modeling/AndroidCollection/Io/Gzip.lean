import Mathlib.Data.List.Infix
import Mathlib.Tactic.Common

/-!
# Compression to a byte array

`compress` takes the bytes out of the array while the stream which compresses is
still open, so its end is missing, whatever the data. `decompress` runs into the
missing end and answers with no bytes at all. The streams of `java.util.zip` and
the copying of the library are parameters: what has been written to an open
stream is a proper part of what will be there when it is closed, and reading
such a part ends with an exception.
-/

namespace AndroidCollection.Io.Gzip

/-- `IOUtil.copy`, which writes its input in blocks, and then flushes without closing. -/
structure IOUtil where
  blocks : List UInt8 → List (List UInt8)
  whole : ∀ bytes, (blocks bytes).flatten = bytes

/-- A `GZIPOutputStream` over a byte array, and what reading a `GZIPInputStream` to its end gives,
which is nothing when there is an `IOException`. -/
structure GzipLibrary (σ : Type) where
  openStream : σ
  write : σ → List UInt8 → σ
  flush : σ → σ
  /-- `toByteArray()` while the stream is open. -/
  array : σ → List UInt8
  /-- `toByteArray()` after the stream has been finished or closed. -/
  finish : σ → List UInt8
  inflate : List UInt8 → Option (List UInt8)

def IOUtil.copy (util : IOUtil) {τ : Type} (write : τ → List UInt8 → τ) (flush : τ → τ)
    (input : List UInt8) (out : τ) : τ :=
  flush ((util.blocks input).foldl write out)

variable {σ : Type} (util : IOUtil) (library : GzipLibrary σ)

def compress (source : List UInt8) : List UInt8 :=
  library.array (util.copy library.write library.flush source library.openStream)

def decompress (source : List UInt8) : List UInt8 :=
  match library.inflate source with
  | none => []
  | some bytes => util.copy (fun array block => array ++ block) id bytes []

/-! ## What is relied on -/

/-- A stream which is still open, and the bytes which it has been given. -/
inductive Open : σ → List UInt8 → Prop
  | openStream : Open library.openStream []
  | write {stream bytes} (more : List UInt8) : Open stream bytes →
      Open (library.write stream more) (bytes ++ more)
  | flush {stream bytes} : Open stream bytes → Open (library.flush stream) bytes

structure GzipLibrary.Lawful : Prop where
  inflates : ∀ {stream bytes}, Open library stream bytes →
    library.inflate (library.finish stream) = some bytes
  /-- Only finishing writes the end. -/
  unfinished : ∀ {stream bytes}, Open library stream bytes →
    library.array stream <+: library.finish stream ∧ library.array stream ≠ library.finish stream
  /-- The end is missed. -/
  endsEarly : ∀ {stream bytes part}, Open library stream bytes → part <+: library.finish stream →
    part ≠ library.finish stream → library.inflate part = none

section Calls

theorem open_copy (source : List UInt8) :
    Open library (util.copy library.write library.flush source library.openStream) source := by
  have blocks {stream : σ} {bytes : List UInt8} (isOpen : Open library stream bytes)
      (more : List (List UInt8)) :
      Open library (more.foldl library.write stream) (bytes ++ more.flatten) := by
    induction more generalizing stream bytes with
    | nil => rwa [List.flatten_nil, List.append_nil]
    | cons block more ih =>
        rw [List.flatten_cons, ← List.append_assoc]
        exact ih (isOpen.write block)
  have written := blocks Open.openStream (util.blocks source)
  rw [util.whole, List.nil_append] at written
  exact written.flush

variable {util library}

/-- The result of `compress` is never a whole stream. -/
theorem decompress_compress (lawful : library.Lawful) (source : List UInt8) :
    decompress util library (compress util library source) = [] := by
  have isOpen := open_copy util library source
  rcases lawful.unfinished isOpen with ⟨part, notAll⟩
  unfold decompress compress
  rw [lawful.endsEarly isOpen part notAll]

/-- With the stream finished, the data would have come back. -/
theorem decompress_finish (lawful : library.Lawful) {stream : σ} {bytes : List UInt8}
    (isOpen : Open library stream bytes) :
    decompress util library (library.finish stream) = bytes := by
  have appended (blocks : List (List UInt8)) (array : List UInt8) :
      blocks.foldl (fun array block => array ++ block) array = array ++ blocks.flatten := by
    induction blocks generalizing array with
    | nil => rw [List.foldl_nil, List.flatten_nil, List.append_nil]
    | cons block blocks ih =>
        rw [List.foldl_cons, ih, List.flatten_cons, List.append_assoc]
  unfold decompress IOUtil.copy
  rw [lawful.inflates isOpen]
  simp only
  rw [appended, util.whole, List.nil_append, id]

theorem gzip_round_trips_iff (lawful : library.Lawful) (source : List UInt8) :
    decompress util library (compress util library source) = source ↔ source = [] := by
  rw [decompress_compress lawful]
  exact eq_comm

end Calls

/-! ## A library which stores the data -/

def header : List UInt8 :=
  [0x1F, 0x8B, 8, 0, 0, 0, 0, 0, 0, 0]

/-- Each byte is announced, and so is the end. -/
def stored (bytes : List UInt8) : List UInt8 :=
  bytes.flatMap (fun byte => [1, byte]) ++ [0]

def readStored : List UInt8 → Option (List UInt8)
  | [0] => some []
  | 1 :: byte :: rest => (readStored rest).map fun bytes => byte :: bytes
  | _ => none

/-- Keeps the data, and has written just the header before it is finished. -/
def storing : GzipLibrary (List UInt8) where
  openStream := []
  write stream more := stream ++ more
  flush stream := stream
  array _ := header
  finish stream := header ++ stored stream
  inflate stream := if header <+: stream then readStored (stream.drop header.length) else none

theorem readStored_stored (bytes : List UInt8) : readStored (stored bytes) = some bytes := by
  induction bytes with
  | nil => rfl
  | cons byte bytes ih =>
      change (readStored (stored bytes)).map (fun bytes => byte :: bytes) = _
      rw [ih]
      rfl

theorem readStored_part {bytes part : List UInt8} (isPart : part <+: stored bytes)
    (notAll : part ≠ stored bytes) : readStored part = none := by
  induction bytes generalizing part with
  | nil =>
      change part <+: [0] at isPart
      rcases List.prefix_cons_iff.1 isPart with rfl | ⟨rest, rfl, isRest⟩
      · rfl
      · rw [List.prefix_nil.1 isRest] at notAll
        exact absurd rfl notAll
  | cons byte bytes ih =>
      change part <+: 1 :: byte :: stored bytes at isPart
      rcases List.prefix_cons_iff.1 isPart with rfl | ⟨tail, rfl, announced⟩
      · rfl
      · rcases List.prefix_cons_iff.1 announced with rfl | ⟨rest, rfl, isRest⟩
        · rfl
        · have shorter : rest ≠ stored bytes := by
            rintro rfl
            exact notAll rfl
          rw [readStored, ih isRest shorter]
          rfl

theorem storing_open {stream bytes : List UInt8} (isOpen : Open storing stream bytes) :
    stream = bytes := by
  induction isOpen with
  | openStream => rfl
  | write more _ ih => rw [ih]; rfl
  | flush _ ih => exact ih

theorem storing_lawful : storing.Lawful := by
  constructor
  · intro stream bytes isOpen
    rw [storing_open isOpen]
    change (if header <+: header ++ stored bytes then
      readStored ((header ++ stored bytes).drop header.length) else none) = some bytes
    rw [if_pos (List.prefix_append _ _), List.drop_left, readStored_stored]
  · intro stream bytes isOpen
    refine ⟨List.prefix_append _ _, ?_⟩
    intro same
    have lengths := congrArg List.length same
    change header.length = (header ++ (stream.flatMap (fun byte => [1, byte]) ++ [0])).length
      at lengths
    rw [List.length_append, List.length_append, List.length_singleton] at lengths
    omega
  · intro stream bytes part isOpen isPart notAll
    change (if header <+: part then readStored (part.drop header.length) else none) = none
    split
    · next starts =>
        rcases starts with ⟨rest, rfl⟩
        change header ++ rest <+: header ++ stored stream at isPart
        rw [List.drop_left]
        apply readStored_part ((List.prefix_append_right_inj header).1 isPart)
        rintro rfl
        exact notAll rfl
    · rfl

/-- Copies everything in one block. -/
def oneBlock : IOUtil where
  blocks bytes := [bytes]
  whole bytes := by rw [List.flatten_singleton]

theorem gzip_round_trips_empty :
    decompress oneBlock storing (compress oneBlock storing []) = [] :=
  (gzip_round_trips_iff storing_lawful []).2 rfl

theorem gzip_does_not_round_trip :
    ¬∀ (util : IOUtil) (σ : Type) (library : GzipLibrary σ), library.Lawful →
      ∀ source, decompress util library (compress util library source) = source := by
  intro always
  have same := always oneBlock _ storing storing_lawful [1]
  revert same
  decide

end AndroidCollection.Io.Gzip
