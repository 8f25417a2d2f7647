import AndroidCollection.Io.ShareMemoryFile

/-!
# When the mapped file is a bounded memory

Reads always behave as those of a bounded memory. A write differs from one in
three ways: it stores the buffer rather than its first `len` bytes, it refuses
a range which ends with the file, and a sum which leaves the range of `int`
passes its test. `Suits` collects the writes on which none of this shows.
-/

namespace AndroidCollection.Io.ShareMemoryFile

open Java Overwrite

variable {file : ShareMemoryFile} {ps len : Int32} {bytes : List UInt8}

/-! ## What one call does -/

/-- The writes which reach the mapped buffer and fit it. -/
def Stores (file : ShareMemoryFile) (ps len : Int32) (bytes : List UInt8) : Prop :=
  0 ≤ ps.toInt ∧ ps.toInt < file.mFileSize ∧ 0 ≤ len.toInt ∧
    (ps + len).toInt < file.mFileSize ∧ ps.toInt + bytes.length ≤ file.mFileSize

theorem write_of_stores (stores : Stores file ps len bytes) :
    ((file.write ps len (some bytes)).1.mapBuf =
        overwrite file.mapBuf ps.toInt.toNat bytes) ∧
      (file.write ps len (some bytes)).1.mFileSize = file.mFileSize ∧
      (file.write ps len (some bytes)).2 = len := by
  rcases stores with ⟨psNonneg, psBelow, lenNonneg, sumBelow, fits⟩
  have guard : ¬((file.mFileSize : ℤ) ≤ ps.toInt ∨ (file.mFileSize : ℤ) ≤ (ps + len).toInt) := by
    omega
  have locked : lock ps.toInt len.toInt = .ok () := if_neg (by omega)
  have positioned : file.position ps.toInt = .ok ps.toInt.toNat := if_neg (by omega)
  have room : ¬file.mFileSize - ps.toInt.toNat < bytes.length := by omega
  simp only [write, if_neg guard, locked, positioned, wrap, put, ok_bind, if_neg room]
  exact ⟨rfl, rfl, rfl⟩

theorem write_of_not_stores (refused : ¬Stores file ps len bytes) :
    file.write ps len (some bytes) = (file, 0) := by
  simp only [write]
  split
  · rfl
  · next guard =>
      by_cases negative : ps.toInt < 0 ∨ len.toInt < 0
      · have locked : lock ps.toInt len.toInt = .error .illegalArgumentException :=
          if_pos negative
        rw [locked]
        rfl
      · have locked : lock ps.toInt len.toInt = .ok () := if_neg negative
        have positioned : file.position ps.toInt = .ok ps.toInt.toNat := if_neg (by omega)
        have full : file.mFileSize - ps.toInt.toNat < bytes.length := by
          by_contra room
          exact refused ⟨by omega, by omega, by omega, by omega, by omega⟩
        simp only [locked, positioned, wrap, put, ok_bind, if_pos full, error_bind]

theorem write_none : file.write ps len none = (file, 0) := by
  simp only [write]
  split
  · rfl
  · cases lock ps.toInt len.toInt with
    | error exception => rfl
    | ok _ =>
        cases file.position ps.toInt with
        | error exception => rfl
        | ok start => rfl

/-- A read in bounds copies the requested bytes of the file. -/
theorem read_of_inBounds (bounded : InBounds file.mFileSize ps len bytes) :
    file.read ps len (some bytes) =
      (len, some (overwrite bytes 0
        ((file.mapBuf.drop ps.toInt.toNat).take len.toInt.toNat))) := by
  rcases bounded with ⟨psNonneg, lenNonneg, lenBuffer, sumBound⟩
  by_cases atEnd : (file.mFileSize : ℤ) ≤ ps.toInt
  · have none : len = 0 := Int32.toInt_inj.mp (by rw [Int32.toInt_zero]; omega)
    subst none
    simp [read, if_pos atEnd]
  · have locked : lock ps.toInt len.toInt = .ok () := if_neg (by omega)
    have positioned : file.position ps.toInt = .ok ps.toInt.toNat := if_neg (by omega)
    have remaining : ¬((file.mFileSize - ps.toInt.toNat : ℕ) : ℤ) < len.toInt := by omega
    have room : ¬bytes.length < len.toInt.toNat := by omega
    simp only [read, if_neg atEnd, locked, positioned, ok_bind, if_neg remaining]
    by_cases some : 0 < len.toInt
    · simp only [if_pos some, get, if_neg room, ok_bind]
      rfl
    · have zero : len = 0 := Int32.toInt_inj.mp (by rw [Int32.toInt_zero]; omega)
      subst zero
      simp [pure, Except.pure]

theorem mFileSize_react (file : ShareMemoryFile) (request : Request) :
    (react file request).1.mFileSize = file.mFileSize := by
  rcases request with ⟨ps, len, _ | bytes⟩ | _
  · simp [react, write_none]
  · by_cases stores : Stores file ps len bytes
    · exact (write_of_stores stores).2.1
    · simp [react, write_of_not_stores stores]
  · rfl

/-- The sum of two non-negative numbers passes the test below the size also when it overflows. -/
theorem toInt_add_lt_iff {size : ℕ} (addressable : size < 2147483648) (psNonneg : 0 ≤ ps.toInt)
    (lenNonneg : 0 ≤ len.toInt) :
    (ps + len).toInt < size ↔
      ps.toInt + len.toInt < size ∨ 2147483648 ≤ ps.toInt + len.toInt := by
  have psBound := ps.toInt_lt
  have lenBound := len.toInt_lt
  rw [Int32.toInt_add, Int.bmod_def]
  split <;> omega

/-! ## The condition -/

/-- The requests on which the file behaves as a bounded memory. A write in bounds must end before
the end of the file and fit it with its whole buffer, whose surplus bytes the file already holds;
or it is empty and does nothing. A write with too short a buffer must not be stored. -/
def Suits (file : ShareMemoryFile) : Request → Prop
  | .write ps len (some bytes) =>
      (InBounds file.mFileSize ps len bytes →
        (ps.toInt + len.toInt < file.mFileSize ∧
            ps.toInt + bytes.length ≤ file.mFileSize ∧
            ∀ i, len.toInt.toNat ≤ i → i < bytes.length →
              bytes[i]? = file.mapBuf[ps.toInt.toNat + i]?) ∨
          len.toInt = 0 ∧
            (ps.toInt = file.mFileSize ∨ file.mFileSize < ps.toInt + bytes.length)) ∧
        ¬(0 ≤ ps.toInt ∧ ps.toInt < file.mFileSize ∧ bytes.length < len.toInt ∧
          (ps.toInt + len.toInt < file.mFileSize ∨ 2147483648 ≤ ps.toInt + len.toInt) ∧
          ps.toInt + bytes.length ≤ file.mFileSize)
  | .write _ _ none => True
  | .read _ _ _ => True

/-- One request is answered as by a bounded memory with the contents of the file. -/
def StepBehaves (file : ShareMemoryFile) (request : Request) : Prop :=
  Answers file.mapBuf request (react file request).2 ∧
    (react file request).1.mapBuf = memoryAfter file.mapBuf [request]

theorem memoryAfter_write (contents : List UInt8) (ps len : Int32) (bytes : List UInt8) :
    memoryAfter contents [.write ps len (some bytes)] =
      if InBounds contents.length ps len bytes then
        overwrite contents ps.toInt.toNat (bytes.take len.toInt.toNat)
      else contents := by
  by_cases bounded : InBounds contents.length ps len bytes
  · simp [memoryAfter, acceptedStore, bounded, overwriteAll]
  · simp [memoryAfter, acceptedStore, bounded, overwriteAll]

theorem stepBehaves_write_of_stores (stores : Stores file ps len bytes) :
    StepBehaves file (.write ps len (some bytes)) ↔ Suits file (.write ps len (some bytes)) := by
  rcases write_of_stores stores with ⟨stored, -, returned⟩
  rcases stores with ⟨psNonneg, psBelow, lenNonneg, sumBelow, fits⟩
  rw [toInt_add_lt_iff file.mFileSize_lt psNonneg lenNonneg] at sumBelow
  simp only [StepBehaves, Answers, react, memoryAfter_write, stored, returned, file.length_mapBuf,
    Suits]
  by_cases bounded : InBounds file.mFileSize ps len bytes
  · have lenBuffer := bounded.2.2.1
    have sumBound := bounded.2.2.2
    have addressable := file.mFileSize_lt
    rw [if_pos bounded, if_pos bounded, overwrite_eq_overwrite_take_iff (by
      rw [file.length_mapBuf]
      omega)]
    constructor
    · rintro ⟨-, surplus⟩
      exact ⟨fun _ => Or.inl ⟨by omega, fits, surplus⟩, by omega⟩
    · rintro ⟨within, -⟩
      refine ⟨rfl, ?_⟩
      rcases within bounded with ⟨-, -, surplus⟩ | ⟨-, atEnd | tooLong⟩
      · exact surplus
      · omega
      · omega
  · have short : (bytes.length : ℤ) < len.toInt := by
      by_contra long
      exact bounded ⟨psNonneg, lenNonneg, by omega, by omega⟩
    rw [if_neg bounded]
    constructor
    · rintro ⟨zero, -⟩
      rw [zero, Int32.toInt_zero] at short
      omega
    · rintro ⟨-, refused⟩
      exact absurd ⟨psNonneg, psBelow, short, sumBelow, fits⟩ refused

theorem stepBehaves_write_of_not_stores (refused : ¬Stores file ps len bytes) :
    StepBehaves file (.write ps len (some bytes)) ↔ Suits file (.write ps len (some bytes)) := by
  simp only [StepBehaves, Answers, react, memoryAfter_write, write_of_not_stores refused,
    file.length_mapBuf, Suits]
  have addressable := file.mFileSize_lt
  by_cases bounded : InBounds file.mFileSize ps len bytes
  · rcases id bounded with ⟨psNonneg, lenNonneg, lenBuffer, sumBound⟩
    rw [if_pos bounded, if_pos bounded]
    have refusal : ¬(ps.toInt < file.mFileSize ∧ ps.toInt + len.toInt < file.mFileSize ∧
        ps.toInt + bytes.length ≤ file.mFileSize) := by
      rintro ⟨psBelow, sumBelow, fits⟩
      exact refused ⟨psNonneg, psBelow, lenNonneg,
        (toInt_add_lt_iff file.mFileSize_lt psNonneg lenNonneg).mpr (Or.inl sumBelow), fits⟩
    constructor
    · rintro ⟨zero, -⟩
      rw [← zero, Int32.toInt_zero] at refusal sumBound
      rw [← zero, Int32.toInt_zero]
      exact ⟨fun _ => Or.inr ⟨rfl, by omega⟩, by omega⟩
    · rintro ⟨within, -⟩
      rcases within bounded with ⟨sumBelow, fits, -⟩ | ⟨zero, -⟩
      · exact absurd ⟨by omega, sumBelow, fits⟩ refusal
      · refine ⟨Int32.toInt_inj.mp (by rw [zero, Int32.toInt_zero]), ?_⟩
        rw [zero]
        simp
  · rw [if_neg bounded]
    refine ⟨fun _ => ⟨fun contrary => absurd contrary bounded, ?_⟩, fun _ => ?_⟩
    swap
    · simp [bounded]
    rintro ⟨psNonneg, psBelow, short, sumBelow, fits⟩
    exact refused ⟨psNonneg, psBelow, by omega,
      (toInt_add_lt_iff file.mFileSize_lt psNonneg (by omega)).mpr sumBelow, fits⟩

theorem stepBehaves_iff (file : ShareMemoryFile) (request : Request) :
    StepBehaves file request ↔ Suits file request := by
  rcases request with ⟨ps, len, _ | bytes⟩ | ⟨ps, len, _ | bytes⟩
  · simp [StepBehaves, Answers, react, write_none, memoryAfter, acceptedStore, overwriteAll, Suits]
  · by_cases stores : Stores file ps len bytes
    · exact stepBehaves_write_of_stores stores
    · exact stepBehaves_write_of_not_stores stores
  · simp [StepBehaves, Answers, react, memoryAfter, acceptedStore, overwriteAll, Suits]
  · simp only [StepBehaves, Answers, react, memoryAfter, acceptedStore, overwriteAll, Suits,
      file.length_mapBuf, List.flatMap_cons, List.flatMap_nil, List.append_nil, List.foldl_nil,
      and_true, iff_true]
    intro bounded
    simp [read_of_inBounds bounded]

/-! ## Runs -/

theorem memoryAfter_append (file : ShareMemoryFile) (done : List Request) (request : Request)
    (same : (Machine.after react file done).mapBuf = memoryAfter file.mapBuf done) :
    memoryAfter (Machine.after react file done).mapBuf [request] =
      memoryAfter file.mapBuf (done ++ [request]) := by
  have size : (Machine.after react file done).mapBuf.length = file.mapBuf.length := by
    rw [length_mapBuf, length_mapBuf]
    exact Machine.after_invariant (fun other => other.mFileSize = file.mFileSize)
      (fun state input invariant => (mFileSize_react state input).trans invariant) rfl done
  have contents := same
  simp only [memoryAfter] at contents ⊢
  rw [size, contents]
  simp [overwriteAll]

/-- Along a run on which every step behaves, the file holds the memory of the run. -/
theorem mapBuf_after {requests : List Request}
    (every : Machine.Every react StepBehaves file requests) :
    (Machine.after react file requests).mapBuf = memoryAfter file.mapBuf requests := by
  induction requests using List.reverseRecOn with
  | nil => rfl
  | append_singleton done request ih =>
      rw [Machine.every_append, Machine.every_cons] at every
      rw [← memoryAfter_append file done request (ih every.1), Machine.after_append]
      exact every.2.1.2

theorem behavesAsMemory_iff_every (file : ShareMemoryFile) (requests : List Request) :
    BehavesAsMemory file requests ↔ Machine.Every react StepBehaves file requests := by
  constructor
  · intro behaves
    induction requests using List.reverseRecOn with
    | nil => exact Machine.every_nil file
    | append_singleton done request ih =>
        have earlier : Machine.Every react StepBehaves file done := by
          apply ih
          intro before next rest split
          exact behaves before next (rest ++ [request]) (by rw [split]; simp)
        rw [Machine.every_append, Machine.every_cons]
        rcases behaves done request [] rfl with ⟨answered, contents⟩
        refine ⟨earlier, ⟨?_, ?_⟩, Machine.every_nil _⟩
        · rw [mapBuf_after earlier]
          exact answered
        · rw [memoryAfter_append file done request (mapBuf_after earlier), ← contents,
            Machine.after_append]
          rfl
  · rintro every done request rest rfl
    rw [Machine.every_append, Machine.every_cons] at every
    refine ⟨?_, ?_⟩
    · rw [← mapBuf_after every.1]
      exact every.2.1.1
    · apply mapBuf_after
      rw [Machine.every_append, Machine.every_cons]
      exact ⟨every.1, every.2.1, Machine.every_nil _⟩

/-- A run behaves as one of a bounded byte memory exactly when each of its requests suits the
file in the state before it. -/
theorem behavesAsMemory_iff (file : ShareMemoryFile) (requests : List Request) :
    BehavesAsMemory file requests ↔ Machine.Every react Suits file requests := by
  rw [behavesAsMemory_iff_every]
  exact Machine.every_iff_of_invariant (fun _ => True)
    (fun state input _ => stepBehaves_iff state input) (fun _ _ _ _ => trivial) trivial requests

/-- A position of the memory holds the byte last written there, or else its initial byte. -/
theorem getElem?_memoryAfter (contents : List UInt8) (done : List Request) (position : ℕ) :
    (memoryAfter contents done)[position]? =
      (lastWrite (done.flatMap (acceptedStore contents.length)) position).or
        contents[position]? := by
  apply getElem?_overwriteAll
  intro store storeMem
  rcases List.mem_flatMap.mp storeMem with ⟨request, -, accepted⟩
  rcases request with ⟨ps, len, _ | bytes⟩ | _
  · simp [acceptedStore] at accepted
  · simp only [acceptedStore] at accepted
    split at accepted
    · next bounded =>
        rcases bounded with ⟨psNonneg, lenNonneg, lenBuffer, sumBound⟩
        rw [List.mem_singleton.mp accepted, List.length_take]
        omega
    · simp at accepted
  · simp [acceptedStore] at accepted

/-- The empty file, filled up by the constructor. -/
def zeroFile : ShareMemoryFile :=
  create [] (by simp)

theorem not_behavesAsMemory_of_not_suits {request : Request} (fails : ¬Suits file request) :
    ¬BehavesAsMemory file [request] := by
  rw [behavesAsMemory_iff_every, Machine.every_cons, stepBehaves_iff]
  exact fun behaves => fails behaves.1

/-- The last byte of the file cannot be written, and a buffer of two bytes is stored whole. -/
theorem zeroFile_not_behavesAsMemory :
    ¬BehavesAsMemory zeroFile [.write 4931583 1 (some [1])] ∧
      ¬BehavesAsMemory zeroFile [.write 0 1 (some [1, 2])] := by
  have last : (4931583 : Int32).toInt = 4931583 := by decide
  have one : (1 : Int32).toInt = 1 := by decide
  have zero : (0 : Int32).toInt = 0 := by decide
  have size : zeroFile.mFileSize = 4931584 := by decide
  constructor
  · apply not_behavesAsMemory_of_not_suits
    rintro ⟨within, -⟩
    rcases within ⟨by omega, by omega, by rw [one]; decide, by omega⟩ with ⟨below, -⟩ | ⟨none, -⟩
    · omega
    · omega
  · apply not_behavesAsMemory_of_not_suits
    rintro ⟨within, -⟩
    rcases within ⟨by omega, by omega, by rw [one]; decide, by omega⟩ with
      ⟨-, -, surplus⟩ | ⟨none, -⟩
    · have second := surplus 1 (by rw [one]; decide) (by decide)
      have zeros : zeroFile.mapBuf = List.replicate mFileLen 0 := List.nil_append _
      rw [zero, Int.toNat_zero, Nat.zero_add, zeros,
        List.getElem?_replicate_of_lt (by decide)] at second
      simp at second
    · omega

end AndroidCollection.Io.ShareMemoryFile
