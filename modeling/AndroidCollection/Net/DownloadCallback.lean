import AndroidCollection.Java.Text
import Mathlib.Data.List.Chain

/-!
# The progress of a download

`DownloadCallback` saves the body of a response to a file and reports the
progress in percent whenever it has changed. The bytes received are counted in an
`int`, which overflows at 2^31, and are divided by the announced length, which is
-1 if it is not known. So the progress is negative as soon as something is received
of a body of unknown length, and it goes down again when the count overflows.

The quotient is calculated exactly. Of the body and the file only the lengths of
the chunks matter, and what the calls on them raise. The listener does not raise.
-/

namespace AndroidCollection.Net

open Java

namespace DownloadCallback

def BUFFER_SIZE : ℕ :=
  4096

/-! ## The callback -/

inductive Exception where
  /-- Made by the callback. -/
  | ioException (message : JString)
  /-- Raised by a call. -/
  | raised (exception : Ref)
deriving DecidableEq

/-- The calls of the methods of `DownloadListener`. -/
inductive ListenerCall where
  | process (process : ℤ)
  | success (path : Option JString)
  | failure (e : Exception)
deriving DecidableEq

/-- What one `read` puts into the buffer. -/
structure Chunk where
  len : ℕ
  len_pos : 0 < len
  len_le : len ≤ BUFFER_SIZE

/-- How the loop over the body ends. -/
inductive Ending where
  /-- The end of the body is found. Flushing the file may raise. -/
  | finished (flush : Option Ref)
  | unreadable (exception : Ref)
  /-- A further chunk is read, but cannot be written. -/
  | unwritable (chunk : Chunk) (exception : Ref)

inductive Transfer where
  /-- The file or the body cannot be opened. -/
  | unopened (exception : Ref)
  | opened (chunks : List Chunk) (ending : Ending)

structure Response where
  isSuccessful : Bool
  /-- `response.toString()`. -/
  text : JString
  contentLength : ℤ
  transfer : Transfer
  contentLength_ge : -1 ≤ contentLength

end DownloadCallback

structure DownloadCallback where
  saveFilePath : Option JString
  mDownloadListener : Option Ref

namespace DownloadCallback

/-- A number which is cast to `int`. -/
def saturate (value : ℤ) : ℤ :=
  max (-2147483648) (min 2147483647 value)

/-- `(int) ((downloadTotal * 1.0f / contentLength * 1.0f) * 100)`. An infinite quotient is cast to
an end of the range, and the quotient of two zeros to zero. -/
def progress (downloadTotal : Int32) (contentLength : ℤ) : ℤ :=
  if contentLength = 0 then saturate (downloadTotal.toInt.sign * 2147483648)
  else saturate ((downloadTotal.toInt * 100).tdiv contentLength)

/-- The values which the loop over the body passes to `process`. -/
def receive (contentLength tempProcess : ℤ) (downloadTotal : Int32) : List Chunk → List ℤ
  | [] => []
  | chunk :: chunks =>
      let downloadTotal := downloadTotal + Int32.ofNat chunk.len
      let progress := progress downloadTotal contentLength
      if tempProcess = progress then receive contentLength tempProcess downloadTotal chunks
      else progress :: receive contentLength progress downloadTotal chunks

variable (callback : DownloadCallback)

/-- The call after the loop over the body. -/
def finish : Ending → ListenerCall
  | .finished none => .success callback.saveFilePath
  | .finished (some exception) => .failure (.raised exception)
  | .unreadable exception => .failure (.raised exception)
  | .unwritable _ exception => .failure (.raised exception)

/-- The listener hears the calls, if there is one. -/
def tell (calls : List ListenerCall) : List ListenerCall :=
  if callback.mDownloadListener = none then [] else calls

def onFailure (e : Exception) : List ListenerCall :=
  callback.tell [.failure e]

def onResponse (response : Response) : List ListenerCall :=
  if !response.isSuccessful then
    callback.tell [.failure (.ioException response.text)]
  else
    match response.transfer with
    | .unopened exception => callback.tell [.failure (.raised exception)]
    | .opened chunks ending =>
        callback.tell
          ((receive response.contentLength 0 0 chunks).map .process ++ [callback.finish ending])

/-! ## Progress which goes up to the end -/

def ListenerCall.Ends : ListenerCall → Prop
  | .process _ => False
  | .success _ => True
  | .failure _ => True

/-- The values are percentages and go up, and one other call follows them. -/
def GoesUp (calls : List ListenerCall) : Prop :=
  ∃ values last, calls = List.map ListenerCall.process values ++ [last] ∧ last.Ends ∧
    (∀ value ∈ values, 1 ≤ value ∧ value ≤ 100) ∧ values.Pairwise (· < ·)

def total (chunks : List Chunk) : ℕ :=
  (chunks.map Chunk.len).sum

/-- The numbers of bytes received after each of the chunks. -/
def totals (received : ℕ) : List Chunk → List ℕ
  | [] => []
  | chunk :: chunks => (received + chunk.len) :: totals (received + chunk.len) chunks

/-- No more than the announced length is received, and all of it if the end of the body is found. -/
def Response.Agrees (response : Response) : Prop :=
  response.contentLength ≠ -1 →
    match response.transfer with
    | .unopened _ => True
    | .opened chunks (.finished _) => (total chunks : ℤ) = response.contentLength
    | .opened chunks (.unreadable _) => (total chunks : ℤ) ≤ response.contentLength
    | .opened chunks (.unwritable chunk _) =>
        ((total chunks + chunk.len : ℕ) : ℤ) ≤ response.contentLength

/-- How often an `int` has overflowed which counts up to a number. -/
def overflows (received : ℕ) : ℕ :=
  (received + 2 ^ 31) / 2 ^ 32

/-- When a number of bytes has been received out of those which are received in the end, the length
is more than a hundred times what the number is short of the next multiple of 2^32, or, if there is
still an overflow to come, beyond the last one. -/
def Outruns (contentLength : ℤ) (final received : ℕ) : Prop :=
  (2 ^ 31 ≤ received % 2 ^ 32 →
      ((100 * (2 ^ 32 - received % 2 ^ 32) : ℕ) : ℤ) < contentLength) ∧
    (received % 2 ^ 32 < 2 ^ 31 → overflows received < overflows final →
      ((100 * (received % 2 ^ 32) : ℕ) : ℤ) < contentLength)

instance (contentLength : ℤ) (final received : ℕ) :
    Decidable (Outruns contentLength final received) :=
  inferInstanceAs (Decidable (_ ∧ _))

/-- Nothing is received of a successful response, or its length is known and outruns the numbers of
bytes received in the course. -/
def Response.Countable (response : Response) : Prop :=
  response.isSuccessful = true →
    match response.transfer with
    | .unopened _ => True
    | .opened chunks _ =>
        chunks = [] ∨ response.contentLength ≠ -1 ∧
          ∀ received ∈ totals 0 chunks, Outruns response.contentLength (total chunks) received

/-! ## The counted number of bytes -/

/-- What an `int` shows which counts up to a number. -/
theorem toInt_ofNat_eq (received : ℕ) :
    (Int32.ofNat received).toInt = received - 2 ^ 32 * overflows received := by
  have size : Int32.size = 2 ^ 32 := rfl
  rw [Int32.toInt_ofNat', Int.bmod_def, size, overflows]
  split <;> omega

section Counting

variable {contentLength : ℤ}

theorem saturate_mono {first second : ℤ} (le : first ≤ second) :
    saturate first ≤ saturate second := by
  unfold saturate
  omega

theorem progress_mono (known : 0 < contentLength) {first second : Int32}
    (le : first.toInt ≤ second.toInt) :
    progress first contentLength ≤ progress second contentLength := by
  simp only [progress, if_neg known.ne']
  apply saturate_mono
  apply Int.tdiv_le_tdiv known
  omega

theorem tdiv_nonneg_iff (known : 0 < contentLength) (value : ℤ) :
    0 ≤ value.tdiv contentLength ↔ -contentLength < value := by
  rcases Int.le_total 0 value with above | below
  · exact iff_of_true (Int.tdiv_nonneg above known.le) (by omega)
  · obtain ⟨size, rfl⟩ := Int.exists_eq_neg_ofNat below
    rw [Int.neg_tdiv, Int.neg_nonneg, Int.neg_lt_neg_iff,
      Int.tdiv_eq_ediv_of_nonneg (Int.natCast_nonneg size), ← Int.lt_add_one_iff, Int.zero_add,
      Int.ediv_lt_iff_lt_mul known, Int.one_mul]

theorem progress_nonneg_iff (known : 0 < contentLength) (downloadTotal : Int32) :
    0 ≤ progress downloadTotal contentLength ↔ -contentLength < downloadTotal.toInt * 100 := by
  rw [← tdiv_nonneg_iff known, progress, if_neg known.ne', saturate]
  omega

theorem progress_nonpos_iff (known : 0 < contentLength) (downloadTotal : Int32) :
    progress downloadTotal contentLength ≤ 0 ↔ downloadTotal.toInt * 100 < contentLength := by
  have opposite := tdiv_nonneg_iff known (-(downloadTotal.toInt * 100))
  rw [Int.neg_tdiv] at opposite
  rw [progress, if_neg known.ne', saturate]
  omega

theorem progress_le_hundred (known : 0 < contentLength) {downloadTotal : Int32}
    (le : downloadTotal.toInt ≤ contentLength) : progress downloadTotal contentLength ≤ 100 := by
  have quotient : (downloadTotal.toInt * 100).tdiv contentLength ≤ 100 := by
    have bound := Int.tdiv_le_tdiv known (show downloadTotal.toInt * 100 ≤ 100 * contentLength by
      omega)
    rwa [Int.mul_tdiv_cancel _ known.ne'] at bound
  rw [progress, if_neg known.ne', saturate]
  omega

theorem outruns_iff (known : 0 < contentLength) (final received : ℕ) :
    Outruns contentLength final received ↔
      0 ≤ progress (Int32.ofNat received) contentLength ∧
        (overflows received < overflows final →
          progress (Int32.ofNat received) contentLength ≤ 0) := by
  have count := toInt_ofNat_eq received
  rw [progress_nonneg_iff known, progress_nonpos_iff known, Outruns]
  have parts : (overflows received = received / 2 ^ 32 ∧ received % 2 ^ 32 < 2 ^ 31) ∨
      (overflows received = received / 2 ^ 32 + 1 ∧ 2 ^ 31 ≤ received % 2 ^ 32) := by
    unfold overflows
    omega
  rcases parts with ⟨same, small⟩ | ⟨same, large⟩
  · have shows : (Int32.ofNat received).toInt = (received % 2 ^ 32 : ℕ) := by omega
    rw [shows]
    omega
  · have shows : (Int32.ofNat received).toInt = -(2 ^ 32 - received % 2 ^ 32 : ℕ) := by omega
    rw [shows]
    omega

/-! ## The values reported -/

/-- The progress after each of the chunks. -/
def progresses (contentLength : ℤ) (received : ℕ) (chunks : List Chunk) : List ℤ :=
  (totals received chunks).map fun total => progress (Int32.ofNat total) contentLength

theorem mem_receive {tempProcess : ℤ} {received : ℕ} {chunks : List Chunk} {value : ℤ}
    (reported : value ∈ receive contentLength tempProcess (Int32.ofNat received) chunks) :
    value ∈ progresses contentLength received chunks := by
  induction chunks generalizing tempProcess received with
  | nil => cases reported
  | cons chunk chunks ih =>
      simp only [receive, ← Int32.ofNat_add] at reported
      unfold progresses totals
      rw [List.map_cons, List.mem_cons]
      split at reported
      · exact Or.inr (ih reported)
      · rcases List.mem_cons.1 reported with same | later
        · exact Or.inl same
        · exact Or.inr (ih later)

/-- The values reported go up strictly exactly if the progress never goes down. -/
theorem isChain_receive_iff (tempProcess : ℤ) (received : ℕ) (chunks : List Chunk) :
    (tempProcess :: receive contentLength tempProcess (Int32.ofNat received) chunks).IsChain
        (· < ·) ↔
      (tempProcess :: progresses contentLength received chunks).IsChain (· ≤ ·) := by
  induction chunks generalizing tempProcess received with
  | nil => simp [receive, progresses, totals]
  | cons chunk chunks ih =>
      simp only [receive, progresses, totals, ← Int32.ofNat_add, List.map_cons,
        List.isChain_cons_cons]
      split
      · next same =>
          rw [ih, ← same]
          simp [progresses]
      · next changed =>
          rw [List.isChain_cons_cons, ih, lt_iff_le_and_ne]
          simp only [ne_eq, changed, not_false_eq_true, and_true]
          rfl

theorem mem_totals_le {received later : ℕ} {chunks : List Chunk}
    (reached : later ∈ totals received chunks) : later ≤ received + total chunks := by
  induction chunks generalizing received with
  | nil => cases reached
  | cons chunk chunks ih =>
      simp only [total, List.map_cons, List.sum_cons]
      rcases List.mem_cons.1 reached with rfl | further
      · omega
      · have bound := ih further
        unfold total at bound
        omega

/-- The progress goes up with the next chunk if it is nowhere negative, and zero as long as an
overflow is to come. -/
theorem progress_step_iff (known : 0 < contentLength) (received final : ℕ) (chunk : Chunk)
    (nonneg : 0 ≤ progress (Int32.ofNat received) contentLength)
    (next : Outruns contentLength final (received + chunk.len))
    (reach : received + chunk.len ≤ final) :
    progress (Int32.ofNat received) contentLength ≤
        progress (Int32.ofNat (received + chunk.len)) contentLength ↔
      Outruns contentLength final received := by
  rw [outruns_iff known] at next ⊢
  have before := toInt_ofNat_eq received
  have after := toInt_ofNat_eq (received + chunk.len)
  by_cases lap : overflows (received + chunk.len) = overflows received
  · -- the count has gone up
    rw [lap] at next after
    have goesUp := progress_mono known (show (Int32.ofNat received).toInt ≤
      (Int32.ofNat (received + chunk.len)).toInt by omega)
    refine iff_of_true goesUp ⟨nonneg, ?_⟩
    intro coming
    exact goesUp.trans (next.2 coming)
  · -- the count has overflowed, and is negative
    have overflowed : overflows received < overflows (received + chunk.len) ∧
        (Int32.ofNat (received + chunk.len)).toInt ≤ 0 := by
      have small := chunk.len_le
      simp only [overflows, BUFFER_SIZE] at *
      omega
    have coming : overflows received < overflows final :=
      overflowed.1.trans_le (Nat.div_le_div_right (Nat.add_le_add_right reach _))
    have falls := (progress_nonpos_iff known (Int32.ofNat (received + chunk.len))).2 (by omega)
    constructor
    · intro goesUp
      exact ⟨nonneg, fun _ => goesUp.trans falls⟩
    · intro outruns
      exact (outruns.2 coming).trans next.1

/-- The progress never goes down exactly if the length outruns all that is received. -/
theorem isChain_progresses_iff (known : 0 < contentLength) (received : ℕ) (chunks : List Chunk)
    (nonneg : 0 ≤ progress (Int32.ofNat received) contentLength) :
    (progress (Int32.ofNat received) contentLength ::
        progresses contentLength received chunks).IsChain (· ≤ ·) ↔
      ∀ reached ∈ received :: totals received chunks,
        Outruns contentLength (received + total chunks) reached := by
  induction chunks generalizing received with
  | nil => simp [progresses, totals, total, outruns_iff known, nonneg]
  | cons chunk chunks ih =>
      have final : received + total (chunk :: chunks) =
          received + chunk.len + total chunks := by
        simp [total, Nat.add_assoc]
      have first : received + chunk.len ∈ totals received (chunk :: chunks) :=
        List.mem_cons_self
      have step := progress_step_iff known received (received + chunk.len + total chunks) chunk
        nonneg
      rw [final, List.forall_mem_cons]
      change (_ :: progress _ _ :: progresses _ (received + chunk.len) chunks).IsChain _ ↔ _
      rw [List.isChain_cons_cons]
      constructor
      · rintro ⟨goesUp, later⟩
        have rest := (ih (received + chunk.len) (nonneg.trans goesUp)).1 later
        exact ⟨(step (rest _ first) (Nat.le_add_right _ _)).1 goesUp, rest⟩
      · rintro ⟨outruns, rest⟩
        have next := rest _ first
        refine ⟨(step next (Nat.le_add_right _ _)).2 outruns, ?_⟩
        exact (ih (received + chunk.len) ((outruns_iff known _ _).1 next).1).2 rest

/-- The values are percentages and go up. -/
def Percentages (values : List ℤ) : Prop :=
  (∀ value ∈ values, 1 ≤ value ∧ value ≤ 100) ∧ values.Pairwise (· < ·)

theorem percentages_iff (values : List ℤ) :
    Percentages values ↔
      ((0 : ℤ) :: values).IsChain (· < ·) ∧ ∀ value ∈ values, value ≤ 100 := by
  rw [List.isChain_iff_pairwise, List.pairwise_cons, Percentages, forall₂_and, and_right_comm]
  rfl

theorem percentages_receive_iff (known : 0 < contentLength) {chunks : List Chunk}
    (within : (total chunks : ℤ) ≤ contentLength) :
    Percentages (receive contentLength 0 0 chunks) ↔
      ∀ received ∈ totals 0 chunks, Outruns contentLength (total chunks) received := by
  have zero : progress (Int32.ofNat 0) contentLength = 0 := by
    simp [progress, known.ne', saturate]
  have bounded (value : ℤ) (reported : value ∈ receive contentLength 0 (Int32.ofNat 0) chunks) :
      value ≤ 100 := by
    rcases List.mem_map.1 (mem_receive reported) with ⟨received, reached, rfl⟩
    apply progress_le_hundred known
    have upTo := mem_totals_le reached
    have count := toInt_ofNat_eq received
    omega
  have start : Outruns contentLength (total chunks) 0 := by
    rw [outruns_iff known, zero]
    simp
  have chain := isChain_progresses_iff known 0 chunks zero.ge
  rw [zero, Nat.zero_add, List.forall_mem_cons, and_iff_right start] at chain
  change Percentages (receive contentLength 0 (Int32.ofNat 0) chunks) ↔ _
  rw [percentages_iff, and_iff_left bounded, isChain_receive_iff, chain]

/-- Of a body of unknown length, the first chunk makes the progress negative. -/
theorem not_percentages_unknown (chunk : Chunk) (chunks : List Chunk) :
    ¬Percentages (receive (-1) 0 0 (chunk :: chunks)) := by
  have small := chunk.len_le
  have positive := chunk.len_pos
  have count := toInt_ofNat_eq (0 + chunk.len)
  have first : progress (0 + Int32.ofNat chunk.len) (-1) = -(chunk.len * 100) := by
    change progress (Int32.ofNat 0 + Int32.ofNat chunk.len) (-1) = _
    simp only [← Int32.ofNat_add, progress, saturate, overflows, BUFFER_SIZE] at *
    rw [if_neg (by decide), Int.tdiv_neg, Int.tdiv_one]
    omega
  intro percentages
  unfold receive at percentages
  simp only [first] at percentages
  rw [if_neg (by omega)] at percentages
  have bound := percentages.1 _ List.mem_cons_self
  omega

end Counting

/-! ## Responses -/

theorem goesUp_iff {values : List ℤ} {last : ListenerCall} (ends : last.Ends) :
    GoesUp (values.map .process ++ [last]) ↔ Percentages values := by
  constructor
  · rintro ⟨others, end_, same, _, percentages⟩
    rcases List.append_inj' same rfl with ⟨mapped, _⟩
    have equal : values = others := by
      apply List.map_injective_iff.2 _ mapped
      intro first second process
      exact ListenerCall.process.inj process
    exact equal ▸ percentages
  · intro percentages
    exact ⟨values, last, rfl, ends, percentages⟩

theorem ends_finish (callback : DownloadCallback) (ending : Ending) :
    (callback.finish ending).Ends := by
  cases ending with
  | finished flush => cases flush <;> trivial
  | unreadable exception => trivial
  | unwritable chunk exception => trivial

theorem goesUp_failure (callback : DownloadCallback) {listener : Ref}
    (listening : callback.mDownloadListener = some listener) (e : Exception) :
    GoesUp (callback.tell [.failure e]) := by
  rw [tell, listening]
  exact ⟨[], .failure e, rfl, trivial, by simp, List.Pairwise.nil⟩

theorem goesUp_onFailure (saveFilePath : Option JString) (listener : Ref) (e : Exception) :
    GoesUp (onFailure ⟨saveFilePath, some listener⟩ e) :=
  goesUp_failure _ rfl e

theorem Response.Agrees.total_le {response : Response} (agrees : response.Agrees)
    {chunks : List Chunk} {ending : Ending} (opened : response.transfer = .opened chunks ending)
    (known : response.contentLength ≠ -1) : (total chunks : ℤ) ≤ response.contentLength := by
  have bound := agrees known
  rw [opened] at bound
  cases ending with
  | finished flush => exact bound.le
  | unreadable exception => exact bound
  | unwritable chunk exception =>
      simp only at bound
      omega

theorem percentages_iff_of_agrees {response : Response} (agrees : response.Agrees)
    {chunks : List Chunk} {ending : Ending}
    (opened : response.transfer = .opened chunks ending) :
    Percentages (receive response.contentLength 0 0 chunks) ↔
      chunks = [] ∨ response.contentLength ≠ -1 ∧
        ∀ received ∈ totals 0 chunks,
          Outruns response.contentLength (total chunks) received := by
  cases chunks with
  | nil => simp [receive, Percentages]
  | cons chunk chunks =>
      by_cases unknown : response.contentLength = -1
      · rw [unknown]
        simp [not_percentages_unknown]
      · have within := agrees.total_le opened unknown
        have positive := chunk.len_pos
        have known : 0 < response.contentLength := by
          simp only [total, List.map_cons, List.sum_cons] at within
          omega
        simp [percentages_receive_iff known within, unknown]

/-- A known length below 2^31 does no harm, nor does one over a hundred times 2^31. -/
theorem Response.countable_of_length {response : Response} (agrees : response.Agrees)
    (known : response.contentLength ≠ -1)
    (length : response.contentLength < 2 ^ 31 ∨ 100 * 2 ^ 31 < response.contentLength) :
    response.Countable := by
  intro _
  split
  · trivial
  · next chunks ending opened =>
      right
      refine ⟨known, ?_⟩
      intro received reached
      have within := agrees.total_le opened known
      have upTo := mem_totals_le reached
      unfold Outruns overflows
      omega

theorem goesUp_onResponse_iff (saveFilePath : Option JString) (listener : Ref)
    (response : Response) (agrees : response.Agrees) :
    GoesUp (onResponse ⟨saveFilePath, some listener⟩ response) ↔ response.Countable := by
  unfold onResponse Response.Countable
  cases successful : response.isSuccessful with
  | false => simp [goesUp_failure]
  | true =>
      cases transferred : response.transfer with
      | unopened exception => simp [goesUp_failure]
      | opened chunks ending =>
          have values := percentages_iff_of_agrees agrees transferred
          simp only [tell, Bool.not_true, Bool.false_eq_true, if_false, reduceCtorEq,
            true_imp_iff]
          rw [goesUp_iff (ends_finish _ _), values]

/-- A body of four bytes, received as announced. -/
theorem goesUp_onResponse_four :
    GoesUp (onResponse ⟨none, some 0⟩
      ⟨true, [], 4, .opened [⟨3, by decide, by decide⟩, ⟨1, by decide, by decide⟩]
        (.finished none), by decide⟩) := by
  apply (goesUp_onResponse_iff none 0 _ ?_).2
  · intro _
    right
    decide
  · intro _
    decide

/-- One byte is received of a body of unknown length. -/
theorem not_goesUp_unknown :
    ¬∀ (saveFilePath : Option JString) (listener : Ref) (response : Response),
      response.Agrees → GoesUp (onResponse ⟨saveFilePath, some listener⟩ response) := by
  intro every
  have upwards := every none 0
    ⟨true, [], -1, .opened [⟨1, by decide, by decide⟩] (.finished none), by decide⟩
    (fun known => absurd rfl known)
  rcases upwards with ⟨values, last, same, _, percentages, _⟩
  have calls : onResponse ⟨none, some 0⟩
      ⟨true, [], -1, .opened [⟨1, by decide, by decide⟩] (.finished none), by decide⟩ =
        List.map ListenerCall.process [-100] ++ [.success none] := by
    decide
  rw [calls] at same
  rcases List.append_inj' same rfl with ⟨mapped, _⟩
  cases values with
  | nil => cases mapped
  | cons value values =>
      have first := (List.cons.inj mapped).1
      have bound := percentages value List.mem_cons_self
      cases first
      omega

end DownloadCallback

end AndroidCollection.Net
