import Mathlib.Data.List.Basic
import Mathlib.Tactic.Common

/-!
# Readers of formats

A reader takes a value off the front of a list, or fails. A format says which
lists stand for a value. A reader reads a format if it takes exactly the lists of
the format off the front, whatever stands behind them, and fails on all other
input. Readers are composed in their monad, and the format of a composed reader is
composed from those of its parts.
-/

universe u

abbrev FormatReader (τ ε α : Type u) : Type u :=
  StateT (List τ) (Except ε) α

namespace FormatReader

variable {τ ε α β ρ : Type u}

structure Reads (reader : FormatReader τ ε α) (format : α → List τ → Prop) : Prop where
  complete : ∀ value tokens rest, format value tokens →
    reader.run (tokens ++ rest) = .ok (value, rest)
  sound : ∀ input value rest, reader.run input = .ok (value, rest) →
    ∃ tokens, format value tokens ∧ input = tokens ++ rest

def token (failure : ε) : FormatReader τ ε τ := fun input =>
  match input with
  | [] => .error failure
  | first :: rest => .ok (first, rest)

def ofOption (failure : ε) (found : Option α) : FormatReader τ ε α :=
  match found with
  | none => throw failure
  | some value => pure value

/-- Reads the given number of values one after the other. -/
def times (reader : FormatReader τ ε α) : ℕ → FormatReader τ ε (List α)
  | 0 => pure []
  | count + 1 => do
      let value ← reader
      let values ← reader.times count
      pure (value :: values)

def skip (failure : ε) (count : ℕ) : FormatReader τ ε PUnit := do
  let _ ← times (token (τ := τ) failure) count
  pure .unit

/-- One list of the format after the other. -/
inductive Repeated (format : α → List τ → Prop) : List α → List τ → Prop where
  | nil : Repeated format [] []
  | cons {value : α} {values : List α} {first rest : List τ} :
      format value first → Repeated format values rest →
        Repeated format (value :: values) (first ++ rest)

/-- The format of the values of valid records, each of which is written in one way. -/
def Written (valid : ρ → Prop) (write : ρ → List τ) (value : ρ → α) (read : α)
    (tokens : List τ) : Prop :=
  ∃ record, valid record ∧ read = value record ∧ tokens = write record

namespace Reads

variable {reader : FormatReader τ ε α} {format : α → List τ → Prop}

theorem congr {other : α → List τ → Prop} (reads : Reads reader format)
    (same : ∀ value tokens, format value tokens ↔ other value tokens) : Reads reader other where
  complete value tokens rest formatted :=
    reads.complete value tokens rest ((same value tokens).mpr formatted)
  sound input value rest taken := by
    rcases reads.sound input value rest taken with ⟨tokens, formatted, split⟩
    exact ⟨tokens, (same value tokens).mp formatted, split⟩

theorem pure (value : α) :
    Reads (pure value : FormatReader τ ε α) fun read tokens => read = value ∧ tokens = [] where
  complete := by
    rintro _ _ rest ⟨rfl, rfl⟩
    rfl
  sound := by
    intro input read rest taken
    cases taken
    exact ⟨[], ⟨rfl, rfl⟩, rfl⟩

theorem throw (failure : ε) :
    Reads (throw failure : FormatReader τ ε α) fun _ _ => False where
  complete _ _ _ := False.elim
  sound := by
    intro input read rest taken
    cases taken

theorem bind {next : α → FormatReader τ ε β} {later : α → β → List τ → Prop}
    (first : Reads reader format) (second : ∀ value, Reads (next value) (later value)) :
    Reads (reader >>= next) fun read tokens => ∃ value front back,
      format value front ∧ later value read back ∧ tokens = front ++ back where
  complete := by
    rintro read _ rest ⟨value, front, back, formatted, formattedLater, rfl⟩
    rw [List.append_assoc, StateT.run_bind, first.complete _ _ _ formatted]
    exact (second value).complete _ _ _ formattedLater
  sound := by
    intro input read rest taken
    rw [StateT.run_bind] at taken
    cases ran : reader.run input with
    | error failure =>
        rw [ran] at taken
        cases taken
    | ok result =>
        rcases result with ⟨value, middle⟩
        rw [ran] at taken
        rcases first.sound _ _ _ ran with ⟨front, formatted, rfl⟩
        rcases (second value).sound _ _ _ taken with ⟨back, formattedLater, rfl⟩
        exact ⟨front ++ back, ⟨value, front, back, formatted, formattedLater, rfl⟩,
          (List.append_assoc _ _ _).symm⟩

/-- Reading goes on behind a field. -/
theorem bind_field {next : α → FormatReader τ ε β} {later : α → β → List τ → Prop} {value : ρ → α}
    {write : ρ → List τ}
    (first : Reads reader fun read tokens => ∃ record, read = value record ∧ tokens = write record)
    (second : ∀ value, Reads (next value) (later value)) :
    Reads (reader >>= next) fun read tokens => ∃ record back,
      later (value record) read back ∧ tokens = write record ++ back := by
  refine (first.bind second).congr fun read tokens => ?_
  constructor
  · rintro ⟨_, _, back, ⟨record, rfl, rfl⟩, formattedLater, split⟩
    exact ⟨record, back, formattedLater, split⟩
  · rintro ⟨record, back, formattedLater, split⟩
    exact ⟨_, _, back, ⟨record, rfl, rfl⟩, formattedLater, split⟩

/-- What is found without reading anything. -/
theorem bind_found {next : α → FormatReader τ ε β} {later : α → β → List τ → Prop}
    {found : α → Prop} (first : Reads reader fun read tokens => found read ∧ tokens = [])
    (second : ∀ value, Reads (next value) (later value)) :
    Reads (reader >>= next) fun read tokens => ∃ value, found value ∧ later value read tokens := by
  refine (first.bind second).congr fun read tokens => ?_
  constructor
  · rintro ⟨value, _, back, ⟨isFound, rfl⟩, formattedLater, rfl⟩
    exact ⟨value, isFound, formattedLater⟩
  · rintro ⟨value, isFound, formattedLater⟩
    exact ⟨value, [], tokens, ⟨isFound, rfl⟩, formattedLater, rfl⟩

/-- A bound reader goes on behind what the first one takes. -/
theorem run_bind (reads : Reads reader format) {value : α} {front : List τ}
    (formatted : format value front) (next : α → FormatReader τ ε β) (rest : List τ) :
    (reader >>= next).run (front ++ rest) = (next value).run rest := by
  rw [StateT.run_bind, reads.complete _ _ _ formatted]
  rfl

theorem token (failure : ε) :
    Reads (token (τ := τ) failure) fun read tokens => tokens = [read] where
  complete := by
    rintro read _ rest rfl
    rfl
  sound := by
    intro input read rest taken
    cases input with
    | nil => cases taken
    | cons first others =>
        cases taken
        exact ⟨[read], rfl, rfl⟩

theorem ofOption (failure : ε) (found : Option α) :
    Reads (ofOption (τ := τ) failure found) fun read tokens => found = some read ∧ tokens = [] := by
  cases found with
  | none => exact (Reads.throw failure).congr (by simp)
  | some value => exact (Reads.pure value).congr (by simp [eq_comm])

theorem times (reads : Reads reader format) (count : ℕ) :
    Reads (reader.times count) fun values tokens =>
      values.length = count ∧ Repeated format values tokens := by
  induction count with
  | zero =>
      refine (Reads.pure []).congr fun values tokens => ?_
      constructor
      · rintro ⟨rfl, rfl⟩
        exact ⟨rfl, .nil⟩
      · rintro ⟨empty, repeated⟩
        cases repeated with
        | nil => exact ⟨rfl, rfl⟩
        | cons _ _ => cases empty
  | succ count ih =>
      refine (reads.bind fun value => ih.bind fun values => Reads.pure (value :: values)).congr ?_
      intro values tokens
      constructor
      · rintro ⟨value, front, _, formatted, ⟨rest, back, _, ⟨rfl, repeated⟩, ⟨rfl, rfl⟩, rfl⟩, rfl⟩
        rw [List.append_nil]
        exact ⟨rfl, .cons formatted repeated⟩
      · rintro ⟨length, repeated⟩
        cases repeated with
        | nil => cases length
        | @cons value rest front back formatted repeated =>
            exact ⟨value, front, back, formatted,
              ⟨rest, back, [], ⟨Nat.succ.inj length, repeated⟩, ⟨rfl, rfl⟩,
                (List.append_nil back).symm⟩, rfl⟩

theorem skip (failure : ε) (count : ℕ) :
    Reads (FormatReader.skip (τ := τ) failure count) fun _ tokens => tokens.length = count := by
  refine (((Reads.token failure).times count).bind fun _ => Reads.pure PUnit.unit).congr ?_
  intro _ tokens
  have each : ∀ {values tokens : List τ},
      Repeated (fun read tokens => tokens = [read]) values tokens ↔ values = tokens := by
    intro values tokens
    constructor
    · intro repeated
      induction repeated with
      | nil => rfl
      | cons formatted _ ih => rw [formatted, ih, List.singleton_append]
    · rintro rfl
      induction values with
      | nil => exact .nil
      | cons value values ih =>
          have longer : Repeated (fun read tokens => tokens = [read]) (value :: values)
              ([value] ++ values) := .cons rfl ih
          exact longer
  constructor
  · rintro ⟨values, front, _, ⟨length, repeated⟩, ⟨_, rfl⟩, rfl⟩
    rw [List.append_nil, ← each.mp repeated, length]
  · intro length
    exact ⟨tokens, tokens, [], ⟨length, each.mpr rfl⟩, ⟨rfl, rfl⟩, (List.append_nil _).symm⟩

end Reads

/-- Written records stand one after the other. -/
theorem repeated_written_iff {valid : ρ → Prop} {write : ρ → List τ} {value : ρ → α}
    {values : List α} {tokens : List τ} :
    Repeated (Written valid write value) values tokens ↔
      ∃ records : List ρ, (∀ record ∈ records, valid record) ∧ values = records.map value ∧
        tokens = records.flatMap write := by
  constructor
  · intro repeated
    induction repeated with
    | nil => exact ⟨[], by simp, rfl, rfl⟩
    | cons formatted _ ih =>
        rcases formatted with ⟨record, isValid, rfl, rfl⟩
        rcases ih with ⟨records, areValid, rfl, rfl⟩
        exact ⟨record :: records, List.forall_mem_cons.mpr ⟨isValid, areValid⟩, rfl, rfl⟩
  · rintro ⟨records, areValid, rfl, rfl⟩
    induction records with
    | nil => exact .nil
    | cons record records ih =>
        rcases List.forall_mem_cons.mp areValid with ⟨isValid, others⟩
        exact .cons ⟨record, isValid, rfl, rfl⟩ (ih others)

/-- A reader of written records reads as many of them as it is told. -/
theorem Reads.times_written {valid : ρ → Prop} {write : ρ → List τ} {value : ρ → α}
    {reader : FormatReader τ ε α} (reads : Reads reader (Written valid write value)) (count : ℕ) :
    Reads (reader.times count)
      (Written (fun records : List ρ => records.length = count ∧ ∀ record ∈ records, valid record)
        (List.flatMap write) (List.map value)) := by
  refine (reads.times count).congr fun values tokens => ?_
  rw [repeated_written_iff]
  constructor
  · rintro ⟨length, records, areValid, rfl, rfl⟩
    exact ⟨records, ⟨by rwa [List.length_map] at length, areValid⟩, rfl, rfl⟩
  · rintro ⟨records, ⟨length, areValid⟩, rfl, rfl⟩
    exact ⟨by rw [List.length_map, length], records, areValid, rfl, rfl⟩

end FormatReader
