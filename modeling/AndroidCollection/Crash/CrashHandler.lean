import AndroidCollection.Java.Text
import AndroidCollection.Lib.Chain

/-!
# The report of a crash

`collectException` writes what is known of the device, the trace of the throwable, and
then the traces of its causes, one after the other. `initCause` refuses a throwable
which is to be its own cause, but two throwables can cause each other, and nothing
remembers which of them have been written. So there is a report exactly if the causes
come to an end.
-/

namespace AndroidCollection.Crash

open Java

/-- The throwables of a process with what `getCause` returns for each of them. A cause is set at
most once, and `initCause` allows any other throwable. -/
structure Throwables where
  Throwable : Type
  finite : Finite Throwable
  getCause : Throwable → Option Throwable
  not_self : ∀ throwable, getCause throwable ≠ some throwable

/-- `printStackTrace`: what is written for each throwable. -/
abbrev Traces (throwables : Throwables) :=
  throwables.Throwable → JString

section CollectException

variable (throwables : Throwables) (printStackTrace : Traces throwables)

/-- The loop of `collectException` from a cause on. -/
def printCauses : ℕ → Option throwables.Throwable → Option JString
  | _, none => some []
  | 0, some _ => none
  | fuel + 1, some cause1 =>
      (printCauses fuel (throwables.getCause cause1)).map (printStackTrace cause1 ++ ·)

def infoLines (infos : List (JString × JString)) : JString :=
  infos.flatMap fun info => info.1 ++ ascii ['='] ++ info.2 ++ ascii ['\n']

def collectException (fuel : ℕ) (infos : List (JString × JString))
    (ex : throwables.Throwable) : Option JString :=
  (printCauses throwables printStackTrace fuel (throwables.getCause ex)).map fun result =>
    infoLines infos ++ (printStackTrace ex ++ result)

/-- There is a report in the end, with the trace of the throwable in it. -/
def Reports (infos : List (JString × JString)) (ex : throwables.Throwable) : Prop :=
  ∃ fuel report, collectException throwables printStackTrace fuel infos ex = some report ∧
    printStackTrace ex <:+: report

/-- No throwable is among its own causes. -/
def Ends (ex : throwables.Throwable) : Prop :=
  Chain.Acyclic throwables.getCause ex

/-! ## The causes are a chain -/

theorem printCauses_eq_map_walk (fuel : ℕ) (cause : Option throwables.Throwable) :
    printCauses throwables printStackTrace fuel cause =
      (Chain.walk throwables.getCause fuel cause).map fun walked =>
        walked.flatMap printStackTrace := by
  induction fuel generalizing cause with
  | zero => cases cause <;> rfl
  | succ fuel ih =>
      cases cause with
      | none => rfl
      | some cause1 =>
          rw [printCauses, Chain.walk, ih, Option.map_map, Option.map_map]
          rfl

variable {throwables printStackTrace}

/-- One more round is needed for the throwable itself. -/
theorem exists_walk_of_report {infos : List (JString × JString)} {ex : throwables.Throwable}
    (reports : Reports throwables printStackTrace infos ex) :
    ∃ fuel walked, Chain.walk throwables.getCause fuel (some ex) = some walked := by
  rcases reports with ⟨fuel, report, collected, _⟩
  rcases Option.map_eq_some_iff.1 collected with ⟨result, printed, _⟩
  rw [printCauses_eq_map_walk] at printed
  rcases Option.map_eq_some_iff.1 printed with ⟨walked, ends, _⟩
  exact ⟨fuel + 1, ex :: walked, by rw [Chain.walk, ends, Option.map_some]⟩

theorem reports_of_walk {infos : List (JString × JString)} {ex : throwables.Throwable}
    {fuel : ℕ} {walked : List throwables.Throwable}
    (ends : Chain.walk throwables.getCause fuel (some ex) = some walked) :
    Reports throwables printStackTrace infos ex := by
  cases fuel with
  | zero => cases ends
  | succ fuel =>
      rcases Option.map_eq_some_iff.1 ends with ⟨later, rest, _⟩
      refine ⟨fuel, infoLines infos ++ (printStackTrace ex ++ later.flatMap printStackTrace), ?_,
        ?_⟩
      · rw [collectException, printCauses_eq_map_walk, rest, Option.map_some, Option.map_some]
      · exact ⟨infoLines infos, later.flatMap printStackTrace, by rw [List.append_assoc]⟩

/-- A report is collected exactly if the causes come to an end. -/
theorem reports_iff (infos : List (JString × JString)) (ex : throwables.Throwable) :
    Reports throwables printStackTrace infos ex ↔ Ends throwables ex := by
  have finite := throwables.finite
  rw [Ends, ← Chain.exists_walk_iff]
  constructor
  · exact exists_walk_of_report
  · rintro ⟨fuel, walked, ends⟩
    exact reports_of_walk ends

end CollectException

/-- Two throwables which cause each other. -/
def mutualCauses : Throwables where
  Throwable := Bool
  finite := inferInstance
  getCause throwable := some !throwable
  not_self throwable := by cases throwable <;> decide

theorem not_reports_mutual :
    ¬∀ (throwables : Throwables) (printStackTrace : Traces throwables)
      (infos : List (JString × JString)) (ex : throwables.Throwable),
      Reports throwables printStackTrace infos ex := by
  intro all
  rcases all mutualCauses (fun _ => []) [] true with ⟨fuel, report, collected, _⟩
  have endless : ∀ fuel (cause : Bool),
      printCauses mutualCauses (fun _ => []) fuel (some cause) = none := by
    intro fuel
    induction fuel with
    | zero => exact fun _ => rfl
    | succ fuel ih => exact fun cause => congrArg (Option.map _) (ih !cause)
  rcases Option.map_eq_some_iff.1 collected with ⟨result, printed, _⟩
  have none := (endless fuel false).symm.trans printed
  cases none

end AndroidCollection.Crash
