import AndroidCollection.Install.PackageInstallSync
import Mathlib.Tactic.SplitIfs

/-!
# How an installation which waits concludes

With a non-empty package name and path an installation reports exactly once,
whatever the calls of the platform answer: a success if it has received the status
of one, and a failure otherwise. In the end no stream is left open and no session
which was opened is left without having been abandoned. With an empty argument it
throws before it does anything, so that nothing is reported. A session which has
been created and cannot be opened is not abandoned, since only the opened session
is remembered.
-/

namespace AndroidCollection.Install.PackageInstallSync

open Java PackageInstallAsync Raising

def Effect.isReport : Effect → Bool
  | .install _ _ _ _ => true
  | _ => false

/-- The result has come, or has been reported. -/
def Effect.concludes : Effect → Bool
  | .received _ => true
  | .install _ _ _ _ => true
  | _ => false

/-- What has been opened and not given back. -/
structure Held where
  session : Bool := false
  input : Bool := false
  output : Bool := false
deriving DecidableEq

def Held.after (held : Held) : Effect → Held
  | .openSession _ => { held with session := true }
  | .openWrite _ => { held with output := true }
  | .openFile _ => { held with input := true }
  | .closeInput => { held with input := false }
  | .closeOutput => { held with output := false }
  | .abandon => { held with session := false }
  | _ => held

def stillHeld (effects : List Effect) : Held :=
  effects.foldl Held.after {}

/-- A session has been created and not been abandoned since. -/
def sessionLeft (effects : List Effect) : Bool :=
  effects.foldl (fun left effect =>
    match effect with
    | .createSession _ _ => true
    | .abandon => false
    | _ => left) false

/-- There is one report, of a success if the result has come with the status of one. -/
def ReportsOnce (callback : Ref) (packageName : Option JString) (effects : List Effect) : Prop :=
  ∃ success msg, effects.filter Effect.isReport = [.install callback packageName success msg] ∧
    (success = true ↔ Effect.received STATUS_SUCCESS ∈ effects)

/-! ## The contract of the try block -/

/-- The variables know at least what is held. -/
structure Covers (state : State) : Prop where
  session : (stillHeld state.effects).session = true → state.session = true
  input : (stillHeld state.effects).input = true → state.inputStream = true
  output : (stillHeld state.effects).output = true → state.outputStream = true

/-- Nothing has been concluded. -/
structure Underway (state : State) : Prop extends Covers state where
  quiet : ∀ effect ∈ state.effects, effect.concludes = false

@[simp]
theorem stillHeld_concat (effects : List Effect) (effect : Effect) :
    stillHeld (effects ++ [effect]) = (stillHeld effects).after effect := by
  simp [stillHeld]

theorem keeps_call {α : Type} (kept : State → Prop) (answer : Except Exception α) :
    Meets kept (liftExcept answer : Run α) (fun _ => kept) (fun _ => kept) :=
  .liftExcept (fun _ _ _ holds => holds) (fun _ _ _ holds => holds)

/-- What is done next leaves the variables knowing what is held. -/
theorem Underway.next {state : State} (underway : Underway state) {effect : Effect}
    (quiet : effect.concludes = false) {session input output : Bool}
    (coversSession : ((stillHeld state.effects).after effect).session = true → session = true)
    (coversInput : ((stillHeld state.effects).after effect).input = true → input = true)
    (coversOutput : ((stillHeld state.effects).after effect).output = true → output = true) :
    Underway ⟨session, input, output, state.effects ++ [effect]⟩ := by
  constructor
  · constructor
    · simpa using coversSession
    · simpa using coversInput
    · simpa using coversOutput
  · simpa [or_imp, forall_and] using ⟨underway.quiet, quiet⟩

/-- An action which opens and closes nothing. -/
theorem keeps_perform {effect : Effect} (quiet : effect.concludes = false)
    (opensNothing : ∀ held : Held, held.after effect = held) :
    Meets Underway (perform effect) (fun _ => Underway) (fun _ => Underway) := by
  refine .modify fun state underway => underway.next quiet ?_ ?_ ?_
  all_goals rw [opensNothing]
  · exact underway.session
  · exact underway.input
  · exact underway.output

theorem keeps_copy (lastRead : Except Exception Unit)
    (passes : List (List UInt8 × Except Exception Unit)) :
    Meets Underway (copy lastRead passes) (fun _ => Underway) (fun _ => Underway) := by
  induction passes with
  | nil => exact keeps_call _ _
  | cons pass passes ih =>
      exact .bind (keeps_call _ _) fun _ => .bind (keeps_perform rfl fun _ => rfl) fun _ => ih

theorem keeps_remember {opening : Effect} {assign : State → State}
    (assigned : ∀ state, Underway state →
      Underway (assign { state with effects := state.effects ++ [opening] })) :
    Meets Underway (remember opening assign) (fun _ => Underway) (fun _ => Underway) :=
  .modify assigned

/-- A stream is closed before its variable is cleared, which is not done if closing it raises. -/
theorem keeps_closeStream {closing : Effect} (answer : Except Exception Unit)
    {clear : State → State}
    (closed : ∀ state, Underway state →
      Underway { state with effects := state.effects ++ [closing] } ∧
        Underway (clear { state with effects := state.effects ++ [closing] })) :
    Meets Underway (closeStream closing answer clear) (fun _ => Underway) (fun _ => Underway) := by
  have performed : Meets Underway (perform closing)
      (fun _ state => Underway state ∧ Underway (clear state)) (fun _ => Underway) :=
    .modify closed
  have answered : Meets (fun state => Underway state ∧ Underway (clear state))
      (liftExcept answer : Run Unit) (fun _ state => Underway (clear state))
      (fun _ => Underway) :=
    .liftExcept (fun _ _ _ holds => holds.2) (fun _ _ _ holds => holds.1)
  exact .bind performed fun _ => .bind answered fun _ => .modify fun _ cleared => cleared

theorem keeps_writeArchive (platform : Platform) (targetPackageName : JString)
    (apkPath : Option JString) :
    Meets Underway (writeArchive platform targetPackageName apkPath) (fun _ => Underway)
      (fun _ => Underway) := by
  refine .bind (keeps_call _ _) fun _ => .bind (keeps_remember ?_) fun _ => ?_
  · intro state underway
    exact underway.next rfl underway.session underway.input fun _ => rfl
  refine .bind (keeps_call _ _) fun _ => .bind (keeps_remember ?_) fun _ => ?_
  · intro state underway
    exact underway.next rfl underway.session (fun _ => rfl) underway.output
  refine .bind (keeps_copy _ _) fun _ => .bind (keeps_call _ _) fun _ => ?_
  refine .bind (keeps_closeStream _ ?_) fun _ => keeps_closeStream _ ?_
  · intro state underway
    have nothing (kept : Bool) : false = true → kept = true := by simp
    exact ⟨underway.next rfl underway.session (nothing _) underway.output,
      underway.next rfl underway.session (nothing _) underway.output⟩
  · intro state underway
    have nothing (kept : Bool) : false = true → kept = true := by simp
    exact ⟨underway.next rfl underway.session underway.input (nothing _),
      underway.next rfl underway.session underway.input (nothing _)⟩

theorem keeps_transfer (platform : Platform) (targetPackageName : JString)
    (apkPath : Option JString) :
    Meets Underway (transfer platform targetPackageName apkPath) (fun _ => Underway)
      (fun _ => Underway) := by
  refine .bind (keeps_call _ _) fun _ => .bind (keeps_perform rfl fun _ => rfl) fun _ => ?_
  refine .bind (keeps_call _ _) fun _ => .bind (keeps_remember ?_) fun _ => ?_
  · intro state underway
    exact underway.next rfl (fun _ => rfl) underway.input underway.output
  exact .bind (keeps_writeArchive _ _ _) fun _ => .bind (keeps_call _ _) fun _ =>
    .bind (keeps_perform rfl fun _ => rfl) fun _ => keeps_call _ _

/-! ## The report -/

/-- A report of the kind would be the first one, and right. -/
structure Awaits (success : Bool) (state : State) : Prop extends Covers state where
  unreported : state.effects.filter Effect.isReport = []
  received : success = true ↔ Effect.received STATUS_SUCCESS ∈ state.effects

/-- The report has been made. -/
structure Reported (callback : Ref) (packageName : Option JString) (state : State) : Prop
    extends Covers state where
  once : ReportsOnce callback packageName state.effects

theorem Underway.unreported {state : State} (underway : Underway state) :
    state.effects.filter Effect.isReport = [] := by
  rw [List.filter_eq_nil_iff]
  intro effect effectMem isReport
  have quiet := underway.quiet effect effectMem
  cases effect <;> simp_all [Effect.isReport, Effect.concludes]

theorem Underway.not_received {state : State} (underway : Underway state) (status : Int32) :
    Effect.received status ∉ state.effects := by
  intro received
  have quiet := underway.quiet _ received
  simp [Effect.concludes] at quiet

theorem Underway.awaits {state : State} (underway : Underway state) : Awaits false state :=
  { underway with
    unreported := underway.unreported
    received := by simp [underway.not_received] }

theorem report_meets {success : Bool} {raised : Exception → State → Prop} (callback : Ref)
    (packageName msg : Option JString) :
    Meets (Awaits success) (report (some callback) packageName success msg)
      (fun _ => Reported callback packageName) raised := by
  refine .modify fun state awaits => ⟨⟨?_, ?_, ?_⟩, success, msg, ?_, ?_⟩
  · simpa [Held.after] using awaits.session
  · simpa [Held.after] using awaits.input
  · simpa [Held.after] using awaits.output
  · simp [awaits.unreported, Effect.isReport]
  · simpa using awaits.received

theorem conclude_meets {raised : Exception → State → Prop} (callback : Ref)
    (packageName : Option JString) (result : Result) :
    Meets Underway (conclude packageName (some callback) result)
      (fun _ => Reported callback packageName) raised := by
  have received : Meets Underway (perform (.received (result.status.getD STATUS_FAILURE)))
      (fun _ => Awaits (result.status.getD STATUS_FAILURE = STATUS_SUCCESS)) raised := by
    refine .modify fun state underway => ⟨⟨?_, ?_, ?_⟩, ?_, ?_⟩
    · simpa [Held.after] using underway.session
    · simpa [Held.after] using underway.input
    · simpa [Held.after] using underway.output
    · simp [underway.unreported, Effect.isReport]
    · simp [underway.not_received, eq_comm]
  refine .bind received fun _ => ?_
  split_ifs with success
  · simp only [success, decide_true]
    exact report_meets callback packageName _
  · simp only [success, decide_false]
    exact report_meets callback packageName _

/-! ## The finally block -/

theorem outcome_giveBack (held : Bool) (call : Effect) (answer : Except Exception Unit)
    (state : State) :
    outcome (giveBack held call answer) state =
      (.ok (), { state with effects := state.effects ++ if held then [call] else [] }) := by
  cases held with
  | false => simp [giveBack]
  | true =>
      have performed : outcome (perform call) state =
          (.ok (), { state with effects := state.effects ++ [call] }) := rfl
      rw [giveBack, if_pos rfl, outcome_tryCatch, outcome_bind, performed]
      cases answer <;> simp

/-- What is given back in the end. -/
def givenBack (state : State) : List Effect :=
  (if state.session then [.abandon] else []) ++
    ((if state.inputStream then [.closeInput] else []) ++
      if state.outputStream then [.closeOutput] else [])

theorem outcome_release (platform : Platform) (state : State) :
    outcome (release platform) state =
      (.ok (), { state with effects := state.effects ++ givenBack state }) := by
  simp [release, outcome_bind, outcome_giveBack, givenBack]

theorem mem_givenBack {state : State} {effect : Effect} (givesBack : effect ∈ givenBack state) :
    effect = .abandon ∨ effect = .closeInput ∨ effect = .closeOutput := by
  simp only [givenBack, List.mem_append, List.mem_ite_nil_right, List.mem_singleton] at givesBack
  rcases givesBack with ⟨-, abandons⟩ | ⟨-, closes⟩ | ⟨-, closes⟩
  · exact Or.inl abandons
  · exact Or.inr (Or.inl closes)
  · exact Or.inr (Or.inr closes)

/-- What the variables know to be held is given back, so that nothing is left. -/
theorem stillHeld_givenBack {state : State} (covers : Covers state) :
    stillHeld (state.effects ++ givenBack state) = {} := by
  rcases covers with ⟨session, input, output⟩
  rcases state with ⟨openSession, openInput, openOutput, effects⟩
  rw [stillHeld, List.foldl_append]
  change List.foldl Held.after (stillHeld effects) _ = _
  rcases held : stillHeld effects with ⟨heldSession, heldInput, heldOutput⟩
  simp only [held] at session input output
  cases openSession <;> cases openInput <;> cases openOutput <;>
    simp_all [givenBack, Held.after]

theorem reportsOnce_givenBack {callback : Ref} {packageName : Option JString} {state : State}
    (once : ReportsOnce callback packageName state.effects) :
    ReportsOnce callback packageName (state.effects ++ givenBack state) := by
  rcases once with ⟨success, msg, reports, received⟩
  have noReport : (givenBack state).filter Effect.isReport = [] := by
    rw [List.filter_eq_nil_iff]
    intro effect givesBack
    rcases mem_givenBack givesBack with rfl | rfl | rfl <;> simp [Effect.isReport]
  have notReceived : Effect.received STATUS_SUCCESS ∉ givenBack state := by
    intro givesBack
    rcases mem_givenBack givesBack with wrong | wrong | wrong <;> cases wrong
  refine ⟨success, msg, ?_, ?_⟩
  · rw [List.filter_append, reports, noReport, List.append_nil]
  · rw [received, List.mem_append]
    simp [notReceived]

/-! ## The whole installation -/

/-- There has been one report, and nothing which was opened is left. -/
def Concludes (callback : Ref) (packageName : Option JString) (state : State) : Prop :=
  ReportsOnce callback packageName state.effects ∧ stillHeld state.effects = {}

theorem release_meets {raised : Exception → State → Prop} (platform : Platform) (callback : Ref)
    (packageName : Option JString) :
    Meets (Reported callback packageName) (release platform)
      (fun _ => Concludes callback packageName) raised := by
  intro state reported
  rw [outcome_release]
  exact ⟨reportsOnce_givenBack reported.once, stillHeld_givenBack reported.toCovers⟩

theorem underway_initial : Underway {} := by
  constructor
  · constructor <;> simp [stillHeld]
  · simp

/-- Whatever the platform answers, the installation returns, and it concludes. -/
theorem install_meets (platform : Platform) {packageName apkPath : Option JString}
    (callback : Ref) (nonempty : isEmpty apkPath = false ∧ isEmpty packageName = false) :
    Meets (fun state => state = {}) (install platform packageName apkPath (some callback))
      (fun _ => Concludes callback packageName) (fun _ _ => False) := by
  have early (msg : Option JString) :
      Meets (fun state => state = {}) (report (some callback) packageName false msg)
        (fun _ => Concludes callback packageName) (fun _ _ => False) := by
    rintro state rfl
    refine ⟨⟨false, msg, rfl, by simp⟩, rfl⟩
  simp only [install, nonempty.1, nonempty.2, Bool.or_self, Bool.false_eq_true, if_false]
  cases platform.archive with
  | none => exact early _
  | some targetPackageName =>
      cases platform.isFile with
      | false => exact early _
      | true =>
          have transferred : Meets (fun state => state = {})
              (transfer platform targetPackageName apkPath) (fun _ => Underway)
              (fun _ => Underway) := by
            rintro state rfl
            exact keeps_transfer platform targetPackageName apkPath {} underway_initial
          -- What the block raises is reported before the finally block is run.
          refine .tryFinally (.tryCatch (.bind transferred fun result =>
              conclude_meets callback _ result) fun exception => ?_)
            (fun _ => release_meets platform callback _) fun _ _ raised => False.elim raised
          intro state underway
          exact @report_meets false (fun _ _ => False) callback packageName _ state underway.awaits

/-- With an empty argument an installation throws at once. Otherwise it returns, has reported
once, and has given back what it opened. -/
theorem install_concludes (platform : Platform) (packageName apkPath : Option JString)
    (callback : Ref) :
    if isEmpty apkPath || isEmpty packageName then
      outcome (install platform packageName apkPath (some callback)) {} =
        (.error .illegalArgumentException, {})
    else
      (outcome (install platform packageName apkPath (some callback)) {}).1 = .ok () ∧
        Concludes callback packageName
          (outcome (install platform packageName apkPath (some callback)) {}).2 := by
  split_ifs with empty
  · rw [install, if_pos empty]
    rfl
  · rw [Bool.or_eq_true, not_or, Bool.not_eq_true, Bool.not_eq_true] at empty
    have meets := install_meets platform callback empty
    rcases ended : outcome (install platform packageName apkPath (some callback)) {} with
      ⟨exception | value, final⟩
    · exact (meets.of_error rfl ended).elim
    · exact ⟨rfl, meets.of_ok rfl ended⟩

/-- A platform on which a session can be created and not be opened. -/
def refusesSession : Platform where
  archive := some [0x61]
  isFile := true
  createSession := .ok 1
  openSession := .error (.raised none)
  openWrite := .ok ()
  openFile := .ok ()
  passes := []
  lastRead := .ok ()
  fsync := .ok ()
  closeInput := .ok ()
  closeOutput := .ok ()
  commit := .ok ()
  getResult := .ok ⟨some STATUS_SUCCESS, none⟩
  abandon := .ok ()

/-- With an empty package name nothing is reported, and a session which cannot be opened is left
as it was created. -/
theorem not_concludes_always :
    ¬(∀ platform packageName apkPath callback,
      ReportsOnce callback packageName
        (outcome (install platform packageName apkPath (some callback)) {}).2.effects) ∧
    ¬(∀ platform packageName apkPath callback,
      sessionLeft
        (outcome (install platform packageName apkPath (some callback)) {}).2.effects = false) := by
  constructor
  · intro always
    rcases always refusesSession (some []) (some [0x62]) 0 with ⟨success, msg, reports, -⟩
    cases reports
  · intro always
    have left := always refusesSession (some [0x61]) (some [0x62]) 0
    cases left

end AndroidCollection.Install.PackageInstallSync
