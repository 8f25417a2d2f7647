import AndroidCollection.Install.PackageInstallAsync
import AndroidCollection.Lib.Ledger
import AndroidCollection.Lib.Machine

/-!
# The delivery of installation results

A result is due to the callback of an installation when its session finishes, or
when the call fails before it commits a session. The callback map delivers the
results which are due, and no others, in exactly the runs whose steps all find
what they need: an archive which can be parsed, a session which is committed or
abandoned, and, under the name which the platform reports, just the callback of
the session which finishes. A second installation of a package, a session of
another application, or a name other than that of the archive breaks this.
-/

namespace AndroidCollection.Install

open Java PackageInstallAsync

/-- The callback of the session under an id which is still to finish. -/
def PackageInstallAsync.callbackOf (installer : PackageInstallAsync) (sessionId : ℕ) :
    Option Ref :=
  (installer.sessions.find? fun session => session.1 = sessionId).bind fun session => session.2

/-- The call of `install` gets as far as a session. -/
def accepts (packageName filePath archive : Option JString) : Bool :=
  !isEmpty filePath && !isEmpty packageName && archive.isSome

/-- The results which become due with an input. -/
def due (installer : PackageInstallAsync) : Input → List (Ref × Bool)
  | .install packageName filePath callback archive =>
      if accepts packageName filePath archive then []
      else callback.toList.map fun callback => (callback, false)
  | .transfer number .printed =>
      ((installer.findCall number).bind Call.callback).toList.map fun callback =>
        (callback, false)
  | .onFinished sessionId success _ =>
      (installer.callbackOf sessionId).toList.map fun callback => (callback, success)
  | _ => []

def Effect.result : Effect → Option (Ref × Bool)
  | .install callback _ success => some (callback, success)
  | _ => none

/-- The final results which are handed to callbacks. -/
def Output.delivered (output : Output) : List (Ref × Bool) :=
  output.effects.filterMap Effect.result

def Input.isEvent : Input → Bool
  | .install _ _ _ _ => false
  | .transfer _ _ => false
  | _ => true

/-- The account of a run: the results due and delivered, and whether an event has thrown. -/
structure Account where
  results : Ledger (Ref × Bool)
  thrown : Bool

def Account.initial : Account :=
  ⟨.empty, false⟩

def account (before : Account) (installer : PackageInstallAsync) (input : Input)
    (output : Output) : Account :=
  ⟨before.results.record (due installer input) output.delivered,
    before.thrown || (input.isEvent && output.thrown.isSome)⟩

/-- Every result which is due has been delivered once, and no other; no event has thrown. -/
structure Delivers (world : PackageInstallAsync × Account) : Prop where
  balances : world.2.results.Balances []
  quiet : world.2.thrown = false

/-- A step which finds what it needs. -/
def Served (installer : PackageInstallAsync) : Input → Prop
  | .install packageName filePath callback archive =>
      callback = none ∨ accepts packageName filePath archive = true
  | .transfer number .printed =>
      ∀ call, installer.findCall number = some call → call.callback = none
  | .onProgressChanged _ _ info =>
      installer.registered = true → ∃ name callbackList, info = some (some name) ∧
        installer.sInstallCallbacks name = some callbackList ∧ none ∉ callbackList
  | .onFinished sessionId _ info =>
      installer.registered = true → ∃ name callback, info = some (some name) ∧
        installer.callbackOf sessionId = some callback ∧
          installer.sInstallCallbacks name = some [some callback]
  | _ => True

/-! ## The invariant -/

structure Kept (installer : PackageInstallAsync) : Prop where
  /-- A package keeps the first callback only. -/
  single : ∀ {name callbackList}, installer.sInstallCallbacks name = some callbackList →
    ∃ callback, callbackList = [callback]
  unregistered : installer.registered = false → installer.calls = [] ∧ installer.sessions = []

theorem kept_initial : Kept initial := by
  constructor
  · intro name callbackList stored
    cases stored
  · intro _
    exact ⟨rfl, rfl⟩

theorem kept_addCallback {installer : PackageInstallAsync} (kept : Kept installer)
    (packageName : JString) (callback : Option Ref) {name : JString}
    {callbackList : List (Option Ref)}
    (stored : (installer.addCallback packageName callback).sInstallCallbacks name =
      some callbackList) : ∃ callback, callbackList = [callback] := by
  simp only [addCallback] at stored
  split at stored
  · cases before : installer.sInstallCallbacks packageName with
    | none =>
        rw [before] at stored
        exact ⟨callback, (Option.some.inj stored).symm⟩
    | some earlier =>
        rw [before] at stored
        rcases kept.single before with ⟨first, rfl⟩
        exact ⟨first, (Option.some.inj stored).symm⟩
  · exact kept.single stored

theorem kept_react {installer : PackageInstallAsync} (kept : Kept installer) (input : Input) :
    Kept (react installer input).1 := by
  cases input with
  | install packageName filePath callback archive =>
      simp only [react, install]
      split
      · exact kept
      · split
        · constructor
          · intro other callbackList stored
            exact kept_addCallback kept _ callback stored
          · intro unregistered
            cases unregistered
        · exact kept
  | transfer number transfer =>
      simp only [react, PackageInstallAsync.transfer]
      split
      · exact kept
      · next call found =>
          have registered : installer.registered = true := by
            cases state : installer.registered with
            | true => rfl
            | false => simp [findCall, (kept.unregistered state).1] at found
          constructor
          · intro name callbackList stored
            have before : installer.sInstallCallbacks name = some callbackList := by
              cases transfer <;> exact stored
            exact kept.single before
          · intro unregistered
            have contrary : installer.registered = false := by
              cases transfer <;> exact unregistered
            rw [registered] at contrary
            cases contrary
  | onFinished sessionId success info =>
      constructor
      · exact kept.single
      · intro unregistered
        rcases kept.unregistered unregistered with ⟨calls, sessions⟩
        exact ⟨calls, by simp [react, finish, sessions]⟩
  | onCreated sessionId => exact kept
  | onBadgingChanged sessionId => exact kept
  | onActiveChanged sessionId => exact kept
  | onProgressChanged sessionId percent info => exact kept

/-! ## One step -/

/-- What is asked of one step. -/
def Sound (installer : PackageInstallAsync) (input : Input) : Prop :=
  (due installer input).Perm (react installer input).2.delivered ∧
    (input.isEvent && (react installer input).2.thrown.isSome) = false

theorem delivers_iff {installer : PackageInstallAsync} {before : Account}
    (delivers : Delivers (installer, before)) (input : Input) :
    Delivers (Machine.observed react account (installer, before) input).1 ↔
      Sound installer input := by
  rcases delivers with ⟨balances, quiet⟩
  change before.thrown = false at quiet
  have step := balances.record_iff (due installer input) (react installer input).2.delivered []
  rw [List.nil_append, List.append_nil] at step
  constructor
  · rintro ⟨after, still⟩
    refine ⟨step.1 after, ?_⟩
    simpa [Machine.observed, account, quiet] using still
  · rintro ⟨perm, silent⟩
    exact ⟨step.2 perm, by simp [Machine.observed, account, quiet, silent]⟩

/-- The callbacks which are called under a stored name. -/
theorem callBack_single {installer : PackageInstallAsync} {name : JString}
    {callback : Option Ref} (stored : installer.sInstallCallbacks name = some [callback])
    (call : JString → Ref → Effect) :
    installer.callBack (some (some name)) call =
      { effects := (callback.map (call name)).toList,
        thrown := if callback = none then some .nullPointerException else none } := by
  cases callback <;> simp [callBack, stored, callAll]

theorem sound_install_iff (installer : PackageInstallAsync)
    (packageName filePath : Option JString) (callback : Option Ref) (archive : Option JString) :
    Sound installer (.install packageName filePath callback archive) ↔
      callback = none ∨ accepts packageName filePath archive = true := by
  have nothing : (react installer (.install packageName filePath callback archive)).2.delivered
      = [] := by
    simp only [react, install]
    split
    · rfl
    · split <;> rfl
  unfold Sound
  rw [nothing, List.perm_nil]
  simp only [due, Input.isEvent, Bool.false_and, and_true]
  split
  · next accepted => simp [accepted]
  · next refused =>
      cases callback <;> simp [refused]

theorem sound_transfer_iff (installer : PackageInstallAsync) (number : ℕ) (transfer : Transfer) :
    Sound installer (.transfer number transfer) ↔ Served installer (.transfer number transfer) := by
  unfold Sound
  simp only [react, Output.delivered, List.filterMap_nil, List.perm_nil, Input.isEvent,
    Bool.false_and, and_true]
  cases transfer with
  | committed sessionId => simp [due, Served]
  | abandoned sessionId => simp [due, Served]
  | printed =>
      cases found : installer.findCall number with
      | none => simp [due, Served, found]
      | some call =>
          cases callback : call.callback <;> simp [due, Served, found, callback]

/-- Either one callback is stored under the reported name, or the lookup throws. -/
theorem callBack_cases {installer : PackageInstallAsync} (kept : Kept installer)
    (info : SessionInfo) (call : JString → Ref → Effect) :
    (∃ name callback, info = some (some name) ∧
        installer.sInstallCallbacks name = some [callback]) ∨
      installer.callBack info call = { thrown := some .nullPointerException } ∧
        ∀ name callbackList, info = some (some name) →
          installer.sInstallCallbacks name ≠ some callbackList := by
  rcases info with _ | _ | name
  · exact Or.inr ⟨rfl, fun name callbackList is => by cases is⟩
  · exact Or.inr ⟨rfl, fun name callbackList is => by cases is⟩
  · cases stored : installer.sInstallCallbacks name with
    | none =>
        refine Or.inr ⟨by simp only [callBack, stored], ?_⟩
        rintro other callbackList ⟨rfl⟩ under
        rw [stored] at under
        cases under
    | some callbackList =>
        rcases kept.single stored with ⟨callback, rfl⟩
        exact Or.inl ⟨name, callback, rfl, stored⟩

theorem sound_onProgressChanged_iff {installer : PackageInstallAsync} (kept : Kept installer)
    (sessionId : ℕ) (percent : ℤ) (info : SessionInfo) :
    Sound installer (.onProgressChanged sessionId percent info) ↔
      Served installer (.onProgressChanged sessionId percent info) := by
  cases registered : installer.registered with
  | false => simp [Sound, Served, react, due, registered, Output.delivered]
  | true =>
      simp only [Sound, Served, react, due, registered, if_true, Input.isEvent, Bool.true_and,
        forall_const, onProgressChanged]
      rcases callBack_cases kept info fun name callback => .process callback name percent with
        ⟨name, callback, rfl, stored⟩ | ⟨throws, missing⟩
      · rw [callBack_single stored]
        cases callback with
        | none => simp [stored, Output.delivered]
        | some callback => simp [stored, Output.delivered, Effect.result]
      · rw [throws]
        refine iff_of_false (fun sound => by simp at sound) ?_
        rintro ⟨name, callbackList, is, stored, _⟩
        exact missing name callbackList is stored

theorem sound_onFinished_iff {installer : PackageInstallAsync} (kept : Kept installer)
    (sessionId : ℕ) (success : Bool) (info : SessionInfo) :
    Sound installer (.onFinished sessionId success info) ↔
      Served installer (.onFinished sessionId success info) := by
  cases registered : installer.registered with
  | false =>
      have sessions := (kept.unregistered registered).2
      simp [Sound, Served, react, due, registered, Output.delivered, callbackOf, sessions]
  | true =>
      simp only [Sound, Served, react, due, registered, if_true, Input.isEvent, Bool.true_and,
        forall_const, onFinished]
      rcases callBack_cases kept info fun name callback => .install callback name success with
        ⟨name, callback, rfl, stored⟩ | ⟨throws, missing⟩
      · rw [callBack_single stored]
        cases callback with
        | none => simp [stored, Output.delivered]
        | some callback =>
            cases installer.callbackOf sessionId with
            | none => simp [Output.delivered, Effect.result]
            | some expected => simp [stored, Output.delivered, Effect.result, eq_comm]
      · rw [throws]
        refine iff_of_false (fun sound => by simp at sound) ?_
        rintro ⟨name, callback, is, _, stored⟩
        exact missing name [some callback] is stored

theorem sound_iff {installer : PackageInstallAsync} (kept : Kept installer) (input : Input) :
    Sound installer input ↔ Served installer input := by
  cases input with
  | install packageName filePath callback archive =>
      exact sound_install_iff installer packageName filePath callback archive
  | transfer number transfer => exact sound_transfer_iff installer number transfer
  | onProgressChanged sessionId percent info =>
      exact sound_onProgressChanged_iff kept sessionId percent info
  | onFinished sessionId success info => exact sound_onFinished_iff kept sessionId success info
  | onCreated sessionId => simp [Sound, Served, react, due, Output.delivered]
  | onBadgingChanged sessionId => simp [Sound, Served, react, due, Output.delivered]
  | onActiveChanged sessionId => simp [Sound, Served, react, due, Output.delivered]

/-! ## Every run -/

theorem results_delivered_iff (inputs : List Input) :
    Machine.Throughout (Machine.observed react account) Delivers (initial, .initial) inputs ↔
      Machine.Every (Machine.observed react account) (fun world => Served world.1)
        (initial, .initial) inputs := by
  apply Machine.throughout_iff_every (fun world => Kept world.1)
  · rintro ⟨installer, before⟩ input kept delivers
    exact (delivers_iff delivers input).trans (sound_iff kept input)
  · rintro ⟨installer, before⟩ input kept _
    exact kept_react kept input
  · exact kept_initial
  · exact ⟨Ledger.empty_balances, rfl⟩

/-- Two installations of one package, one after the other, both answer to the first caller. -/
theorem results_not_delivered :
    ¬∀ inputs : List Input,
      Machine.Throughout (Machine.observed react account) Delivers (initial, .initial) inputs := by
  intro always
  have reached := (always
    [.install (some (ascii ['i'])) (some (ascii ['a'])) (some 1) (some (ascii ['p'])),
      .transfer 0 (.committed 10), .onFinished 10 true (some (some (ascii ['p']))),
      .install (some (ascii ['i'])) (some (ascii ['a'])) (some 2) (some (ascii ['p'])),
      .transfer 1 (.committed 11), .onFinished 11 true (some (some (ascii ['p'])))] _ []
    (List.append_nil _).symm).balances
  revert reached
  unfold Ledger.Balances
  decide

end AndroidCollection.Install
