import AndroidCollection.Ble.Encoder
import AndroidCollection.Lib.Machine

/-!
# Protocols and their owners

A client and a server each have a protocol object, which can be replaced and can
be shared. Callbacks are set on the protocol which the owner has at the time, and
stay there when it is replaced. Nothing here sets the sender of a protocol: a
protocol made by `new BleProtocol()` has none, and its `write` throws when there is
something to send.

Protocols given from outside may be objects of a subclass, so they are arbitrary.
-/

namespace AndroidCollection.Ble.Wiring

open Java

inductive Kind where
  | client
  | server
deriving DecidableEq

/-- A `BleClient` or a `BleServer`, and its field. -/
structure Owner where
  kind : Kind
  bleProtocol : Option Ref

/-- All owners and all protocols which there are. -/
structure Objects where
  owners : Ref → Option Owner := fun _ => none
  protocols : Ref → Option BleProtocol := fun _ => none

namespace Objects

variable (objects : Objects)

/-- The protocol which an owner uses. -/
def inUse (owner : Ref) : Option BleProtocol :=
  (objects.owners owner).bind fun found => found.bleProtocol.bind objects.protocols

def putProtocol (reference : Ref) (protocol : BleProtocol) : Objects :=
  { objects with protocols := Function.update objects.protocols reference (some protocol) }

def putOwner (reference : Ref) (owner : Owner) : Objects :=
  { objects with owners := Function.update objects.owners reference (some owner) }

end Objects

inductive Input where
  /-- A protocol made elsewhere, at a new reference. -/
  | newProtocol (reference : Ref) (protocol : BleProtocol)
  /-- A new client or server, with the protocol of its field initializer. -/
  | construct (kind : Kind) (owner protocol : Ref)
  | setBleProtocol (owner : Ref) (bleProtocol : Option Ref)
  | setBleCallback (owner : Ref) (bleCallback : Option Ref)
  | write (client : Ref) (onMainLooper : Bool) (accepts : ℕ → Bool) (data : Option JString)
  /-- `BleClient.read`, or `BleServer.handleClientResponse`. -/
  | read (owner : Ref) (bytes : List UInt8)

inductive Output where
  /-- There is no such object, or there is one already. -/
  | impossible
  | returned
  | nullPointerException
  | unsupportedOperationException
  /-- A call of `BleProtocol.write`, with the object whose `sendBytes` it calls. -/
  | written (sender : Option Ref) (outcome : WriteOutcome)
  /-- A call of `BleProtocol.read`, with the callback which it tells. -/
  | delivered (bleCallback : Option Ref) (calls : List CallbackCall)

def react (objects : Objects) : Input → Objects × Output
  | .newProtocol reference protocol =>
      match objects.protocols reference with
      | some _ => (objects, .impossible)
      | none => (objects.putProtocol reference protocol, .returned)
  | .construct kind owner protocol =>
      match objects.owners owner, objects.protocols protocol with
      | none, none =>
          ((objects.putProtocol protocol .new).putOwner owner ⟨kind, some protocol⟩, .returned)
      | _, _ => (objects, .impossible)
  | .setBleProtocol owner bleProtocol =>
      match objects.owners owner with
      | none => (objects, .impossible)
      | some found =>
          if bleProtocol.all fun reference => (objects.protocols reference).isSome then
            (objects.putOwner owner { found with bleProtocol := bleProtocol }, .returned)
          else (objects, .impossible)
  | .setBleCallback owner bleCallback =>
      match objects.owners owner with
      | none => (objects, .impossible)
      | some found =>
          match found.bleProtocol with
          | none => (objects, .nullPointerException)
          | some reference =>
              match objects.protocols reference with
              | none => (objects, .impossible)
              | some protocol =>
                  (objects.putProtocol reference (protocol.setBleCallback bleCallback), .returned)
  | .write client onMainLooper accepts data =>
      match objects.owners client with
      | some ⟨.client, bleProtocol⟩ =>
          if onMainLooper then (objects, .unsupportedOperationException)
          else
            match bleProtocol.bind objects.protocols with
            | none => (objects, .nullPointerException)
            | some protocol =>
                (objects, .written protocol.mIBleSend (Ble.write protocol accepts data))
      | _ => (objects, .impossible)
  | .read owner bytes =>
      match objects.owners owner with
      | none => (objects, .impossible)
      | some found =>
          match found.bleProtocol with
          | none => (objects, .nullPointerException)
          | some reference =>
              match objects.protocols reference with
              | none => (objects, .impossible)
              | some protocol =>
                  let received := receive protocol bytes
                  (objects.putProtocol reference received.1,
                    .delivered protocol.mBleCallback received.2)

def initial : Objects :=
  {}

/-- The callback which was set last on each owner. -/
abbrev Record :=
  Ref → Option (Option Ref)

def observe (record : Record) (_objects : Objects) (input : Input) (output : Output) : Record :=
  match input, output with
  | .setBleCallback owner bleCallback, .returned =>
      Function.update record owner (some bleCallback)
  | _, _ => record

/-! ## What a write sends -/

/-- A string which is sent: it is not empty and not too long. -/
def Sendable (data : Option JString) : Prop :=
  ∃ text, data = some text ∧ text ≠ [] ∧ (utf8Bytes text).length ≤ MAX_SIZE

theorem writeFrames_of_sender {protocol : BleProtocol} {sender : Ref}
    (wired : protocol.mIBleSend = some sender) (accepts : ℕ → Bool) (sourceBytes : List UInt8)
    (frames lastFrameDataLength remaining i : ℕ) (buffer : List UInt8) (sendDataSum : ℕ) :
    (writeFrames protocol accepts sourceBytes frames lastFrameDataLength remaining i buffer
        sendDataSum).result = .ok true ∧
      (0 < remaining → sentArrays (writeFrames protocol accepts sourceBytes frames
        lastFrameDataLength remaining i buffer sendDataSum).actions ≠ []) := by
  induction remaining generalizing i buffer sendDataSum with
  | zero => exact ⟨rfl, fun impossible => absurd impossible (Nat.lt_irrefl 0)⟩
  | succ remaining ih =>
      simp only [writeFrames, wired]
      split
      · simp
      · exact ⟨(ih _ _ _).1, by simp⟩

theorem write_of_not_sendable {data : Option JString} (silent : ¬Sendable data)
    (protocol : BleProtocol) (accepts : ℕ → Bool) :
    Ble.write protocol accepts data = ⟨[], [], .ok false⟩ := by
  cases data with
  | none => rfl
  | some text =>
      simp only [Ble.write]
      split
      · rfl
      · next some' =>
          split
          · rfl
          · next short => exact absurd ⟨text, rfl, some', not_lt.1 short⟩ silent

theorem write_of_sender {data : Option JString} (sendable : Sendable data)
    {protocol : BleProtocol} {sender : Ref} (wired : protocol.mIBleSend = some sender)
    (accepts : ℕ → Bool) :
    (Ble.write protocol accepts data).result = .ok true ∧
      sentArrays (Ble.write protocol accepts data).actions ≠ [] := by
  rcases sendable with ⟨text, rfl, some', short⟩
  simp only [Ble.write, if_neg some', if_neg (not_lt.2 short)]
  split
  · simp only [wired]
    split <;> simp
  · next long =>
      have frames := writeFrames_of_sender wired accepts (utf8Bytes text)
      have several : 0 < (utf8Bytes text).length / DATA_CAPACITY +
          if (utf8Bytes text).length % DATA_CAPACITY = 0 then 0 else 1 := by
        simp only [DATA_CAPACITY] at long ⊢
        omega
      exact ⟨(frames _ _ _ _ _ _).1, (frames _ _ _ _ _ _).2 several⟩

theorem write_of_no_sender {data : Option JString} (sendable : Sendable data)
    {protocol : BleProtocol} (unwired : protocol.mIBleSend = none) (accepts : ℕ → Bool) :
    (Ble.write protocol accepts data).result = .error .nullPointerException := by
  rcases sendable with ⟨text, rfl, some', short⟩
  simp only [Ble.write, if_neg some', if_neg (not_lt.2 short)]
  split
  · simp only [unwired]
  · next long =>
      have several : (utf8Bytes text).length / DATA_CAPACITY +
          (if (utf8Bytes text).length % DATA_CAPACITY = 0 then 0 else 1) ≠ 0 := by
        simp only [DATA_CAPACITY] at long ⊢
        omega
      rcases Nat.exists_eq_succ_of_ne_zero several with ⟨others, count⟩
      rw [count, writeFrames]
      simp only [unwired]

/-! ## What is asked of the wiring -/

/-- The callback set last on an owner is the one of the protocol which the owner uses. -/
def CallbacksReach (state : Objects × Record) : Prop :=
  ∀ owner protocol bleCallback, state.1.inUse owner = some protocol →
    state.2 owner = some bleCallback → protocol.mBleCallback = bleCallback

/-- A write from a thread of its own returns, and what there is to send goes through the client. -/
def SendsThroughOwn (client : Ref) (data : Option JString) : Output → Prop
  | .written sender outcome =>
      (∃ result, outcome.result = .ok result) ∧
        (Sendable data → sentArrays outcome.actions ≠ [] ∧ sender = some client)
  | .impossible | .unsupportedOperationException => True
  | _ => False

/-- A step leaves the callbacks where they are to be, and a write sends through its client. -/
def WiringSound (state : Objects × Record) (input : Input) : Prop :=
  CallbacksReach (Machine.observed react observe state input).1 ∧
    ∀ client onMainLooper accepts data, input = .write client onMainLooper accepts data →
      SendsThroughOwn client data (react state.1 input).2

/-- A protocol is put in only with the callback which was set last on its owner, a callback is set
only if no other owner of the protocol is to have another one, and a write has nothing to send or a
protocol which somebody has given the client as its sender. -/
def WiringSafe (state : Objects × Record) : Input → Prop
  | .setBleProtocol owner (some reference) =>
      ∀ protocol bleCallback, state.1.owners owner ≠ none →
        state.1.protocols reference = some protocol →
        state.2 owner = some bleCallback → protocol.mBleCallback = bleCallback
  | .setBleCallback owner bleCallback =>
      ∀ other found sharing reference, state.1.owners owner = some found →
        state.1.owners other = some sharing → other ≠ owner →
        found.bleProtocol = some reference → sharing.bleProtocol = some reference →
        ∀ expected, state.2 other = some expected → expected = bleCallback
  | .write client false _ data =>
      ∀ bleProtocol, state.1.owners client = some ⟨.client, bleProtocol⟩ →
        ∃ protocol, bleProtocol.bind state.1.protocols = some protocol ∧
          (Sendable data → protocol.mIBleSend = some client)
  | _ => True

/-- Owners have protocols which there are, and callbacks are set on owners which there are. -/
structure WellFormed (state : Objects × Record) : Prop where
  present : ∀ owner found reference, state.1.owners owner = some found →
    found.bleProtocol = some reference → state.1.protocols reference ≠ none
  unset : ∀ owner, state.1.owners owner = none → state.2 owner = none

/-- The callback of the protocol in use. -/
def Objects.callbackInUse (objects : Objects) (owner : Ref) : Option (Option Ref) :=
  (objects.inUse owner).map BleProtocol.mBleCallback

theorem callbacksReach_iff {state : Objects × Record} :
    CallbacksReach state ↔ ∀ owner used bleCallback,
      state.1.callbackInUse owner = some used → state.2 owner = some bleCallback →
        used = bleCallback := by
  constructor
  · intro reach owner used bleCallback inUse set'
    rcases Option.map_eq_some_iff.1 inUse with ⟨protocol, found, rfl⟩
    exact reach owner protocol bleCallback found set'
  · intro reach owner protocol bleCallback found set'
    exact reach owner _ bleCallback (by rw [Objects.callbackInUse, found, Option.map_some]) set'

theorem callbackInUse_of_owner {objects : Objects} {owner : Ref} {found : Owner}
    (owned : objects.owners owner = some found) :
    objects.callbackInUse owner =
      (found.bleProtocol.bind objects.protocols).map BleProtocol.mBleCallback := by
  simp [Objects.callbackInUse, Objects.inUse, owned]

theorem callbackInUse_of_none {objects : Objects} {owner : Ref}
    (missing : objects.owners owner = none) : objects.callbackInUse owner = none := by
  simp [Objects.callbackInUse, Objects.inUse, missing]

variable {objects : Objects} {record : Record}

/-- A protocol in the place of another one which has its callback, or of none, changes no callback
in use. -/
theorem callbackInUse_putProtocol (wellFormed : WellFormed (objects, record)) {reference : Ref}
    {protocol : BleProtocol}
    (same : ∀ old, objects.protocols reference = some old →
      protocol.mBleCallback = old.mBleCallback) (owner : Ref) :
    (objects.putProtocol reference protocol).callbackInUse owner =
      objects.callbackInUse owner := by
  have kept : (objects.putProtocol reference protocol).owners owner = objects.owners owner := rfl
  cases owned : objects.owners owner with
  | none => rw [callbackInUse_of_none owned, callbackInUse_of_none (kept.trans owned)]
  | some found =>
      rw [callbackInUse_of_owner owned, callbackInUse_of_owner (kept.trans owned)]
      cases uses : found.bleProtocol with
      | none => rfl
      | some used =>
          by_cases here : used = reference
          · subst here
            cases old : objects.protocols used with
            | none => exact absurd old (wellFormed.present owner found used owned uses)
            | some old' => simp [Objects.putProtocol, old, same old' old]
          · simp [Objects.putProtocol, here]

theorem reach_congr (reach : CallbacksReach (objects, record)) {after : Objects}
    (kept : ∀ owner, after.callbackInUse owner = objects.callbackInUse owner) :
    CallbacksReach (after, record) := by
  rw [callbacksReach_iff] at reach ⊢
  intro owner used bleCallback inUse
  exact reach owner used bleCallback ((kept owner).symm.trans inUse)

theorem WellFormed.putProtocol (wellFormed : WellFormed (objects, record)) (reference : Ref)
    (protocol : BleProtocol) : WellFormed (objects.putProtocol reference protocol, record) := by
  constructor
  · intro owner found used owned uses
    have present := wellFormed.present owner found used owned uses
    by_cases here : used = reference
    · simp [Objects.putProtocol, here]
    · simpa [Objects.putProtocol, here] using present
  · exact wellFormed.unset

theorem WellFormed.putOwner (wellFormed : WellFormed (objects, record)) {reference : Ref}
    {owner : Owner}
    (present : ∀ used, owner.bleProtocol = some used → objects.protocols used ≠ none) :
    WellFormed (objects.putOwner reference owner, record) := by
  constructor
  · intro other found used owned uses
    by_cases here : other = reference
    · subst here
      have same : owner = found := by simpa [Objects.putOwner] using owned
      subst same
      exact present used uses
    · exact wellFormed.present other found used (by simpa [Objects.putOwner, here] using owned) uses
  · intro other missing
    by_cases here : other = reference
    · simp [Objects.putOwner, here] at missing
    · exact wellFormed.unset other (by simpa [Objects.putOwner, here] using missing)

/-! ## The steps -/

/-- A new owner has a new protocol, and no callback has been set on it. -/
theorem reach_construct (wellFormed : WellFormed (objects, record))
    (reach : CallbacksReach (objects, record)) {owner protocol : Ref} (kind : Kind)
    (newOwner : objects.owners owner = none) (newProtocol : objects.protocols protocol = none) :
    CallbacksReach
      ((objects.putProtocol protocol .new).putOwner owner ⟨kind, some protocol⟩, record) := by
  have added : CallbacksReach (objects.putProtocol protocol .new, record) := by
    apply reach_congr reach
    apply callbackInUse_putProtocol wellFormed
    intro old found
    rw [newProtocol] at found
    cases found
  rw [callbacksReach_iff] at added ⊢
  intro other used bleCallback inUse set'
  by_cases here : other = owner
  · subst here
    rw [wellFormed.unset other newOwner] at set'
    cases set'
  · apply added other used bleCallback _ set'
    simpa [Objects.callbackInUse, Objects.inUse, Objects.putOwner, here] using inUse

theorem reach_setBleProtocol_iff (reach : CallbacksReach (objects, record)) {owner : Ref}
    (found : Owner) (bleProtocol : Option Ref) :
    CallbacksReach (objects.putOwner owner { found with bleProtocol := bleProtocol }, record) ↔
      ∀ protocol bleCallback, bleProtocol.bind objects.protocols = some protocol →
        record owner = some bleCallback → protocol.mBleCallback = bleCallback := by
  rw [callbacksReach_iff] at reach ⊢
  constructor
  · intro after protocol bleCallback given set'
    apply after owner _ bleCallback _ set'
    simp [Objects.callbackInUse, Objects.inUse, Objects.putOwner, given]
  · intro given other used bleCallback inUse set'
    by_cases here : other = owner
    · subst here
      have owned : (objects.putOwner other { found with bleProtocol := bleProtocol }).owners other =
          some { found with bleProtocol := bleProtocol } := by
        simp [Objects.putOwner]
      rw [callbackInUse_of_owner owned] at inUse
      rcases Option.map_eq_some_iff.1 inUse with ⟨protocol, put, rfl⟩
      exact given protocol bleCallback put set'
    · apply reach other used bleCallback _ set'
      simpa [Objects.callbackInUse, Objects.inUse, Objects.putOwner, here] using inUse

theorem callbackInUse_setBleCallback {other : Ref} {sharing : Owner}
    (otherOwned : objects.owners other = some sharing) (reference : Ref)
    (protocol : BleProtocol) (bleCallback : Option Ref) :
    (objects.putProtocol reference (protocol.setBleCallback bleCallback)).callbackInUse other =
      if sharing.bleProtocol = some reference then some bleCallback
      else objects.callbackInUse other := by
  have kept : (objects.putProtocol reference (protocol.setBleCallback bleCallback)).owners other =
      some sharing := otherOwned
  rw [callbackInUse_of_owner kept, callbackInUse_of_owner otherOwned]
  cases shared : sharing.bleProtocol with
  | none => simp
  | some used =>
      by_cases here : used = reference
      · simp [Objects.putProtocol, here, BleProtocol.setBleCallback]
      · simp [Objects.putProtocol, here]

/-- Setting a callback reaches all owners of the protocol. -/
theorem reach_setBleCallback_iff (reach : CallbacksReach (objects, record)) {owner : Ref}
    {found : Owner} (owned : objects.owners owner = some found) {reference : Ref}
    (uses : found.bleProtocol = some reference) (protocol : BleProtocol)
    (bleCallback : Option Ref) :
    CallbacksReach (objects.putProtocol reference (protocol.setBleCallback bleCallback),
        Function.update record owner (some bleCallback)) ↔
      ∀ other sharing, objects.owners other = some sharing → other ≠ owner →
        sharing.bleProtocol = some reference →
        ∀ expected, record other = some expected → expected = bleCallback := by
  rw [callbacksReach_iff] at reach ⊢
  constructor
  · intro after other sharing otherOwned apart shared expected set'
    have used := callbackInUse_setBleCallback otherOwned reference protocol bleCallback
    rw [if_pos shared] at used
    exact (after other bleCallback expected used (by simpa [apart] using set')).symm
  · intro agree other used expected isUsed set'
    cases otherOwned : objects.owners other with
    | none =>
        have kept : (objects.putProtocol reference
            (protocol.setBleCallback bleCallback)).owners other = none := otherOwned
        rw [callbackInUse_of_none kept] at isUsed
        cases isUsed
    | some sharing =>
        rw [callbackInUse_setBleCallback otherOwned] at isUsed
        by_cases same : other = owner
        · subst same
          cases owned.symm.trans otherOwned
          rw [if_pos uses] at isUsed
          simp only [Function.update_self] at set'
          exact Option.some.inj (isUsed.symm.trans set')
        · simp only [Function.update_of_ne same] at set'
          split at isUsed
          · next shared =>
              cases isUsed
              exact (agree other sharing otherOwned same shared expected set').symm
          · exact reach other used expected isUsed set'

/-- The call of a protocol is as it is to be if there is nothing to send or the sender is right. -/
theorem sendsThroughOwn_written_iff (client : Ref) (protocol : BleProtocol) (accepts : ℕ → Bool)
    (data : Option JString) :
    SendsThroughOwn client data
        (.written protocol.mIBleSend (Ble.write protocol accepts data)) ↔
      (Sendable data → protocol.mIBleSend = some client) := by
  simp only [SendsThroughOwn]
  by_cases sendable : Sendable data
  · cases wired : protocol.mIBleSend with
    | none =>
        have thrown := write_of_no_sender sendable wired accepts
        apply iff_of_false
        · rintro ⟨⟨result, returned⟩, _⟩
          cases thrown.symm.trans returned
        · intro given
          cases given sendable
    | some sender =>
        have sent := write_of_sender sendable wired accepts
        constructor
        · rintro ⟨_, through⟩ _
          exact (through sendable).2
        · intro own
          exact ⟨⟨true, sent.1⟩, fun _ => ⟨sent.2, own sendable⟩⟩
  · rw [write_of_not_sendable sendable]
    exact iff_of_true ⟨⟨false, rfl⟩, fun given => absurd given sendable⟩
      fun given => absurd given sendable

theorem write_sound_iff (objects : Objects) (record : Record) (client : Ref)
    (onMainLooper : Bool) (accepts : ℕ → Bool) (data : Option JString) :
    SendsThroughOwn client data (react objects (.write client onMainLooper accepts data)).2 ↔
      WiringSafe (objects, record) (.write client onMainLooper accepts data) := by
  simp only [react]
  cases owned : objects.owners client with
  | none => cases onMainLooper <;> simp [SendsThroughOwn, WiringSafe, owned]
  | some owner =>
      rcases owner with ⟨kind, bleProtocol⟩
      cases kind with
      | server => cases onMainLooper <;> simp [SendsThroughOwn, WiringSafe, owned]
      | client =>
          cases onMainLooper with
          | true => simp [SendsThroughOwn, WiringSafe]
          | false =>
              cases used : bleProtocol.bind objects.protocols with
              | none => simp [SendsThroughOwn, WiringSafe, owned, used]
              | some protocol =>
                  have written := sendsThroughOwn_written_iff client protocol accepts data
                  simp [WiringSafe, owned, used, written]

theorem react_write (objects : Objects) (client : Ref) (onMainLooper : Bool) (accepts : ℕ → Bool)
    (data : Option JString) :
    (react objects (.write client onMainLooper accepts data)).1 = objects := by
  simp only [react]
  split
  · split
    · rfl
    · split <;> rfl
  · rfl

/-- What is asked of a step which is no write is asked of the callbacks. -/
theorem sound_iff_reach {state : Objects × Record} {input : Input}
    (silent : ∀ client onMainLooper accepts data,
      input ≠ .write client onMainLooper accepts data) :
    WiringSound state input ↔
      CallbacksReach (Machine.observed react observe state input).1 := by
  apply and_iff_left
  intro client onMainLooper accepts data same
  exact absurd same (silent client onMainLooper accepts data)

theorem newProtocol_spec (wellFormed : WellFormed (objects, record))
    (reach : CallbacksReach (objects, record)) (reference : Ref) (protocol : BleProtocol) :
    CallbacksReach
        (Machine.observed react observe (objects, record) (.newProtocol reference protocol)).1 ∧
      WellFormed
        (Machine.observed react observe (objects, record) (.newProtocol reference protocol)).1 := by
  simp only [Machine.observed, react]
  cases new : objects.protocols reference with
  | some other => exact ⟨reach, wellFormed⟩
  | none =>
      refine ⟨reach_congr reach (callbackInUse_putProtocol wellFormed ?_),
        wellFormed.putProtocol reference protocol⟩
      intro old found
      cases new.symm.trans found

theorem construct_spec (wellFormed : WellFormed (objects, record))
    (reach : CallbacksReach (objects, record)) (kind : Kind) (owner protocol : Ref) :
    CallbacksReach
        (Machine.observed react observe (objects, record) (.construct kind owner protocol)).1 ∧
      WellFormed
        (Machine.observed react observe (objects, record) (.construct kind owner protocol)).1 := by
  simp only [Machine.observed, react]
  cases newOwner : objects.owners owner with
  | some other => exact ⟨reach, wellFormed⟩
  | none =>
      cases newProtocol : objects.protocols protocol with
      | some other => exact ⟨reach, wellFormed⟩
      | none =>
          refine ⟨reach_construct wellFormed reach kind newOwner newProtocol,
            (wellFormed.putProtocol protocol .new).putOwner ?_⟩
          intro used same
          cases same
          simp [Objects.putProtocol]

theorem setBleProtocol_spec (wellFormed : WellFormed (objects, record))
    (reach : CallbacksReach (objects, record)) (owner : Ref) (bleProtocol : Option Ref) :
    (CallbacksReach (Machine.observed react observe (objects, record)
        (.setBleProtocol owner bleProtocol)).1 ↔
      WiringSafe (objects, record) (.setBleProtocol owner bleProtocol)) ∧
      WellFormed (Machine.observed react observe (objects, record)
        (.setBleProtocol owner bleProtocol)).1 := by
  simp only [Machine.observed, react]
  cases owned : objects.owners owner with
  | none =>
      refine ⟨iff_of_true reach ?_, wellFormed⟩
      cases bleProtocol <;> simp [WiringSafe, owned]
  | some found =>
      cases bleProtocol with
      | none =>
          refine ⟨iff_of_true ?_ trivial, wellFormed.putOwner (by simp)⟩
          apply (reach_setBleProtocol_iff reach found none).2
          simp
      | some reference =>
          cases present : objects.protocols reference with
          | none =>
              have absent : (Option.all (fun reference => (objects.protocols reference).isSome)
                  (some reference)) = false := by simp [present]
              simp only [absent, Bool.false_eq_true, if_false]
              exact ⟨iff_of_true reach (by simp [WiringSafe, present]), wellFormed⟩
          | some protocol =>
              have given : (Option.all (fun reference => (objects.protocols reference).isSome)
                  (some reference)) = true := by simp [present]
              simp only [given, if_true]
              refine ⟨(reach_setBleProtocol_iff reach found (some reference)).trans ?_,
                wellFormed.putOwner (by simp [present])⟩
              simp [WiringSafe, owned, present]

theorem safe_setBleCallback_iff {owner : Ref} {found : Owner}
    (owned : objects.owners owner = some found) {reference : Ref}
    (uses : found.bleProtocol = some reference) (bleCallback : Option Ref) :
    WiringSafe (objects, record) (.setBleCallback owner bleCallback) ↔
      ∀ other sharing, objects.owners other = some sharing → other ≠ owner →
        sharing.bleProtocol = some reference →
        ∀ expected, record other = some expected → expected = bleCallback := by
  simp only [WiringSafe]
  constructor
  · intro safe other sharing otherOwned apart shared
    exact safe other found sharing reference owned otherOwned apart uses shared
  · intro agree other found' sharing reference' owned' otherOwned apart uses' shared
    cases owned.symm.trans owned'
    cases uses.symm.trans uses'
    exact agree other sharing otherOwned apart shared

theorem setBleCallback_spec (wellFormed : WellFormed (objects, record))
    (reach : CallbacksReach (objects, record)) (owner : Ref) (bleCallback : Option Ref) :
    (CallbacksReach (Machine.observed react observe (objects, record)
        (.setBleCallback owner bleCallback)).1 ↔
      WiringSafe (objects, record) (.setBleCallback owner bleCallback)) ∧
      WellFormed (Machine.observed react observe (objects, record)
        (.setBleCallback owner bleCallback)).1 := by
  simp only [Machine.observed, react]
  cases owned : objects.owners owner with
  | none => exact ⟨iff_of_true reach (by simp [WiringSafe, owned]), wellFormed⟩
  | some found =>
      cases uses : found.bleProtocol with
      | none =>
          simp only [uses]
          refine ⟨iff_of_true reach ?_, wellFormed⟩
          intro other found' sharing reference owned' _ _ uses'
          cases owned.symm.trans owned'
          cases uses.symm.trans uses'
      | some reference =>
          cases present : objects.protocols reference with
          | none => exact absurd present (wellFormed.present owner found reference owned uses)
          | some protocol =>
              simp only [uses, present]
              constructor
              · rw [safe_setBleCallback_iff owned uses]
                exact reach_setBleCallback_iff reach owned uses protocol bleCallback
              · have kept := wellFormed.putProtocol reference (protocol.setBleCallback bleCallback)
                refine ⟨kept.present, ?_⟩
                intro other missing
                have apart : other ≠ owner := by
                  rintro rfl
                  cases owned.symm.trans missing
                simpa [observe, apart] using kept.unset other missing

theorem read_spec (wellFormed : WellFormed (objects, record))
    (reach : CallbacksReach (objects, record)) (owner : Ref) (bytes : List UInt8) :
    CallbacksReach (Machine.observed react observe (objects, record) (.read owner bytes)).1 ∧
      WellFormed (Machine.observed react observe (objects, record) (.read owner bytes)).1 := by
  simp only [Machine.observed, react]
  cases owned : objects.owners owner with
  | none => exact ⟨reach, wellFormed⟩
  | some found =>
      cases uses : found.bleProtocol with
      | none =>
          simp only [uses]
          exact ⟨reach, wellFormed⟩
      | some reference =>
          cases present : objects.protocols reference with
          | none => exact absurd present (wellFormed.present owner found reference owned uses)
          | some protocol =>
              simp only [uses, present]
              refine ⟨reach_congr reach (callbackInUse_putProtocol wellFormed ?_),
                wellFormed.putProtocol reference _⟩
              intro old found'
              cases present.symm.trans found'
              exact receive_mBleCallback protocol bytes

/-- In a well-formed state whose callbacks are where they are to be, a step is sound exactly when it
is safe, and leaves a well-formed state. -/
theorem react_sound_iff {state : Objects × Record} (wellFormed : WellFormed state)
    (reach : CallbacksReach state) (input : Input) :
    (WiringSound state input ↔ WiringSafe state input) ∧
      WellFormed (Machine.observed react observe state input).1 := by
  rcases state with ⟨objects, record⟩
  cases input with
  | newProtocol reference protocol =>
      have spec := newProtocol_spec wellFormed reach reference protocol
      rw [sound_iff_reach (by simp)]
      exact ⟨iff_of_true spec.1 trivial, spec.2⟩
  | construct kind owner protocol =>
      have spec := construct_spec wellFormed reach kind owner protocol
      rw [sound_iff_reach (by simp)]
      exact ⟨iff_of_true spec.1 trivial, spec.2⟩
  | setBleProtocol owner bleProtocol =>
      rw [sound_iff_reach (by simp)]
      exact setBleProtocol_spec wellFormed reach owner bleProtocol
  | setBleCallback owner bleCallback =>
      rw [sound_iff_reach (by simp)]
      exact setBleCallback_spec wellFormed reach owner bleCallback
  | read owner bytes =>
      have spec := read_spec wellFormed reach owner bytes
      rw [sound_iff_reach (by simp)]
      exact ⟨iff_of_true spec.1 trivial, spec.2⟩
  | write client onMainLooper accepts data =>
      have unchanged := react_write objects client onMainLooper accepts data
      have next : (Machine.observed react observe (objects, record)
          (.write client onMainLooper accepts data)).1 = (objects, record) := by
        simp only [Machine.observed, unchanged]
        rfl
      rw [WiringSound, next, ← write_sound_iff objects record]
      refine ⟨⟨fun sound => sound.2 _ _ _ _ rfl, fun sends => ⟨reach, ?_⟩⟩, wellFormed⟩
      intro other onMain accepts' data' same
      cases same
      exact sends

/-- In every run, every write goes through its client and the callbacks stay where they are to be
exactly when each step is safe. -/
theorem wiringSound_iff (inputs : List Input) :
    Machine.Every (Machine.observed react observe) WiringSound (initial, fun _ => none) inputs ↔
      Machine.Every (Machine.observed react observe) WiringSafe (initial, fun _ => none)
        inputs := by
  apply Machine.every_iff_of_invariant fun state => WellFormed state ∧ CallbacksReach state
  · rintro state input ⟨wellFormed, reach⟩
    exact (react_sound_iff wellFormed reach input).1
  · rintro state input ⟨wellFormed, reach⟩ safe
    have step := react_sound_iff wellFormed reach input
    exact ⟨step.2, (step.1.2 safe).1⟩
  · constructor
    · exact ⟨by simp [initial], fun _ _ => rfl⟩
    · intro owner protocol bleCallback _ set'
      cases set'

/-- A client which has just been made writes `a`, from a thread of its own. -/
theorem new_client_not_sound :
    ¬Machine.Every (Machine.observed react observe) WiringSound (initial, fun _ => none)
      [.construct .client 0 0, .write 0 false (fun _ => true) (some (ascii ['a']))] := by
  intro every
  have sound := every [.construct .client 0 0]
    (.write 0 false (fun _ => true) (some (ascii ['a']))) [] rfl
  rcases (sound.2 0 false _ _ rfl).1 with ⟨result, returned⟩
  cases returned

end AndroidCollection.Ble.Wiring
