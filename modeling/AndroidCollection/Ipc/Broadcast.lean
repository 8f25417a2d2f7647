import AndroidCollection.Ipc.VerifyService
import AndroidCollection.Lib.Machine

/-!
# Answers to concurrent clients

Every client is answered once if the calls keep out of each other's way: none
registers between the registration and the scan of another one, and none begins
its broadcast while another one is open. Neither is enforced by the service.
-/

namespace AndroidCollection.Ipc

open Java Android VerifyService

namespace Phase

/-- The call has registered its callback and not looked for it yet. -/
def unscanned : Phase → Bool
  | .registered => true
  | .begun => true
  | _ => false

/-- The broadcast of the call is open. -/
def broadcasting : Phase → Bool
  | .begun => true
  | .scanned _ => true
  | .called => true
  | _ => false

/-- The call is past the step in which it calls its callback. -/
def answered : Phase → Bool
  | .called => true
  | .finished => true
  | _ => false

end Phase

/-- Appends the callbacks which are called to the record of a run. -/
def collect (before : List (Ref × ℤ)) (_ : VerifyService) (_ : Ref)
    (output : Option (Ref × ℤ)) : List (Ref × ℤ) :=
  before ++ output.toList

/-- No call has thrown, and each callback has been called once, with the result, by the time
its call is past that step, and not before. -/
structure Answers (world : VerifyService × List (Ref × ℤ)) : Prop where
  quiet : ∀ call, world.1.phase call ≠ .threw
  once : ∀ call, (world.2.filter fun answer => answer.1 = call) =
    if (world.1.phase call).answered then [(call, code)] else []

/-- A step which keeps out of the way of the other calls. -/
def Apart (service : VerifyService) (call : Ref) : Prop :=
  (service.phase call = .idle →
      ∀ other, (service.phase other).unscanned = false) ∧
    (service.phase call = .registered →
      ∀ other, (service.phase other).broadcasting = false)

/-! ## The invariant -/

structure Ordered (service : VerifyService) : Prop where
  listed : service.mRemoteCallbackList.callbacks = service.mICallback.toList
  /-- Only the call whose callback is in the field has still to look for it. -/
  owner : ∀ {call}, (service.phase call).unscanned = true → service.mICallback = some call
  single : ∀ {first second}, (service.phase first).broadcasting = true →
    (service.phase second).broadcasting = true → first = second
  opened : ∀ {call}, (service.phase call).broadcasting = true →
    service.mRemoteCallbackList.mBroadcastCount = 1
  closed : (∀ call, (service.phase call).broadcasting = false) →
    service.mRemoteCallbackList.mBroadcastCount ≤ 0
  active : ∀ {call}, service.phase call = .begun →
    service.mRemoteCallbackList.mActiveBroadcast = [call]
  found : ∀ {call target}, service.phase call = .scanned target → target = some call

theorem ordered_initial : Ordered initial := by
  constructor <;> simp [initial, Phase.unscanned, Phase.broadcasting]

/-! ## The steps -/

section Steps

variable {service : VerifyService} {call other : Ref} {phase : Phase}

theorem enter_self (phase : Phase) : (service.enter call phase).phase call = phase := by
  simp [enter]

theorem enter_other (different : other ≠ call) (phase : Phase) :
    (service.enter call phase).phase other = service.phase other := by
  simp [enter, different]

/-- What holds of the phase of a call after a step holds of the new phase, or held before. -/
theorem enter_cases (property : Phase → Prop)
    (holds : property ((service.enter call phase).phase other)) :
    other = call ∧ property phase ∨ other ≠ call ∧ property (service.phase other) := by
  by_cases same : other = call
  · rw [same, enter_self] at holds
    exact Or.inl ⟨same, holds⟩
  · rw [enter_other same] at holds
    exact Or.inr ⟨same, holds⟩

theorem register_list (ordered : Ordered service) (call : Ref) :
    (service.register call).mRemoteCallbackList =
      { service.mRemoteCallbackList with callbacks := [call] } := by
  have listed := ordered.listed
  unfold register
  cases is : service.mICallback with
  | none =>
      rw [is] at listed
      simp [RemoteCallbackList.register, listed]
  | some previous =>
      rw [is] at listed
      simp [RemoteCallbackList.register, RemoteCallbackList.unregister, listed]

/-- A call which enters a phase without an open broadcast, and had none open. -/
theorem closed_enter (notOpen : (service.phase call).broadcasting = false)
    (noneOpen : ∀ other, ((service.enter call phase).phase other).broadcasting = false)
    (other : Ref) : (service.phase other).broadcasting = false := by
  by_cases same : other = call
  · rw [same]
    exact notOpen
  · have after := noneOpen other
    rw [enter_other same] at after
    exact after

theorem ordered_register (ordered : Ordered service) (idle : service.phase call = .idle)
    (alone : ∀ other, (service.phase other).unscanned = false) :
    Ordered ((service.register call).enter call .registered) := by
  have list := register_list ordered call
  constructor
  · change (service.register call).mRemoteCallbackList.callbacks = [call]
    rw [list]
  · intro other unscanned
    rcases enter_cases (·.unscanned = true) unscanned with ⟨rfl, _⟩ | ⟨_, before⟩
    · rfl
    · exact absurd before (Bool.eq_false_iff.1 (alone other))
  · intro first second firstOpen secondOpen
    rcases enter_cases (·.broadcasting = true) firstOpen with ⟨_, contrary⟩ | ⟨_, firstBefore⟩
    · cases contrary
    · rcases enter_cases (·.broadcasting = true) secondOpen with ⟨_, contrary⟩ | ⟨_, secondBefore⟩
      · cases contrary
      · exact ordered.single firstBefore secondBefore
  · intro other broadcasting
    change (service.register call).mRemoteCallbackList.mBroadcastCount = 1
    rcases enter_cases (·.broadcasting = true) broadcasting with ⟨_, contrary⟩ | ⟨_, before⟩
    · cases contrary
    · rw [list]
      exact ordered.opened before
  · intro noneOpen
    change (service.register call).mRemoteCallbackList.mBroadcastCount ≤ 0
    rw [list]
    have notOpen : ((service.register call).phase call).broadcasting = false := by
      simp [register, idle, Phase.broadcasting]
    exact ordered.closed (closed_enter notOpen noneOpen)
  · intro other begun
    rcases enter_cases (· = .begun) begun with ⟨_, contrary⟩ | ⟨_, before⟩
    · cases contrary
    · have contrary := alone other
      rw [show service.phase other = .begun from before] at contrary
      cases contrary
  · intro other target scanned
    rcases enter_cases (· = .scanned target) scanned with ⟨_, contrary⟩ | ⟨_, before⟩
    · cases contrary
    · exact ordered.found before

theorem ordered_begin (ordered : Ordered service) (registered : service.phase call = .registered)
    (alone : ∀ other, (service.phase other).broadcasting = false) :
    ∃ list, service.mRemoteCallbackList.beginBroadcast = some list ∧
      Ordered ({ service with mRemoteCallbackList := list }.enter call .begun) := by
  have field := ordered.owner (show (service.phase call).unscanned = true by rw [registered]; rfl)
  have callbacks := ordered.listed
  rw [field] at callbacks
  have count := ordered.closed alone
  refine ⟨{ service.mRemoteCallbackList with mBroadcastCount := 1, mActiveBroadcast := [call] },
    ?_, ?_⟩
  · simp [RemoteCallbackList.beginBroadcast, count, callbacks]
  · constructor
    · exact ordered.listed
    · intro other unscanned
      rcases enter_cases (·.unscanned = true) unscanned with ⟨rfl, _⟩ | ⟨_, before⟩
      · exact field
      · exact ordered.owner before
    · intro first second firstOpen secondOpen
      rcases enter_cases (·.broadcasting = true) firstOpen with ⟨rfl, _⟩ | ⟨_, before⟩
      · rcases enter_cases (·.broadcasting = true) secondOpen with ⟨rfl, _⟩ | ⟨_, before⟩
        · rfl
        · exact absurd before (Bool.eq_false_iff.1 (alone second))
      · exact absurd before (Bool.eq_false_iff.1 (alone first))
    · intro other _
      rfl
    · intro noneOpen
      have contrary := noneOpen call
      rw [enter_self] at contrary
      cases contrary
    · intro other begun
      rcases enter_cases (· = .begun) begun with ⟨rfl, _⟩ | ⟨_, before⟩
      · rfl
      · have contrary := alone other
        rw [before] at contrary
        cases contrary
    · intro other target scanned
      rcases enter_cases (· = .scanned target) scanned with ⟨_, contrary⟩ | ⟨_, before⟩
      · cases contrary
      · exact ordered.found before

/-- The scan of a call whose callback is in the field finds it. -/
theorem scan_eq (ordered : Ordered service) (begun : service.phase call = .begun) :
    service.scan 0 service.mRemoteCallbackList.getRegisteredCallbackCount = some (some call) := by
  have field := ordered.owner (show (service.phase call).unscanned = true by rw [begun]; rfl)
  have callbacks := ordered.listed
  rw [field] at callbacks
  simp [RemoteCallbackList.getRegisteredCallbackCount, callbacks, scan,
    RemoteCallbackList.getBroadcastItem, ordered.active begun, field]

/-- A call with an open broadcast goes on to a phase in which it is still open. -/
theorem ordered_enter (ordered : Ordered service)
    (before : (service.phase call).broadcasting = true) (after : phase.broadcasting = true)
    (scanned : phase.unscanned = false) (own : ∀ target, phase = .scanned target →
      target = some call) : Ordered (service.enter call phase) := by
  have opened {other : Ref}
      (broadcasting : ((service.enter call phase).phase other).broadcasting = true) :
      other = call := by
    rcases enter_cases (·.broadcasting = true) broadcasting with ⟨same, _⟩ | ⟨_, earlier⟩
    · exact same
    · exact ordered.single earlier before
  constructor
  · exact ordered.listed
  · intro other unscanned
    rcases enter_cases (·.unscanned = true) unscanned with ⟨_, contrary⟩ | ⟨_, earlier⟩
    · exact absurd contrary (Bool.eq_false_iff.1 scanned)
    · exact ordered.owner earlier
  · intro first second firstOpen secondOpen
    exact (opened firstOpen).trans (opened secondOpen).symm
  · intro other _
    exact ordered.opened before
  · intro noneOpen
    have contrary := noneOpen call
    rw [enter_self, after] at contrary
    cases contrary
  · intro other begun
    rcases enter_cases (· = .begun) begun with ⟨_, contrary⟩ | ⟨_, earlier⟩
    · rw [contrary] at scanned
      cases scanned
    · exact ordered.active earlier
  · intro other target is
    rcases enter_cases (· = .scanned target) is with ⟨rfl, same⟩ | ⟨_, earlier⟩
    · exact own target same
    · exact ordered.found earlier

theorem ordered_finish (ordered : Ordered service) (called : service.phase call = .called) :
    ∃ list, service.mRemoteCallbackList.finishBroadcast = some list ∧
      Ordered ({ service with mRemoteCallbackList := list }.enter call .finished) := by
  have before : (service.phase call).broadcasting = true := by rw [called]; rfl
  have count := ordered.opened before
  have others {other : Ref} (different : other ≠ call) :
      (service.phase other).broadcasting = false := by
    rw [Bool.eq_false_iff]
    exact fun open' => different (ordered.single open' before)
  refine ⟨{ service.mRemoteCallbackList with mBroadcastCount := -1, mActiveBroadcast := [] },
    ?_, ?_⟩
  · simp [RemoteCallbackList.finishBroadcast, count]
  · constructor
    · exact ordered.listed
    · intro other unscanned
      rcases enter_cases (·.unscanned = true) unscanned with ⟨_, contrary⟩ | ⟨_, earlier⟩
      · cases contrary
      · exact ordered.owner earlier
    · intro first second firstOpen _
      rcases enter_cases (·.broadcasting = true) firstOpen with ⟨_, contrary⟩ | ⟨different, earlier⟩
      · cases contrary
      · exact absurd earlier (Bool.eq_false_iff.1 (others different))
    · intro other broadcasting
      rcases enter_cases (·.broadcasting = true) broadcasting with
        ⟨_, contrary⟩ | ⟨different, earlier⟩
      · cases contrary
      · exact absurd earlier (Bool.eq_false_iff.1 (others different))
    · intro _
      change (-1 : ℤ) ≤ 0
      decide
    · intro other begun
      rcases enter_cases (· = .begun) begun with ⟨_, contrary⟩ | ⟨different, earlier⟩
      · cases contrary
      · have contrary := others different
        rw [earlier] at contrary
        cases contrary
    · intro other target scanned
      rcases enter_cases (· = .scanned target) scanned with ⟨_, contrary⟩ | ⟨_, earlier⟩
      · cases contrary
      · exact ordered.found earlier

/-- A step which adds to the record what the new phase of its call asks for. -/
theorem answers_step {next : VerifyService} {before : List (Ref × ℤ)} {output : Option (Ref × ℤ)}
    (answers : Answers (service, before))
    (others : ∀ {other}, other ≠ call → next.phase other = service.phase other)
    (entered : next.phase call = phase) (quiet : phase ≠ .threw)
    (own : ∀ answer ∈ output, answer.1 = call)
    (adds : (if (service.phase call).answered then [(call, code)] else []) ++ output.toList =
      if phase.answered then [(call, code)] else []) :
    Answers (next, before ++ output.toList) := by
  constructor
  · intro other
    change next.phase other ≠ .threw
    by_cases same : other = call
    · rw [same, entered]
      exact quiet
    · rw [others same]
      exact answers.quiet other
  · intro other
    have once := answers.once other
    change (before.filter fun answer => answer.1 = other) = _ at once
    change ((before ++ output.toList).filter fun answer => answer.1 = other) =
      if (next.phase other).answered then [(other, code)] else []
    rw [List.filter_append, once]
    by_cases same : other = call
    · rw [same, entered, ← adds, List.filter_eq_self.2]
      intro answer among
      exact decide_eq_true (own answer (Option.mem_toList.1 among))
    · rw [others same, List.filter_eq_nil_iff.2, List.append_nil]
      intro answer among is
      exact same ((of_decide_eq_true is).symm.trans (own answer (Option.mem_toList.1 among)))

theorem ordered_answers_react {before : List (Ref × ℤ)} (ordered : Ordered service)
    (answers : Answers (service, before)) (apart : Apart service call) :
    Ordered (react service call).1 ∧
      Answers ((react service call).1, collect before service call (react service call).2) := by
  have unaffected {list : RemoteCallbackList} {phase : Phase} {other : Ref}
      (different : other ≠ call) :
      ({ service with mRemoteCallbackList := list }.enter call phase).phase other =
        service.phase other := enter_other different phase
  unfold react collect
  cases is : service.phase call with
  | idle =>
      refine ⟨ordered_register ordered is (apart.1 is), ?_⟩
      exact answers_step answers (fun different => enter_other different _) (enter_self _)
        (by simp) (by simp) (by simp [is, Phase.answered])
  | registered =>
      rcases ordered_begin ordered is (apart.2 is) with ⟨list, begins, after⟩
      simp only [begins]
      refine ⟨after, ?_⟩
      exact answers_step answers unaffected (enter_self _) (by simp) (by simp)
        (by simp [is, Phase.answered])
  | begun =>
      simp only [scan_eq ordered is]
      refine ⟨ordered_enter ordered (by rw [is]; rfl) rfl rfl ?_, ?_⟩
      · intro target same
        exact (Phase.scanned.inj same).symm
      · exact answers_step answers unaffected (enter_self _) (by simp) (by simp)
          (by simp [is, Phase.answered])
  | scanned target =>
      have own := ordered.found is
      refine ⟨ordered_enter ordered (by rw [is]; rfl) rfl rfl (by simp), ?_⟩
      exact answers_step answers unaffected (enter_self _) (by simp) (by simp [own])
        (by simp [is, own, Phase.answered])
  | called =>
      rcases ordered_finish ordered is with ⟨list, finishes, after⟩
      simp only [finishes]
      refine ⟨after, ?_⟩
      exact answers_step answers unaffected (enter_self _) (by simp) (by simp)
        (by simp [is, Phase.answered])
  | finished => exact ⟨ordered, by simpa using answers⟩
  | threw => exact absurd is (answers.quiet call)

end Steps

/-! ## Every interleaving -/

theorem answers_of_apart {calls : List Ref}
    (apart : Machine.Every (Machine.observed react collect) (fun world call => Apart world.1 call)
      (initial, []) calls) :
    Machine.Throughout (Machine.observed react collect) Answers (initial, []) calls := by
  have both := Machine.throughout_of_every (fun world => Ordered world.1 ∧ Answers world)
    (fun world call holds meets => ordered_answers_react holds.1 holds.2 meets)
    ⟨ordered_initial, ⟨fun _ => by simp [initial], fun _ => rfl⟩⟩ apart
  exact fun done rest split => (both done rest split).2

/-- The second call registers after the first one has scanned, and waits for it to finish. -/
theorem answers_of_overlapping_calls :
    Machine.Throughout (Machine.observed react collect) Answers (initial, [])
      [1, 1, 1, 2, 1, 1, 2, 2, 2, 2] := by
  apply answers_of_apart
  simp [Machine.observed, Apart, react, initial, register, enter, scan,
    RemoteCallbackList.register, RemoteCallbackList.unregister,
    RemoteCallbackList.beginBroadcast, RemoteCallbackList.getBroadcastItem,
    RemoteCallbackList.finishBroadcast, RemoteCallbackList.getRegisteredCallbackCount]
  refine ⟨rfl, ?_, ?_, ?_⟩
  all_goals
    intro other
    repeat' split
    all_goals rfl

/-- When two clients register before the first one scans, only the second one is answered. -/
theorem not_answers_of_every_interleaving :
    ¬∀ calls : List Ref,
      Machine.Throughout (Machine.observed react collect) Answers (initial, []) calls := by
  intro always
  have once := (always [1, 2, 1, 1, 1, 1, 2, 2, 2, 2] _ [] (List.append_nil _).symm).once 1
  revert once
  decide

end AndroidCollection.Ipc
