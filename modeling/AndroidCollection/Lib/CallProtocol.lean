import Mathlib.Data.List.Basic
import Mathlib.Tactic.Common

/-!
# Objects which allow a call only in some states

A protocol says which methods an object allows, what a successful call makes of
it, and what is left of it when an allowed call fails or another one is made.
A sequence of calls ends with the first exception. When the protocol allows
each call of a sequence, the outcome can be computed without looking at single
calls again: they are all legal, and the object which is left is known.

References may be null, and then every call throws.
-/

universe u v

structure CallProtocol (Object : Type u) (Method : Type v) where
  allows : Object → Method → Bool
  /-- The object after a successful call. -/
  perform : Object → Method → Object
  /-- The object after an allowed call which failed. -/
  fail : Object → Object
  /-- The object after a call which is not allowed. -/
  refuse : Object → Method → Object

namespace CallProtocol

variable {Object : Type u} {Method : Type v}

/-- A call as it was made: the object, `none` for a null reference, and the method. -/
structure Call (Object : Type u) (Method : Type v) where
  receiver : Option Object
  method : Method
deriving DecidableEq

/-- What a sequence of calls leaves: the reference, the calls which were made, and whether the
sequence came to its end without an exception. -/
structure Invocations (Object : Type u) (Method : Type v) where
  reference : Option Object
  calls : List (Call Object Method)
  completed : Bool

variable (protocol : CallProtocol Object Method)

def Legal (call : Call Object Method) : Prop :=
  ∃ object, call.receiver = some object ∧ protocol.allows object call.method = true

def AllLegal (calls : List (Call Object Method)) : Prop :=
  ∀ call ∈ calls, protocol.Legal call

/-- The reference after a call, and whether the call returned without an exception. An allowed
call fails if `succeeds` says so. -/
def invoke (reference : Option Object) (method : Method) (succeeds : Bool) :
    Option Object × Bool :=
  match reference with
  | none => (none, false)
  | some object =>
      if protocol.allows object method then
        if succeeds then (some (protocol.perform object method), true)
        else (some (protocol.fail object), false)
      else
        (some (protocol.refuse object method), false)

/-- Calls in order, each with what becomes of it if it is allowed; the first exception ends the
sequence. -/
def invokeAll : Option Object → List (Method × Bool) → Invocations Object Method
  | reference, [] => ⟨reference, [], true⟩
  | reference, (method, succeeds) :: methods =>
      match protocol.invoke reference method succeeds with
      | (next, false) => ⟨next, [⟨reference, method⟩], false⟩
      | (next, true) =>
          let others := invokeAll next methods
          ⟨others.reference, ⟨reference, method⟩ :: others.calls, others.completed⟩

/-- What a sequence of calls makes of an object when each is allowed; `none` if one is not. -/
def afterAll : Object → List (Method × Bool) → Option Object
  | object, [] => some object
  | object, (method, succeeds) :: methods =>
      if protocol.allows object method then
        if succeeds then afterAll (protocol.perform object method) methods
        else some (protocol.fail object)
      else none

variable {protocol}

theorem legal_some {object : Object} {method : Method} :
    protocol.Legal ⟨some object, method⟩ ↔ protocol.allows object method = true := by
  simp [Legal]

@[simp]
theorem allLegal_nil : protocol.AllLegal [] := by
  simp [AllLegal]

@[simp]
theorem allLegal_cons {call : Call Object Method} {calls : List (Call Object Method)} :
    protocol.AllLegal (call :: calls) ↔ protocol.Legal call ∧ protocol.AllLegal calls := by
  simp [AllLegal]

@[simp]
theorem allLegal_append {first second : List (Call Object Method)} :
    protocol.AllLegal (first ++ second) ↔ protocol.AllLegal first ∧ protocol.AllLegal second := by
  simp [AllLegal, or_imp, forall_and]

/-- When each call is allowed, the sequence makes legal calls only, leaves the computed object and
is completed unless a call fails. -/
theorem invokeAll_of_afterAll {object final : Object} {methods : List (Method × Bool)}
    (allowed : protocol.afterAll object methods = some final) :
    protocol.AllLegal (protocol.invokeAll (some object) methods).calls ∧
      (protocol.invokeAll (some object) methods).reference = some final ∧
      (protocol.invokeAll (some object) methods).completed = methods.all (·.2) := by
  induction methods generalizing object with
  | nil =>
      cases allowed
      exact ⟨allLegal_nil, rfl, rfl⟩
  | cons attempt methods ih =>
      rcases attempt with ⟨method, succeeds⟩
      rw [afterAll] at allowed
      split at allowed
      · next permitted =>
          have legal := legal_some.mpr permitted
          cases succeeds with
          | true =>
              rcases ih allowed with ⟨others, last, completed⟩
              have made : protocol.invoke (some object) method true =
                  (some (protocol.perform object method), true) := by
                simp only [invoke, if_pos permitted, if_true]
              simp only [invokeAll, made, allLegal_cons, List.all_cons, Bool.true_and]
              exact ⟨⟨legal, others⟩, last, completed⟩
          | false =>
              have made : protocol.invoke (some object) method false =
                  (some (protocol.fail object), false) := by
                simp only [invoke, if_pos permitted, Bool.false_eq_true, if_false]
              simp only [Bool.false_eq_true, if_false] at allowed
              simp only [invokeAll, made, allLegal_cons, List.all_cons, Bool.false_and]
              exact ⟨⟨legal, allLegal_nil⟩, allowed, trivial⟩
      · cases allowed

theorem invokeAll_single {object : Object} {method : Method}
    (permitted : protocol.allows object method = true) (succeeds : Bool) :
    protocol.invokeAll (some object) [(method, succeeds)] =
      ⟨some (if succeeds then protocol.perform object method else protocol.fail object),
        [⟨some object, method⟩], succeeds⟩ := by
  cases succeeds <;> simp [invokeAll, invoke, permitted]

variable (protocol) in
/-- The first call of a sequence is made in any case. -/
theorem mem_invokeAll_cons (reference : Option Object) (method : Method) (succeeds : Bool)
    (methods : List (Method × Bool)) :
    ⟨reference, method⟩ ∈
      (protocol.invokeAll reference ((method, succeeds) :: methods)).calls := by
  rw [invokeAll]
  split <;> simp

/-- A sequence which begins with a call that is not allowed does not come to its end. -/
theorem completed_of_not_legal {reference : Option Object} {method : Method} {succeeds : Bool}
    {methods : List (Method × Bool)} (refused : ¬protocol.Legal ⟨reference, method⟩) :
    (protocol.invokeAll reference ((method, succeeds) :: methods)).completed = false := by
  cases reference with
  | none => rfl
  | some object =>
      have disallowed : ¬protocol.allows object method = true := fun allowed =>
        refused (legal_some.mpr allowed)
      simp only [invokeAll, invoke, if_neg disallowed]

end CallProtocol
