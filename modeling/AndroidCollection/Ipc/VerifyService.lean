import AndroidCollection.Android.RemoteCallbackList

/-!
# Asynchronous verification for several clients

Every call of `verifyAsync` runs on a binder thread of its own and is named here
after its callback, so that different calls have different callbacks. The calls
share the service: the registration is one step under the lock of the class, but
the broadcast which follows is made of steps between which other calls can run.
An interleaving is a list of calls, each of which makes its next step.
-/

namespace AndroidCollection.Ipc

open Java Android

/-- How far a call has come. -/
inductive Phase where
  | idle
  | registered
  | begun
  /-- After the scan, with the callback which it has found. -/
  | scanned (target : Option Ref)
  | called
  | finished
  | threw
deriving DecidableEq, Repr

structure VerifyService where
  mICallback : Option Ref
  mRemoteCallbackList : RemoteCallbackList
  phase : Ref → Phase

namespace VerifyService

def initial : VerifyService where
  mICallback := none
  mRemoteCallbackList := {}
  phase := fun _ => .idle

def enter (service : VerifyService) (callback : Ref) (phase : Phase) : VerifyService :=
  { service with
    phase := fun other => if other = callback then phase else service.phase other }

/-- The synchronized block of `verifyAsync`. -/
def register (service : VerifyService) (callback : Ref) : VerifyService :=
  let without :=
    match service.mICallback with
    | some previous => service.mRemoteCallbackList.unregister previous
    | none => service.mRemoteCallbackList
  { service with
    mICallback := some callback
    mRemoteCallbackList := without.register callback }

/-- The loop of `call` up to the callback of the service: what it finds among the items from an
index on, or nothing at all if it throws. -/
def scan (service : VerifyService) (index : ℕ) : ℕ → Option (Option Ref)
  | 0 => some none
  | remaining + 1 =>
      match service.mRemoteCallbackList.getBroadcastItem index with
      | none => none
      | some broadcastItem =>
          if service.mICallback = some broadcastItem then some (some broadcastItem)
          else scan service (index + 1) remaining

/-- The code with which `verifyAppAsync` calls `call`. -/
def code : ℤ := 0

/-- The next step of a call, with the callback and the code if it calls one. -/
def react (service : VerifyService) (call : Ref) : VerifyService × Option (Ref × ℤ) :=
  match service.phase call with
  | .idle => ((service.register call).enter call .registered, none)
  | .registered =>
      match service.mRemoteCallbackList.beginBroadcast with
      | some list => ({ service with mRemoteCallbackList := list }.enter call .begun, none)
      | none => (service.enter call .threw, none)
  | .begun =>
      match service.scan 0 service.mRemoteCallbackList.getRegisteredCallbackCount with
      | some target => (service.enter call (.scanned target), none)
      | none => (service.enter call .threw, none)
  | .scanned target =>
      (service.enter call .called, target.map fun broadcastItem => (broadcastItem, code))
  | .called =>
      match service.mRemoteCallbackList.finishBroadcast with
      | some list => ({ service with mRemoteCallbackList := list }.enter call .finished, none)
      | none => (service.enter call .threw, none)
  | .finished => (service, none)
  | .threw => (service, none)

end VerifyService

end AndroidCollection.Ipc
