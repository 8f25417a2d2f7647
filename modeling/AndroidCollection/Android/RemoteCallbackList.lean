import AndroidCollection.Java.Basic

/-!
# Remote callback lists

`RemoteCallbackList` holds callbacks, each at most once. A broadcast works on the
callbacks which were registered when it began, and only one broadcast can be
open at a time. All methods are synchronized, so each of them is one step.
-/

namespace AndroidCollection.Android

open Java

structure RemoteCallbackList where
  callbacks : List Ref := []
  mBroadcastCount : ℤ := -1
  mActiveBroadcast : List Ref := []
deriving DecidableEq, Repr

namespace RemoteCallbackList

def register (list : RemoteCallbackList) (callback : Ref) : RemoteCallbackList :=
  { list with callbacks := list.callbacks.erase callback ++ [callback] }

def unregister (list : RemoteCallbackList) (callback : Ref) : RemoteCallbackList :=
  { list with callbacks := list.callbacks.erase callback }

def getRegisteredCallbackCount (list : RemoteCallbackList) : ℕ :=
  list.callbacks.length

/-- Throws an `IllegalStateException` while a broadcast is open. -/
def beginBroadcast (list : RemoteCallbackList) : Option RemoteCallbackList :=
  if 0 < list.mBroadcastCount then
    none
  else if list.callbacks = [] then
    some { list with mBroadcastCount := 0 }
  else
    some { list with
      mBroadcastCount := list.callbacks.length
      mActiveBroadcast := list.callbacks }

/-- Throws when the broadcast has no callback at the index. -/
def getBroadcastItem (list : RemoteCallbackList) (index : ℕ) : Option Ref :=
  list.mActiveBroadcast[index]?

/-- Throws an `IllegalStateException` outside of a broadcast. -/
def finishBroadcast (list : RemoteCallbackList) : Option RemoteCallbackList :=
  if list.mBroadcastCount < 0 then
    none
  else
    some { list with mBroadcastCount := -1, mActiveBroadcast := [] }

end RemoteCallbackList

end AndroidCollection.Android
