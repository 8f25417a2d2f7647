import AndroidCollection.Ble.Server

/-!
# The devices bound to a server, and sending to them

`BleServer` adds a device to its list when it is connected and removes it when it
is disconnected, each time after a test of membership. So the list holds the
devices which have been connected and not been disconnected since, each once.

`sendBytes` takes the first device of the list and the characteristic of the
service `AbsGattService.DEFALUT`. The characteristic is made, with the service, by
`createBluetoothGattService` only, which nothing calls. So it is null, and sending
throws in every state, with or without devices. With a characteristic it would
still throw while no device is bound.
-/

namespace AndroidCollection.Ble

open Java

/-- The fields of `AbsGattService`, of which the value of the characteristic is all that is
written. -/
structure AbsGattService where
  mBluetoothGattService : Option Unit
  mBluetoothGattCharacteristic : Option (List UInt8)

namespace AbsGattService

/-- The constant, as it has been constructed. -/
def DEFALUT : AbsGattService :=
  ⟨none, none⟩

def createBluetoothGattService (_service : AbsGattService) : AbsGattService :=
  ⟨some (), some []⟩

end AbsGattService

/-- The arguments of the callback `onConnectionStateChange`. -/
structure ConnectionChange where
  device : Ref
  status : ℕ
  newState : ℕ

inductive SendException where
  | nullPointerException
  | indexOutOfBoundsException
deriving DecidableEq

namespace BleServer

/-- `sendBytes`: the device which is notified, and whether the platform has queued it. -/
def sendBytes (server : BleServer) (service : AbsGattService)
    (notifyCharacteristicChanged : Ref → List UInt8 → Bool) (bytes : List UInt8) :
    Except SendException (Ref × Bool) :=
  match service.mBluetoothGattCharacteristic with
  | none => .error .nullPointerException
  | some _ =>
      match server.mBindBluetoothDevices with
      | [] => .error .indexOutOfBoundsException
      | device :: _ => .ok (device, notifyCharacteristicChanged device bytes)

def afterChanges (server : BleServer) (changes : List ConnectionChange) : BleServer :=
  changes.foldl (fun current change =>
    current.onConnectionStateChange change.device change.newState) server

/-- Sending returns a boolean, which is true only if the notification has been queued to a bound
device. -/
def Sends (server : BleServer) (service : AbsGattService)
    (notifyCharacteristicChanged : Ref → List UInt8 → Bool) (bytes : List UInt8) : Prop :=
  ∃ device queued, server.sendBytes service notifyCharacteristicChanged bytes =
      .ok (device, queued) ∧
    (queued = true → device ∈ server.mBindBluetoothDevices ∧
      notifyCharacteristicChanged device bytes = true)

/-- The last change of the device to one of the two states was to the connected state. -/
def LastConnected (changes : List ConnectionChange) (device : Ref) : Prop :=
  ∃ done status rest, changes = done ++ ⟨device, status, STATE_CONNECTED⟩ :: rest ∧
    ∀ change ∈ rest, change.device = device → change.newState ≠ STATE_DISCONNECTED

/-- The list holds just the devices which are connected, each once. -/
structure BindsConnected (server : BleServer) (changes : List ConnectionChange) : Prop where
  nodup : server.mBindBluetoothDevices.Nodup
  mem_iff : ∀ device, device ∈ server.mBindBluetoothDevices ↔ LastConnected changes device

/-! ## The list -/

theorem mem_onConnectionStateChange {server : BleServer}
    (nodup : server.mBindBluetoothDevices.Nodup) (changed device : Ref) (newState : ℕ) :
    device ∈ (server.onConnectionStateChange changed newState).mBindBluetoothDevices ↔
      (changed = device ∧ newState = STATE_CONNECTED) ∨
        (device ∈ server.mBindBluetoothDevices ∧
          (changed = device → newState ≠ STATE_DISCONNECTED)) := by
  have apart : STATE_CONNECTED ≠ STATE_DISCONNECTED := by decide
  rw [onConnectionStateChange]
  split_ifs with connected present disconnected
  · subst connected
    grind
  · subst connected
    simp only [List.mem_append, List.mem_singleton]
    grind
  · subst disconnected
    rw [nodup.mem_erase_iff]
    grind
  · grind

theorem nodup_onConnectionStateChange {server : BleServer}
    (nodup : server.mBindBluetoothDevices.Nodup) (changed : Ref) (newState : ℕ) :
    (server.onConnectionStateChange changed newState).mBindBluetoothDevices.Nodup := by
  rw [onConnectionStateChange]
  split_ifs with connected present disconnected
  · exact nodup
  · change (server.mBindBluetoothDevices ++ [changed]).Nodup
    rw [List.nodup_append_comm]
    exact List.nodup_cons.mpr ⟨present, nodup⟩
  · exact nodup.erase changed
  · exact nodup

/-- The last change makes the device connected, or leaves it as it was. -/
theorem lastConnected_concat (changes : List ConnectionChange) (change : ConnectionChange)
    (device : Ref) :
    LastConnected (changes ++ [change]) device ↔
      (change.device = device ∧ change.newState = STATE_CONNECTED) ∨
        (LastConnected changes device ∧
          (change.device = device → change.newState ≠ STATE_DISCONNECTED)) := by
  constructor
  · rintro ⟨done, status, rest, split, kept⟩
    rcases List.eq_nil_or_concat rest with rfl | ⟨earlier, last, rfl⟩
    · rcases List.append_inj' split rfl with ⟨-, same⟩
      rcases List.cons.inj same with ⟨rfl, -⟩
      exact Or.inl ⟨rfl, rfl⟩
    · rw [List.concat_eq_append] at split kept
      rw [← List.cons_append, ← List.append_assoc] at split
      rcases List.append_inj' split rfl with ⟨rfl, same⟩
      rcases List.cons.inj same with ⟨rfl, -⟩
      refine Or.inr ⟨⟨done, status, earlier, rfl, ?_⟩, kept change (by simp)⟩
      intro other otherMem
      exact kept other (List.mem_append_left _ otherMem)
  · rintro (⟨same, connected⟩ | ⟨⟨done, status, rest, rfl, kept⟩, keeps⟩)
    · refine ⟨changes, change.status, [], ?_, by simp⟩
      rw [← same, ← connected]
    · refine ⟨done, status, rest ++ [change], by simp, ?_⟩
      intro other otherMem
      rcases List.mem_append.mp otherMem with earlier | last
      · exact kept other earlier
      · rcases List.mem_singleton.mp last with rfl
        exact keeps

theorem bindsConnected_afterChanges (bleProtocol : BleProtocol)
    (changes : List ConnectionChange) :
    (afterChanges ⟨[], bleProtocol⟩ changes).BindsConnected changes := by
  induction changes using List.reverseRecOn with
  | nil =>
      refine ⟨List.nodup_nil, fun device => iff_of_false List.not_mem_nil ?_⟩
      rintro ⟨done, status, rest, split, -⟩
      simp at split
  | append_singleton changes change ih =>
      rw [afterChanges, List.foldl_append]
      refine ⟨nodup_onConnectionStateChange ih.nodup _ _, ?_⟩
      intro device
      rw [lastConnected_concat, ← ih.mem_iff]
      exact mem_onConnectionStateChange ih.nodup _ _ _

/-! ## Sending -/

/-- Sending is right exactly if there is a characteristic and a bound device. -/
theorem sends_iff (server : BleServer) (service : AbsGattService)
    (notifyCharacteristicChanged : Ref → List UInt8 → Bool) (bytes : List UInt8) :
    server.Sends service notifyCharacteristicChanged bytes ↔
      service.mBluetoothGattCharacteristic ≠ none ∧ server.mBindBluetoothDevices ≠ [] := by
  rw [Sends, sendBytes]
  rcases service.mBluetoothGattCharacteristic with _ | value
  · simp
  · rcases server.mBindBluetoothDevices with _ | ⟨first, others⟩
    · simp
    · refine iff_of_true ⟨first, notifyCharacteristicChanged first bytes, rfl, ?_⟩ (by simp)
      intro queued
      exact ⟨List.mem_cons_self, queued⟩

/-- Had the service been created, a bound device would be enough. -/
theorem sends_createBluetoothGattService_iff (server : BleServer)
    (notifyCharacteristicChanged : Ref → List UInt8 → Bool) (bytes : List UInt8) :
    server.Sends AbsGattService.DEFALUT.createBluetoothGattService notifyCharacteristicChanged
        bytes ↔ server.mBindBluetoothDevices ≠ [] := by
  rw [sends_iff]
  simp [AbsGattService.createBluetoothGattService]

/-- After all changes of connections the list is right, and sending throws. -/
theorem bindsConnected_and_not_sends (bleProtocol : BleProtocol)
    (changes : List ConnectionChange) (notifyCharacteristicChanged : Ref → List UInt8 → Bool)
    (bytes : List UInt8) :
    (afterChanges ⟨[], bleProtocol⟩ changes).BindsConnected changes ∧
      ¬(afterChanges ⟨[], bleProtocol⟩ changes).Sends AbsGattService.DEFALUT
        notifyCharacteristicChanged bytes := by
  refine ⟨bindsConnected_afterChanges bleProtocol changes, ?_⟩
  rw [sends_iff]
  exact fun sends => sends.1 rfl

/-- With one device connected sending throws. -/
theorem not_sends_connected :
    ¬∀ bytes, (afterChanges ⟨[], .new⟩ [⟨1, GATT_SUCCESS, STATE_CONNECTED⟩]).Sends
      AbsGattService.DEFALUT (fun _ _ => true) bytes := by
  intro sends
  rcases sends [0x61] with ⟨device, queued, sent, -⟩
  cases sent

end BleServer

end AndroidCollection.Ble
