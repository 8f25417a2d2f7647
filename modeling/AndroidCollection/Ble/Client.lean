import AndroidCollection.Ble.Gatt
import AndroidCollection.Lib.Machine

/-!
# Connections of a client

`BleClient` holds one `BluetoothGatt`, the device it is connected to, and a
counter of the attempts to reconnect. The user connects and disconnects; the
platform reports changes of the connection for any gatt which it has handed
out, in any order. `connectGatt` may return null.

`World` adds the gatts which have been handed out. A report for another gatt
cannot happen and changes nothing. Scanning, services and the transfer of data
do not touch these fields and are left out.
-/

namespace AndroidCollection.Ble

open Java

/-- `BleConfig.MAX_RECONNECT`, which nothing assigns. -/
def MAX_RECONNECT : ℕ := 2

structure BleClient where
  reconnect : ℕ := 0
  mConnectedDevice : Option Ref := none
  mBluetoothGatt : Option BluetoothGatt := none

namespace BleClient

structure World extends BleClient where
  gatts : List BluetoothGatt := []

inductive Effect where
  | connectGatt (device : Ref) (gatt : Option BluetoothGatt)
  | disconnect (gatt : BluetoothGatt)
  | close (gatt : BluetoothGatt)
  | requestConnectionPriority (gatt : BluetoothGatt)
  | discoverServices (gatt : BluetoothGatt)
deriving DecidableEq

variable (world : World)

/-- `connectGatt`, which hands out a new gatt if the platform `answers`. -/
def connectGatt (device : Ref) (answers : Bool) : Option BluetoothGatt :=
  if answers then some ⟨world.gatts.length, device⟩ else none

def connect (bluetoothDevice : Ref) (answers : Bool) : World × List Effect :=
  let gatt := connectGatt world bluetoothDevice answers
  ({ world with
      mBluetoothGatt := gatt
      gatts := gatt.toList ++ world.gatts }, [.connectGatt bluetoothDevice gatt])

def disconnect : World × List Effect :=
  match world.mBluetoothGatt with
  | none => (world, [])
  | some gatt => ({ world with mConnectedDevice := none }, [.disconnect gatt])

def setConnectedDevice (device : Ref) : World :=
  { world with
    mConnectedDevice := some device
    reconnect := 0 }

/-- The current gatt is closed, whichever gatt has been disconnected. -/
def closeCurrent : World × List Effect :=
  match world.mBluetoothGatt with
  | none => (world, [])
  | some gatt => ({ world with mBluetoothGatt := none }, [.close gatt])

/-- The attempt to reconnect, while the counter is at most `MAX_RECONNECT`. -/
def reconnectRemembered (answers : Bool) : World × List Effect :=
  match world.mConnectedDevice with
  | none => (world, [])
  | some device =>
      if world.reconnect ≤ MAX_RECONNECT then
        connect { world with reconnect := world.reconnect + 1 } device answers
      else
        (world, [])

def onConnectionStateChange (gatt : BluetoothGatt) (status newState : ℤ) (answers : Bool) :
    World × List Effect :=
  if status = GATT_SUCCESS then
    if newState = STATE_CONNECTED then
      (setConnectedDevice world gatt.device,
        [.requestConnectionPriority gatt, .discoverServices gatt])
    else if newState = STATE_DISCONNECTED then
      let (closed, closing) := closeCurrent world
      let (next, connecting) := reconnectRemembered closed answers
      (next, closing ++ connecting)
    else
      (world, [])
  else
    (world, [])

/-! ## Runs -/

inductive Input where
  | connect (bluetoothDevice : Ref) (answers : Bool)
  | disconnect
  | onConnectionStateChange (gatt : BluetoothGatt) (status newState : ℤ) (answers : Bool)

def react : Input → World × List Effect
  | .connect bluetoothDevice answers => connect world bluetoothDevice answers
  | .disconnect => disconnect world
  | .onConnectionStateChange gatt status newState answers =>
      if gatt ∈ world.gatts then onConnectionStateChange world gatt status newState answers
      else (world, [])

def initial : World := {}

/-- The report that a gatt has been disconnected. -/
def disconnection (gatt : BluetoothGatt) (answers : Bool) : Input :=
  .onConnectionStateChange gatt GATT_SUCCESS STATE_DISCONNECTED answers

variable {world}

theorem react_disconnection {gatt : BluetoothGatt} (issued : gatt ∈ world.gatts)
    (answers : Bool) :
    react world (disconnection gatt answers) =
      ((reconnectRemembered (closeCurrent world).1 answers).1,
        (closeCurrent world).2 ++ (reconnectRemembered (closeCurrent world).1 answers).2) := by
  simp [react, disconnection, issued, onConnectionStateChange, STATE_DISCONNECTED, STATE_CONNECTED]

end BleClient

end AndroidCollection.Ble
