import AndroidCollection.Java.Basic

/-!
# Gatt connections of the platform

The status codes of the callbacks, and the `BluetoothGatt` objects which
`connectGatt` hands out. Two of them are told apart by their number, also when
they are for one device.
-/

namespace AndroidCollection.Ble

open Java

/-- `BluetoothProfile.STATE_DISCONNECTED` -/
def STATE_DISCONNECTED : ℕ := 0

/-- `BluetoothProfile.STATE_CONNECTED` -/
def STATE_CONNECTED : ℕ := 2

/-- `BluetoothGatt.GATT_SUCCESS` -/
def GATT_SUCCESS : ℕ := 0

structure BluetoothGatt where
  number : ℕ
  device : Ref
deriving DecidableEq

end AndroidCollection.Ble
