import AndroidCollection.Java.Basic
import AndroidCollection.Lib.Machine

/-!
# A USB connection

`UsbUtils` opens a device and keeps four fields for it: the interface which it
claims, which is the last of the device, the last endpoint of each direction which
it meets on any interface, and the connection. Closing releases the interface; the
connection itself is closed only when an interface cannot be claimed.

Opening a device gives no connection, or a new one which then grants the claim of
an interface or does not. The service for USB devices is looked up by other methods
and is kept.
-/

namespace AndroidCollection.Usb

open Java

/-- `UsbConstants.USB_DIR_IN`. -/
def USB_DIR_IN : UInt8 :=
  0x80

/-- `UsbConstants.USB_DIR_OUT`. -/
def USB_DIR_OUT : UInt8 :=
  0

structure UsbEndpoint where
  object : Ref
  address : UInt8
deriving DecidableEq

/-- The direction bit of the address. -/
def UsbEndpoint.getDirection (endpoint : UsbEndpoint) : UInt8 :=
  endpoint.address &&& 0x80

structure UsbInterface where
  object : Ref
  endpoints : List UsbEndpoint
deriving DecidableEq

structure UsbDevice where
  interfaces : List UsbInterface

structure UsbDeviceConnection where
  isOpen : Bool
  claimed : List UsbInterface

namespace UsbDeviceConnection

def claimInterface (connection : UsbDeviceConnection) (intf : UsbInterface) :
    UsbDeviceConnection :=
  { connection with claimed := intf :: connection.claimed }

/-- Closing gives up all interfaces. -/
def close (_connection : UsbDeviceConnection) : UsbDeviceConnection :=
  ⟨false, []⟩

end UsbDeviceConnection

/-- What becomes of opening a device: null, or a connection and what it answers to the claim. -/
inductive Outcome where
  | refused
  | opened (granted : Bool)

inductive Answer where
  | returned (result : Bool)
  | arrayIndexOutOfBoundsException
  | nullPointerException
deriving DecidableEq

/-- The fields of the class; `usbManager` says whether the service has been looked up. -/
structure UsbUtils where
  usbManager : Bool := false
  mInterface : Option UsbInterface := none
  mUsbEndpoIn : Option UsbEndpoint := none
  mUsbEndpointOut : Option UsbEndpoint := none
  mUsbConnection : Option UsbDeviceConnection := none

namespace UsbUtils

variable (self : UsbUtils)

/-- The body of the loop over the endpoints. -/
def meetEndpoint (endpoint : UsbEndpoint) : UsbUtils :=
  if endpoint.getDirection = USB_DIR_IN then { self with mUsbEndpoIn := some endpoint }
  else if endpoint.getDirection = USB_DIR_OUT then { self with mUsbEndpointOut := some endpoint }
  else self

/-- The body of the loop over the interfaces. -/
def meetInterface (intf : UsbInterface) : UsbUtils :=
  intf.endpoints.foldl meetEndpoint { self with mInterface := some intf }

/-- Both loops, after the first interface has been taken. -/
def scan (first : UsbInterface) (interfaces : List UsbInterface) : UsbUtils :=
  interfaces.foldl meetInterface { self with mInterface := some first }

/-- What follows once the device has given a connection. -/
def claim (connection : UsbDeviceConnection) (granted : Bool) : UsbUtils × Answer :=
  match self.mInterface with
  | none => ({ self with mUsbConnection := some connection }, .nullPointerException)
  | some intf =>
      if granted then
        ({ self with mUsbConnection := some (connection.claimInterface intf) }, .returned true)
      else
        ({ self with mUsbConnection := some connection.close }, .returned false)

def openUSBDevice (device : Option UsbDevice) (outcome : Outcome) : UsbUtils × Answer :=
  match device with
  | none => (self, .returned false)
  | some device =>
      match device.interfaces with
      | [] => (self, .arrayIndexOutOfBoundsException)
      | first :: others =>
          let self := self.scan first (first :: others)
          if self.usbManager then
            match outcome with
            | .refused => ({ self with mUsbConnection := none }, .returned false)
            | .opened granted => self.claim ⟨true, []⟩ granted
          else (self, .nullPointerException)

/-- Whatever `releaseInterface` throws is caught. -/
def closeUsbDevice (throws : Bool) : UsbUtils :=
  match self.mUsbConnection with
  | none => self
  | some _ =>
      if throws ∨ self.mInterface = none then self
      else { self with mUsbConnection := none, mUsbEndpoIn := none, mUsbEndpointOut := none }

/-- `getUsbManager`, by which the other methods look up the service. -/
def getUsbManager (available : Bool) : UsbUtils :=
  { self with usbManager := self.usbManager || available }

/-- A bulk transfer: the connection, the endpoint, which may be null, and the bytes. -/
structure BulkTransfer where
  connection : UsbDeviceConnection
  endpoint : Option UsbEndpoint
  buffer : List UInt8
  timeout : ℕ

/-- Writing; nothing for a `NullPointerException`. -/
def setReportControl (writeByte : List UInt8) : Option BulkTransfer :=
  self.mUsbConnection.map fun connection => ⟨connection, self.mUsbEndpointOut, writeByte, 20⟩

/-- Reading; nothing for a `NullPointerException`. -/
def getReportControl (readBytes : List UInt8) : Option BulkTransfer :=
  self.mUsbConnection.map fun connection => ⟨connection, self.mUsbEndpoIn, readBytes, 20⟩

end UsbUtils

/-! ## Runs -/

inductive Input where
  | openUSBDevice (device : Option UsbDevice) (outcome : Outcome)
  | closeUsbDevice (throws : Bool)
  | getUsbManager (available : Bool)

def react (self : UsbUtils) : Input → UsbUtils × Option Answer
  | .openUSBDevice device outcome =>
      let opened := self.openUSBDevice device outcome
      (opened.1, some opened.2)
  | .closeUsbDevice throws => (self.closeUsbDevice throws, none)
  | .getUsbManager available => (self.getUsbManager available, none)

def initial : UsbUtils :=
  {}

end AndroidCollection.Usb
