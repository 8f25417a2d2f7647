import AndroidCollection.Ble.Frame
import AndroidCollection.Java.Text

/-!
# `BleProtocol`

The protocol object cuts a string into frames (`write`) and reassembles received
frames in a buffer which it keeps between messages (`read`). Sending and the
user's callback belong to other objects, so a call of either method is modelled
by the calls it makes on them, in order, together with its result. The results
of `sendBytes` are an input of `write`.
-/

namespace AndroidCollection.Ble

open Java

def HEAD_CHECK : ℕ := 0

def HEAD_PACKAGES : ℕ := 1

def HEAD_INDEX : ℕ := 2

def HEAD_LENGTH : ℕ := 3

def DATA_HEAD : ℕ := 4

/-- `BleCallback.TYPE_WRITE` -/
def TYPE_WRITE : ℕ := 1

/-- `BleCallback.TYPE_READ` -/
def TYPE_READ : ℕ := 2

/-- A call on a `BleCallback`. The array of `compelete` is the one shared with the caller;
the model records its contents at the call. -/
inductive CallbackCall where
  | process (readAndWrite : ℕ) (curByte totalBytes : ℤ)
  | compelete (readAndWrite : ℕ) (bytes : List UInt8) (start stop : ℤ)
  | error (readAndWrite : ℕ) (code : ℤ)
deriving DecidableEq

structure BleProtocol where
  readBuffer : List UInt8
  length_readBuffer : readBuffer.length = MAX_SIZE
  mBleCallback : Option Ref
  mIBleSend : Option Ref

namespace BleProtocol

def new : BleProtocol where
  readBuffer := List.replicate MAX_SIZE 0
  length_readBuffer := List.length_replicate
  mBleCallback := none
  mIBleSend := none

def setBleCallback (protocol : BleProtocol) (bleCallback : Option Ref) : BleProtocol :=
  { protocol with mBleCallback := bleCallback }

def setIBleSend (protocol : BleProtocol) (iBleSend : Option Ref) : BleProtocol :=
  { protocol with mIBleSend := iBleSend }

end BleProtocol

/-- The sum of a range of an array in `short` arithmetic, cut to a byte. -/
def checkCode (b : List UInt8) (start stop : ℕ) : UInt8 :=
  let s := ((b.take stop).drop start).foldl (fun s x => s + x.toInt8.toInt16) (0 : Int16)
  (s &&& 0xFF).toInt8.toUInt8

def int2Bytes (value : ℕ) : UInt8 :=
  UInt8.ofNat value

/-! ## Writing -/

/-- What `write` does to its surroundings. -/
inductive WriteAction where
  | sendBytes (bytes : List UInt8)
  | callback (call : CallbackCall)
  | sleep (milliseconds : ℕ)
deriving DecidableEq

/-- The actions of a call of `write`, the frame buffer it has filled, and its result. -/
structure WriteOutcome where
  actions : List WriteAction
  buffer : List UInt8
  result : Except Throwable Bool

/-- The arrays handed to `sendBytes`. -/
def sentArrays (actions : List WriteAction) : List (List UInt8) :=
  actions.filterMap fun
    | .sendBytes bytes => some bytes
    | _ => none

/-- The header and the payload of one frame as `write` stores them. -/
def fillBuffer (buffer : List UInt8) (frames index : ℕ) (data : List UInt8) : List UInt8 :=
  let buffer := buffer.set HEAD_PACKAGES (int2Bytes frames)
  let buffer := buffer.set HEAD_INDEX (int2Bytes index)
  let buffer := buffer.set HEAD_LENGTH (int2Bytes data.length)
  Overwrite.overwrite buffer 0 data

/-- The loop over the frames of a long message; `remaining` frames are left at index `i`. -/
def writeFrames (protocol : BleProtocol) (accepts : ℕ → Bool) (sourceBytes : List UInt8)
    (frames lastFrameDataLength : ℕ) : ℕ → ℕ → List UInt8 → ℕ → WriteOutcome
  | 0, _, buffer, _ => ⟨[], buffer, .ok true⟩
  | remaining + 1, i, buffer, sendDataSum =>
      let validDataLength :=
        if DATA_CAPACITY ≤ sourceBytes.length - i * DATA_CAPACITY then DATA_CAPACITY
        else lastFrameDataLength
      let buffer := fillBuffer buffer frames i
        ((sourceBytes.drop (i * DATA_CAPACITY)).take validDataLength)
      let buffer := buffer.set HEAD_CHECK (checkCode buffer 1 buffer.length)
      match protocol.mIBleSend with
      | none => ⟨[], buffer, .error .nullPointerException⟩
      | some _ =>
          if !accepts i && protocol.mBleCallback.isSome then
            ⟨[.sendBytes sourceBytes, .callback (.error TYPE_WRITE 0)], buffer, .ok true⟩
          else
            let sendDataSum := sendDataSum + validDataLength
            let progress := if protocol.mBleCallback.isSome then
                [.callback (.process TYPE_WRITE sendDataSum sourceBytes.length)]
              else []
            let rest := writeFrames protocol accepts sourceBytes frames lastFrameDataLength
              remaining (i + 1) buffer sendDataSum
            ⟨.sendBytes sourceBytes :: progress ++ .sleep 100 :: rest.actions, rest.buffer,
              rest.result⟩

/-- `write`; the `k`-th call of `sendBytes` returns `accepts k`. -/
def write (protocol : BleProtocol) (accepts : ℕ → Bool) (data : Option JString) : WriteOutcome :=
  match data with
  | none => ⟨[], [], .ok false⟩
  | some text =>
      if text = [] then ⟨[], [], .ok false⟩
      else
        let sourceBytes := utf8Bytes text
        if MAX_SIZE < sourceBytes.length then ⟨[], [], .ok false⟩
        else
          let buffer := List.replicate FRAME_CAPACITY 0
          if sourceBytes.length ≤ DATA_CAPACITY then
            let buffer := fillBuffer buffer 1 0 sourceBytes
            match protocol.mIBleSend with
            | none => ⟨[], buffer, .error .nullPointerException⟩
            | some _ =>
                if !accepts 0 && protocol.mBleCallback.isSome then
                  ⟨[.sendBytes sourceBytes, .callback (.error TYPE_WRITE 0)], buffer, .ok true⟩
                else
                  ⟨[.sendBytes sourceBytes], buffer, .ok true⟩
          else
            let lastFrameDataLength := sourceBytes.length % DATA_CAPACITY
            let frames := sourceBytes.length / DATA_CAPACITY +
              if lastFrameDataLength = 0 then 0 else 1
            writeFrames protocol accepts sourceBytes frames lastFrameDataLength frames 0 buffer 0

/-! ## Reading -/

def BleProtocol.copyToReadBuffer (protocol : BleProtocol) (src : List UInt8)
    (srcPos destPos length : ℤ) : Except Throwable BleProtocol :=
  match copied : arraycopy src srcPos protocol.readBuffer destPos length with
  | .error thrown => .error thrown
  | .ok readBuffer =>
      .ok { protocol with
        readBuffer
        length_readBuffer := (length_of_arraycopy copied).trans protocol.length_readBuffer }

/-- `read`: the protocol afterwards and the callback calls, or the exception it throws. -/
def read (protocol : BleProtocol) (readBytes : List UInt8) :
    Except Throwable (BleProtocol × List CallbackCall) :=
  if readBytes.length ≠ FRAME_CAPACITY then
    .ok (protocol, [])
  else if checkCode readBytes 1 readBytes.length ≠ readBytes.getD HEAD_CHECK 0 then
    .ok (protocol, [])
  else
    let totalFrame := byteToInt (readBytes.getD HEAD_PACKAGES 0)
    let currFrame := byteToInt (readBytes.getD HEAD_INDEX 0)
    let dataLength := byteToInt (readBytes.getD HEAD_LENGTH 0)
    match protocol.copyToReadBuffer readBytes DATA_HEAD (currFrame * DATA_CAPACITY) dataLength with
    | .error thrown => .error thrown
    | .ok received =>
        let progress : CallbackCall :=
          .process TYPE_READ (currFrame * DATA_CAPACITY) (totalFrame * DATA_CAPACITY)
        let completion : List CallbackCall :=
          if totalFrame - 1 = currFrame then
            [.compelete TYPE_READ received.readBuffer 0
              ((totalFrame - 1) * DATA_CAPACITY + dataLength)]
          else []
        .ok (received, if received.mBleCallback.isSome then progress :: completion else [])

/-- One received array: a call of `read` which throws has changed nothing, and the stack
which made the call goes on with the next array. -/
def receive (protocol : BleProtocol) (readBytes : List UInt8) :
    BleProtocol × List CallbackCall :=
  match read protocol readBytes with
  | .ok received => received
  | .error _ => (protocol, [])

/-- The messages which a list of callback calls reports as completely read. -/
def completions (calls : List CallbackCall) : List (List UInt8) :=
  calls.filterMap fun
    | .compelete readAndWrite bytes start stop =>
        if readAndWrite = TYPE_READ then
          some ((bytes.take stop.toNat).drop start.toNat)
        else none
    | _ => none

end AndroidCollection.Ble
