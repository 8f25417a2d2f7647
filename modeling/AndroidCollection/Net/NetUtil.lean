import AndroidCollection.Java.Integer
import AndroidCollection.Java.UrlCoding

/-!
# Posting a form

`NetUtil.encodeUrl` writes a map as a form, and `postHttp` and `postHttps` post a
text which should be such a form. The two are copies of one routine: they open a
connection, write the body, and hand what the server answers to a callback. They
differ in the class to which the connection is cast, in the words of their errors,
and in the body, which `postHttp` decodes before it writes it. Both decode the answer
in order to print it, and only an `IOException` is caught.
-/

namespace AndroidCollection.Net

open Java

/-- What `URL.openConnection` returns. An `HttpsURLConnection` is an `HttpURLConnection`. -/
inductive Protocol where
  | http
  | https
  | other
deriving DecidableEq

/-- A connection and how the server behaves on it; a field is false, or there is nothing in it, when
an `IOException` is thrown instead. -/
structure Connection where
  protocol : Protocol
  getsOutputStream : Bool
  writesBody : Bool
  responseCode : Option Int32
  /-- The bytes which are read from the input stream. -/
  response : Option (List UInt8)
  closesReader : Bool

inductive Thrown where
  | classCastException
  | illegalArgumentException
deriving DecidableEq

/-- The calls of a `NetCallback`. -/
inductive Report where
  | onSuccess (result : JString)
  | onError (message : JString)
deriving DecidableEq

inductive Ended where
  | thrown (exception : Thrown)
  | returned (reports : Option Report) (result : Option JString)
deriving DecidableEq

/-- What has been written to the connection, and how the call has ended. -/
structure Posted where
  written : Option (List UInt8)
  ended : Ended
deriving DecidableEq

/-- The lines which `readLine` returns one after the other, concatenated: all but the line ends. -/
def joinLines (text : JString) : JString :=
  text.filter fun unit => unit ≠ 0x0A && unit ≠ 0x0D

/-! ## The two routines -/

/-- What distinguishes `postHttp` and `postHttps`. -/
structure Routine where
  casts : Protocol → Bool
  body : JString → Option (List UInt8)
  words : JString

namespace Routine

variable (routine : Routine) (callback : Bool)

/-- The branch for an `IOException`. -/
def failed : Ended :=
  .returned
    (if callback then
      some (.onError (routine.words ++ ascii "network is error,please check".toList))
    else none) none

def refused (responseCode : Int32) : Ended :=
  .returned
    (if callback then
      some (.onError (routine.words ++ ascii "Status code ".toList ++ intToString responseCode ++
        ascii ",server not response or other error info".toList))
    else none) none

/-- The branch for the status 200. -/
def answered (response : List UInt8) (closesReader : Bool) : Ended :=
  let result := joinLines (utf8Decode response)
  match URLDecoder.decode result with
  | none => .thrown .illegalArgumentException
  | some _ =>
      if closesReader then
        .returned (if callback then some (.onSuccess result) else none) (some result)
      else routine.failed callback

/-- From the call of `getResponseCode` on. -/
def receive (connect : Connection) : Ended :=
  match connect.responseCode with
  | none => routine.failed callback
  | some responseCode =>
      if responseCode = 200 then
        match connect.response with
        | none => routine.failed callback
        | some response => routine.answered callback response connect.closesReader
      else routine.refused callback responseCode

/-- There is no connection when the URL is malformed or `openConnection` fails. -/
def post (network : Option Connection) (data : JString) : Posted :=
  match network with
  | none => ⟨none, routine.failed callback⟩
  | some connect =>
      if ¬routine.casts connect.protocol then ⟨none, .thrown .classCastException⟩
      else if ¬connect.getsOutputStream then ⟨none, routine.failed callback⟩
      else
        match routine.body data with
        | none => ⟨none, .thrown .illegalArgumentException⟩
        | some bytes =>
            ⟨some bytes,
              if connect.writesBody then routine.receive callback connect
              else routine.failed callback⟩

end Routine

def httpRoutine : Routine where
  casts protocol := protocol ≠ .other
  body data := (URLDecoder.decode data).map utf8Bytes
  words := []

def httpsRoutine : Routine where
  casts protocol := protocol = .https
  body data := some (utf8Bytes data)
  words := ascii "NetPost ".toList

/-- The callback is null or not. -/
def postHttp (callback : Bool) (network : Option Connection) (data : JString) : Posted :=
  httpRoutine.post callback network data

def postHttps (callback : Bool) (network : Option Connection) (data : JString) : Posted :=
  httpsRoutine.post callback network data

/-! ## Writing a form -/

def ampersand : UInt16 :=
  0x26

def equalsSign : UInt16 :=
  0x3D

/-- What the loop of `encodeUrl` appends for the entries in the order of `keySet`. A null key or
value throws a `NullPointerException`, which ends the loop. -/
def appendEntries : List (Option JString × Option JString) → JString
  | (some key, some value) :: entries =>
      URLEncoder.encode key ++ equalsSign :: URLEncoder.encode value ++
        ampersand :: appendEntries entries
  | _ => []

def encodeUrl (map : List (Option JString × Option JString)) : JString :=
  let params := appendEntries map
  if params.getLast? = some ampersand then params.dropLast else params

end AndroidCollection.Net
