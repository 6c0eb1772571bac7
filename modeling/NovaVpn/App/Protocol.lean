import NovaVpn.Services.RoundTrip

/-!
# The app's half of the channel

`Ipc/Protocol.cs`, and of `Ipc/IpcClient.cs` and `Services/NovaVpnService.cs` the frames:
the app has an implementation of the protocol of its own. `app_requests_understood` says
that the service decodes each of its requests to what the app meant, and
`service_messages_understood` that the app makes of the responses and events of the service
what was put into them, however the pipe cuts the stream.

A JSON text is written by the library of one side and read by that of the other.
`LawfulOn` says of which values the text is read as what was written: the app's library
writes 1.0 as 1, and reads nothing nested deeper than 64. A node that is not of the type
asked for throws, and a missing one, or a null, is no node.
-/

namespace NovaVpn.App

open NovaVpn.Framework NovaVpn.Json

inductive Method where
  | hello | listProfiles | getProfile | importOvpn | deleteProfile | setProfileFavorite
  | setProfileCredentials | renameProfile | connect | disconnect | disconnectAll | reconnect
  | getTunnels | getStatistics | listProcesses | listInstalledApps | runLeakTest | getSettings
  | setSettings | getLogs | getServiceInfo
  deriving DecidableEq, Repr

namespace Method

def value : Method → Nat
  | hello => 1
  | listProfiles => 100
  | getProfile => 101
  | importOvpn => 105
  | deleteProfile => 104
  | setProfileFavorite => 107
  | setProfileCredentials => 108
  | renameProfile => 109
  | connect => 200
  | disconnect => 201
  | disconnectAll => 202
  | reconnect => 203
  | getTunnels => 205
  | getStatistics => 206
  | listProcesses => 304
  | listInstalledApps => 305
  | runLeakTest => 402
  | getSettings => 500
  | setSettings => 501
  | getLogs => 502
  | getServiceInfo => 504

protected def toString : Method → String
  | hello => "Hello"
  | listProfiles => "ListProfiles"
  | getProfile => "GetProfile"
  | importOvpn => "ImportOvpn"
  | deleteProfile => "DeleteProfile"
  | setProfileFavorite => "SetProfileFavorite"
  | setProfileCredentials => "SetProfileCredentials"
  | renameProfile => "RenameProfile"
  | connect => "Connect"
  | disconnect => "Disconnect"
  | disconnectAll => "DisconnectAll"
  | reconnect => "Reconnect"
  | getTunnels => "GetTunnels"
  | getStatistics => "GetStatistics"
  | listProcesses => "ListProcesses"
  | listInstalledApps => "ListInstalledApps"
  | runLeakTest => "RunLeakTest"
  | getSettings => "GetSettings"
  | setSettings => "SetSettings"
  | getLogs => "GetLogs"
  | getServiceInfo => "GetServiceInfo"

/-- The method of the service that is meant. -/
def meant : Method → Ipc.Method
  | hello => .hello
  | listProfiles => .listProfiles
  | getProfile => .getProfile
  | importOvpn => .importOvpn
  | deleteProfile => .deleteProfile
  | setProfileFavorite => .setProfileFavorite
  | setProfileCredentials => .setProfileCredentials
  | renameProfile => .renameProfile
  | connect => .connect
  | disconnect => .disconnect
  | disconnectAll => .disconnectAll
  | reconnect => .reconnect
  | getTunnels => .getTunnels
  | getStatistics => .getStatistics
  | listProcesses => .listProcesses
  | listInstalledApps => .listInstalledApps
  | runLeakTest => .runLeakTest
  | getSettings => .getSettings
  | setSettings => .setSettings
  | getLogs => .getLogs
  | getServiceInfo => .getServiceInfo

/-- The numbers and the names mirror those of the service. -/
theorem mirrors (method : Method) :
    method.meant.toUInt16.toNat = method.value ∧ method.meant.toString = method.toString := by
  cases method <;> exact ⟨rfl, rfl⟩

end Method

/-! ## Nodes -/

structure JsonObject where
  doc : Doc
  isObject : doc.value.isObject = true

namespace JsonObject

def value (object : JsonObject) : Json := object.doc.value

def empty : JsonObject := ⟨.object, rfl⟩

end JsonObject

/-- `node[key]` of an object. -/
def member (value : Json) (key : String) : Option Json :=
  (value.field key).filter fun node => match node with | .null => false | _ => true

/-- `node?[key]`. -/
def memberOf (node : Option Json) (key : String) : Throws (Option Json) :=
  match node with
  | none => .ok none
  | some (.obj fields) => .ok (member (.obj fields) key)
  | some _ => .error ()

/-- `node?.GetValue<T>()`. -/
def getValue {α : Type} (convert : Json → Option α) : Option Json → Throws (Option α)
  | none => .ok none
  | some value =>
    match convert value with
    | none => .error ()
    | some a => .ok (some a)

/-- `node?.GetValue<T>() ?? fallback`. -/
def getValueOr {α : Type} (convert : Json → Option α) (fallback : α) (node : Option Json) :
    Throws α :=
  (getValue convert node).map (·.getD fallback)

/-- `node as JsonObject ?? new JsonObject()`. -/
def asObject : Option Json → Json
  | some (.obj fields) => .obj fields
  | _ => .object

/-- `GetValue<ulong>`. -/
def toUlong : Json → Option UInt64
  | .int n => if 0 ≤ n ∧ n < 2 ^ 64 then some (UInt64.ofNat n.toNat) else none
  | _ => none

/-- `GetValue<int>`. -/
def toInt : Json → Option Int
  | .int n => if -2 ^ 31 ≤ n ∧ n < 2 ^ 31 then some n else none
  | _ => none

/-- `GetValue<double>`. -/
def toDouble : Json → Option Rat
  | .int n => some (Json.toDouble n)
  | .float q => some q
  | _ => none

/-! ## Frames -/

def maxFrameBytes : Nat := 8 * 1024 * 1024

def protocolVersion : Int := 1

/-- `CallAsync`: the frame of a request. -/
def request (id : UInt64) (method : Method) (parameters : Option JsonObject) : Json :=
  Ipc.ofFields [("type", .str "request"), ("protocol", .int protocolVersion),
    ("id", Ipc.number id.toNat), ("method", Ipc.number method.value),
    ("methodName", .str method.toString), ("params", (parameters.getD .empty).value)]

/-- `WriteFrameAsync`: the bytes that are written. -/
def writeFrame (text : Ipc.JsonText) (frame : Json) : Throws (List Byte) :=
  match text.dump frame with
  | none => .error ()
  | some body =>
    if body.length > maxFrameBytes then .error ()
    else .ok (Ipc.lengthPrefix body.length ++ body)

/-- `BinaryPrimitives.ReadUInt32LittleEndian`. -/
def readUInt32LittleEndian (bytes : List Byte) : Nat :=
  bytes.foldr (fun byte above => byte.toNat + 256 * above) 0

/-- A round of the receive loop up to the parsed body, and what the pipe holds after it.
The read throws at the end of the pipe, the parse on what is no JSON, and a length that
is 0 or too large ends the loop as well. -/
def readFrame (text : Ipc.JsonText) (pipe : List (List Byte)) : Throws (Doc × List (List Byte)) :=
  match takeExact 4 pipe with
  | none => .error ()
  | some (lengthBytes, pipe) =>
    let length := readUInt32LittleEndian lengthBytes
    if length = 0 ∨ length > maxFrameBytes then .error ()
    else
      match takeExact length pipe with
      | none => .error ()
      | some (body, pipe) =>
        match text.parse body with
        | .error _ => .error ()
        | .ok value => .ok (value, pipe)

structure IpcResponse where
  id : UInt64 := 0
  success : Bool
  result : Json := .object
  errorCode : String := ""
  errorMessage : String := ""

/-- `IpcResponse.From`. -/
def IpcResponse.fromFrame (frame : Json) : Throws IpcResponse := do
  let success ← getValueOr asBool false (member frame "success")
  let id ← getValueOr toUlong 0 (member frame "id")
  let result := if success then asObject (member frame "result") else .object
  let errorCode ← getValueOr asString "" (← memberOf (member frame "error") "name")
  let errorMessage ← getValueOr asString "" (← memberOf (member frame "error") "message")
  return { id, success, result, errorCode, errorMessage }

/-! ## Events -/

namespace EventKind

def tunnelStateChanged : Int := 1000

def statisticsTick : Int := 1001

end EventKind

structure TunnelState where
  tunnelId : String
  state : String
  error : Option String

structure StatisticsSample where
  tunnelId : String
  bytesSent : UInt64
  bytesReceived : UInt64
  upBps : Rat
  downBps : Rat

/-- What the receive loop hands on: a response to whoever waits for its id, or an event of
a kind the app listens to. -/
inductive Heard where
  | response (id : UInt64) (frame : JsonObject)
  | tunnelState (state : TunnelState)
  | statistics (sample : StatisticsSample)

/-- `OnEvent`. -/
def onEvent (frame : Json) : Throws (Option Heard) := do
  let kind ← getValueOr toInt 0 (member frame "event")
  let payload := asObject (member frame "payload")
  if kind = EventKind.tunnelStateChanged then
    let tunnelId ← getValueOr asString "" (member payload "tunnelId")
    let state ← getValueOr asString "Unknown" (member payload "state")
    let error ← getValue asString (member payload "error")
    return some (.tunnelState { tunnelId, state, error })
  else if kind = EventKind.statisticsTick then
    let tunnelId ← getValueOr asString "" (member payload "tunnelId")
    let bytesSent ← getValueOr toUlong 0 (member payload "bytesSent")
    let bytesReceived ← getValueOr toUlong 0 (member payload "bytesReceived")
    let upBps ← getValueOr toDouble 0 (member payload "upBps")
    let downBps ← getValueOr toDouble 0 (member payload "downBps")
    return some (.statistics { tunnelId, bytesSent, bytesReceived, upBps, downBps })
  else return none

/-- What the loop does with a frame. -/
def hear (frame : JsonObject) : Throws (Option Heard) := do
  let type ← getValueOr asString "" (member frame.value "type")
  if type = "event" then onEvent frame.value
  else if type = "response" then
    let id ← getValueOr toUlong 0 (member frame.value "id")
    return some (.response id frame)
  else return none

/-- A parsed body: one that is no object is skipped. -/
def hearDoc (value : Doc) : Throws (Option Heard) :=
  if h : value.value.isObject = true then hear ⟨value, h⟩ else .ok none

/-- `ReceiveLoopAsync`, for at most `n` frames. Whatever is thrown ends it. -/
def receiveLoop (text : Ipc.JsonText) : Nat → List (List Byte) → List Heard
  | 0, _ => []
  | n + 1, pipe =>
    match readFrame text pipe with
    | .error _ => []
    | .ok (value, pipe) =>
      match hearDoc value with
      | .error _ => []
      | .ok heard => heard.toList ++ receiveLoop text n pipe

end NovaVpn.App
