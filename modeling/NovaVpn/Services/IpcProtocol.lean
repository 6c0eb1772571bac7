import NovaVpn.Core.Json
import NovaVpn.Framework.Bits

/-!
# The wire contract

`Services/IpcProtocol.cpp`: the request methods, the frames and their JSON
forms. The text form of a JSON value is the library's (`JsonText`): `parse`
gives a value or an error, `dump` throws on text that is not UTF-8.
-/

namespace NovaVpn.Ipc

open NovaVpn.Framework

/-- `kMaxFrameBytes`. -/
def maxFrameBytes : Nat := 8 * 1024 * 1024

/-- `version::kIpcProtocol`. -/
def ipcProtocol : Int := 1

inductive Method where
  | hello
  | listProfiles
  | getProfile
  | addProfile
  | updateProfile
  | deleteProfile
  | importOvpn
  | exportProfile
  | setProfileFavorite
  | setProfileCredentials
  | renameProfile
  | connect
  | disconnect
  | disconnectAll
  | reconnect
  | answerChallenge
  | getTunnels
  | getStatistics
  | setPrimaryTunnel
  | getRoutingPolicy
  | setRoutingPolicy
  | getSplitTunnelConfig
  | setSplitTunnelConfig
  | listProcesses
  | listInstalledApps
  | getApplicationIcon
  | getFirewallPolicy
  | setFirewallPolicy
  | runLeakTest
  | getNetworkState
  | getSettings
  | setSettings
  | getLogs
  | exportSupportBundle
  | getServiceInfo
  | checkForUpdate
  | downloadUpdate
  | installUpdate
  deriving DecidableEq, Repr

namespace Method

/-- The number of a method on the wire. -/
def toUInt16 : Method → UInt16
  | hello => 1
  | listProfiles => 100
  | getProfile => 101
  | addProfile => 102
  | updateProfile => 103
  | deleteProfile => 104
  | importOvpn => 105
  | exportProfile => 106
  | setProfileFavorite => 107
  | setProfileCredentials => 108
  | renameProfile => 109
  | connect => 200
  | disconnect => 201
  | disconnectAll => 202
  | reconnect => 203
  | answerChallenge => 204
  | getTunnels => 205
  | getStatistics => 206
  | setPrimaryTunnel => 207
  | getRoutingPolicy => 300
  | setRoutingPolicy => 301
  | getSplitTunnelConfig => 302
  | setSplitTunnelConfig => 303
  | listProcesses => 304
  | listInstalledApps => 305
  | getApplicationIcon => 306
  | getFirewallPolicy => 400
  | setFirewallPolicy => 401
  | runLeakTest => 402
  | getNetworkState => 403
  | getSettings => 500
  | setSettings => 501
  | getLogs => 502
  | exportSupportBundle => 503
  | getServiceInfo => 504
  | checkForUpdate => 600
  | downloadUpdate => 601
  | installUpdate => 602

/-- `kMethods`: the methods with a display name. -/
def named : List (Method × String) :=
  [(.hello, "Hello"), (.listProfiles, "ListProfiles"), (.getProfile, "GetProfile"),
    (.addProfile, "AddProfile"), (.updateProfile, "UpdateProfile"),
    (.deleteProfile, "DeleteProfile"), (.importOvpn, "ImportOvpn"),
    (.exportProfile, "ExportProfile"), (.setProfileFavorite, "SetProfileFavorite"),
    (.setProfileCredentials, "SetProfileCredentials"), (.renameProfile, "RenameProfile"),
    (.connect, "Connect"), (.disconnect, "Disconnect"), (.disconnectAll, "DisconnectAll"),
    (.reconnect, "Reconnect"), (.answerChallenge, "AnswerChallenge"),
    (.getTunnels, "GetTunnels"), (.getStatistics, "GetStatistics"),
    (.setPrimaryTunnel, "SetPrimaryTunnel"), (.getRoutingPolicy, "GetRoutingPolicy"),
    (.setRoutingPolicy, "SetRoutingPolicy"), (.getSplitTunnelConfig, "GetSplitTunnelConfig"),
    (.setSplitTunnelConfig, "SetSplitTunnelConfig"), (.listProcesses, "ListProcesses"),
    (.listInstalledApps, "ListInstalledApps"), (.getApplicationIcon, "GetApplicationIcon"),
    (.getFirewallPolicy, "GetFirewallPolicy"), (.setFirewallPolicy, "SetFirewallPolicy"),
    (.runLeakTest, "RunLeakTest"), (.getNetworkState, "GetNetworkState"),
    (.getSettings, "GetSettings"), (.setSettings, "SetSettings"), (.getLogs, "GetLogs"),
    (.getServiceInfo, "GetServiceInfo")]

/-- The methods `isKnownMethod` and `toString` list apart. -/
def unnamed : List (Method × String) :=
  [(.exportSupportBundle, "ExportSupportBundle"), (.checkForUpdate, "CheckForUpdate"),
    (.downloadUpdate, "DownloadUpdate"), (.installUpdate, "InstallUpdate")]

/-- `isKnownMethod`: the method of a number that may appear on the wire. -/
def ofUInt16 (raw : UInt16) : Option Method :=
  ((named ++ unnamed).find? fun entry => entry.1.toUInt16 = raw).map (·.1)

protected def toString (method : Method) : String :=
  (((named ++ unnamed).find? fun entry => entry.1 = method).map (·.2)).getD "Unknown"

end Method

/-- Methods that change how the whole machine's traffic is treated, or install
code. -/
def requiresAdministrator : Method → Bool
  | .setRoutingPolicy | .setSplitTunnelConfig | .setFirewallPolicy | .installUpdate => true
  | _ => false

inductive EventKind where
  | tunnelStateChanged
  | statisticsTick
  | authChallenge
  | networkChanged
  | leakDetected
  | profileListChanged
  | updateProgress
  | logRecord
  | serviceShuttingDown
  deriving DecidableEq, Repr

namespace EventKind

def toUInt16 : EventKind → UInt16
  | tunnelStateChanged => 1000
  | statisticsTick => 1001
  | authChallenge => 1002
  | networkChanged => 1003
  | leakDetected => 1004
  | profileListChanged => 1005
  | updateProgress => 1006
  | logRecord => 1007
  | serviceShuttingDown => 1008

protected def toString : EventKind → String
  | tunnelStateChanged => "TunnelStateChanged"
  | statisticsTick => "StatisticsTick"
  | authChallenge => "AuthChallenge"
  | networkChanged => "NetworkChanged"
  | leakDetected => "LeakDetected"
  | profileListChanged => "ProfileListChanged"
  | updateProgress => "UpdateProgress"
  | logRecord => "LogRecord"
  | serviceShuttingDown => "ServiceShuttingDown"

/-- `kEvents`. -/
def named : List EventKind :=
  [.tunnelStateChanged, .statisticsTick, .authChallenge, .networkChanged, .leakDetected,
    .profileListChanged, .updateProgress, .logRecord, .serviceShuttingDown]

/-- `isKnownEvent`. -/
def ofUInt16 (raw : UInt16) : Option EventKind := named.find? fun kind => kind.toUInt16 = raw

end EventKind

structure Request where
  id : UInt64 := 0
  method : Method := .hello
  params : Doc := .object

/-- The result, or the error, as `success` says. -/
structure Response where
  id : UInt64 := 0
  success : Bool := true
  result : Json := .object
  errorCode : ErrorCode := .ok
  errorMessage : String := ""
  platformCode : UInt32 := 0

structure Event where
  kind : EventKind := .tunnelStateChanged
  payload : Json := .object

/-! ## Encoding -/

/-- An object from its fields, in any order. -/
def ofFields (fields : List (String × Json)) : Json :=
  .obj (fields.foldl (fun fs f => Json.insertField f.1 f.2 fs) [])

def number (n : Nat) : Json := .int n

def encodeRequest (request : Request) : Json :=
  ofFields [("type", .str "request"), ("protocol", .int ipcProtocol),
    ("id", number request.id.toNat), ("method", number request.method.toUInt16.toNat),
    ("methodName", .str request.method.toString), ("params", request.params.value)]

def encodeResponse (response : Response) : Json :=
  let outcome : String × Json :=
    if response.success then ("result", response.result)
    else ("error", ofFields
      [("code", number response.errorCode.toUInt16.toNat), ("name", .str response.errorCode.name),
        ("message", .str response.errorMessage), ("platform", number response.platformCode.toNat)])
  ofFields [("type", .str "response"), ("protocol", .int ipcProtocol),
    ("id", number response.id.toNat), ("success", .bool response.success), outcome]

def encodeEvent (event : Event) : Json :=
  ofFields [("type", .str "event"), ("protocol", .int ipcProtocol), ("id", .int 0),
    ("event", number event.kind.toUInt16.toNat), ("eventName", .str event.kind.toString),
    ("payload", event.payload)]

structure HelloResult where
  protocolVersion : Int
  serviceVersion : String
  callerIsAdministrator : Bool
  uptimeSeconds : Int

def encodeHelloResult (result : HelloResult) : Json :=
  ofFields [("protocolVersion", .int result.protocolVersion),
    ("serviceVersion", .str result.serviceVersion),
    ("callerIsAdministrator", .bool result.callerIsAdministrator),
    ("uptimeSeconds", .int result.uptimeSeconds)]

def makeSuccess (requestId : UInt64) (result : Json) : Response :=
  { id := requestId, success := true, result }

def makeError (requestId : UInt64) (status : Status) : Response where
  id := requestId
  success := false
  errorCode := if status.isOk then .unknown else status.code
  errorMessage := status.message
  platformCode := status.platformCode

/-! ## Decoding -/

def decodeRequest (value : Doc) : Result Request :=
  let root := value.value
  if !root.isObject then .error (Err.make .ipcProtocol "frame is not a JSON object")
  else if root.get "/type" Json.asString "" ≠ "request" then
    .error (Err.make .ipcProtocol "frame is not a request")
  else
    let protocol := root.get "/protocol" Json.asInt 0
    if protocol ≠ ipcProtocol then
      .error (Err.make .serviceVersion ("client speaks protocol " ++ toString protocol ++
        ", service speaks " ++ toString ipcProtocol))
    else
      let rawMethod := root.get "/method" Json.asInt (-1)
      if rawMethod < 0 ∨ rawMethod > 0xFFFF then
        .error (Err.make .ipcProtocol "request has no method")
      else
        match Method.ofUInt16 (UInt16.ofNat rawMethod.toNat) with
        | none => .error (Err.make .ipcProtocol ("unknown method " ++ toString rawMethod))
        | some method =>
          let id := root.get "/id" Json.asU64 0
          if id = 0 then .error (Err.make .ipcProtocol "request id must be non-zero")
          else
            match hp : value.field "params" with
            | none => .ok { id, method }
            | some params =>
              if params.isObject then
                .ok { id, method, params := ⟨params, value.ordered.fields.lookup hp⟩ }
              else .error (Err.make .ipcProtocol "params must be an object")

/-- A response as it is decoded: the error code is any number of the type the
enumeration rests on. -/
structure Received where
  id : UInt64 := 0
  success : Bool := true
  result : Json := .object
  errorCode : UInt16 := ErrorCode.ok.toUInt16
  errorMessage : String := ""
  platformCode : UInt32 := 0

def decodeResponse (value : Json) : Result Received :=
  if !value.isObject then .error (Err.make .ipcProtocol "frame is not a JSON object")
  else if value.get "/type" Json.asString "" ≠ "response" then
    .error (Err.make .ipcProtocol "frame is not a response")
  else
    let id := value.get "/id" Json.asU64 0
    if value.get "/success" Json.asBool false then
      .ok { id, success := true, result := (value.field "result").getD .object }
    else
      let code := value.get "/error/code" Json.asInt ErrorCode.unknown.toUInt16.toNat
      .ok { id, success := false
            errorCode := UInt16.ofBitVec (BitVec.ofInt 16 code)
            errorMessage := value.get "/error/message" Json.asString ""
            platformCode := value.get "/error/platform" Json.asU32 0 }

def decodeEvent (value : Json) : Result Event :=
  if !value.isObject then .error (Err.make .ipcProtocol "frame is not a JSON object")
  else if value.get "/type" Json.asString "" ≠ "event" then
    .error (Err.make .ipcProtocol "frame is not an event")
  else
    let raw := value.get "/event" Json.asInt (-1)
    if raw < 0 ∨ raw > 0xFFFF then .error (Err.make .ipcProtocol "event has no kind")
    else
      match EventKind.ofUInt16 (UInt16.ofNat raw.toNat) with
      | none => .error (Err.make .ipcProtocol ("unknown event " ++ toString raw))
      | some kind => .ok { kind, payload := (value.field "payload").getD .object }

/-! ## Framing -/

/-- The text form of JSON values, the library's. -/
structure JsonText where
  parse : List Byte → Result Doc
  dump : Json → Option (List Byte)

/-- The four bytes of a length, the lowest first. -/
def lengthPrefix (n : Nat) : List Byte :=
  [BitVec.ofNat 8 n, BitVec.ofNat 8 (n >>> 8), BitVec.ofNat 8 (n >>> 16), BitVec.ofNat 8 (n >>> 24)]

def frame (text : JsonText) (value : Json) : Result (List Byte) :=
  match text.dump value with
  | none => .error (Err.make .serializationError "cannot serialise frame")
  | some body =>
    if body.length > maxFrameBytes then
      .error (Err.make .ipcProtocol ("frame of " ++ toString body.length ++
        " bytes exceeds the limit"))
    else .ok (lengthPrefix body.length ++ body)

def readFrameLength : List Byte → Result Nat
  | b0 :: b1 :: b2 :: b3 :: _ =>
    let length := b0.toNat ||| b1.toNat <<< 8 ||| b2.toNat <<< 16 ||| b3.toNat <<< 24
    if length = 0 then .error (Err.make .ipcProtocol "empty frame")
    else if length > maxFrameBytes then
      .error (Err.make .ipcProtocol ("frame of " ++ toString length ++ " bytes exceeds the limit"))
    else .ok length
  | _ => .error (Err.make .ipcProtocol "short frame prefix")

/-- `readFrame`, of the bytes that come next on the pipe: the frame and what
is left after it. Running out of bytes is an error, as the end of the pipe
is. -/
def readFrame (text : JsonText) (input : List Byte) : Result (Doc × List Byte) :=
  if input.length < 4 then .error (Err.make .connectionReset "pipe closed by peer")
  else do
    let length ← readFrameLength (input.take 4)
    if (input.drop 4).length < length then .error (Err.make .connectionReset "pipe closed by peer")
    else
      let json ← text.parse ((input.drop 4).take length)
      .ok (json, (input.drop 4).drop length)

end NovaVpn.Ipc
