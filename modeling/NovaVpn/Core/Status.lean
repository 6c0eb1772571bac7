import Mathlib.Init

/-!
# Status, and the errors of the platform

`Core/Status.h`: a fallible operation returns a `Status`, an `ErrorCode` with
a message and the platform's own code. `Core/WinError.cpp`: the status made
of a Win32 error. Of `formatWin32` only the hexadecimal part is modelled; the
text the system adds to it is not part of the program.
-/

namespace NovaVpn

/-- The error taxonomy. -/
inductive ErrorCode where
  | ok
  | unknown | invalidArgument | notFound | alreadyExists | permissionDenied | unavailable
  | timeout | cancelled | notImplemented | outOfMemory | invalidState | interrupted
  | ioError | parseError | serializationError | checksumMismatch
  | configInvalid | configMissingField | profileInvalid | profileLocked
  | authFailed | credentialsMissing | certificateInvalid | certificateExpired
  | signatureInvalid | cryptoFailure | integrityViolation
  | networkUnreachable | dnsFailure | connectionRefused | connectionReset
  | handshakeFailed | tlsError | protocolError
  | adapterNotFound | adapterBusy | driverMissing | driverVersion | tunnelSetupFailed
  | mtuNegotiation
  | routeConflict | routeApplyFailed | firewallApplyFailed | firewallEngineBusy
  | splitTunnelFailed | leakDetected
  | serviceUnavailable | serviceVersion | ipcTransport | ipcProtocol | ipcPeerUntrusted
  | updateUnavailable | updateDownload | updateVerify | updateApply
  deriving DecidableEq, Repr

namespace ErrorCode

/-- The number of a code. -/
def toUInt16 : ErrorCode → UInt16
  | ok => 0
  | unknown => 1
  | invalidArgument => 2
  | notFound => 3
  | alreadyExists => 4
  | permissionDenied => 5
  | unavailable => 6
  | timeout => 7
  | cancelled => 8
  | notImplemented => 9
  | outOfMemory => 10
  | invalidState => 11
  | interrupted => 12
  | ioError => 100
  | parseError => 101
  | serializationError => 102
  | checksumMismatch => 103
  | configInvalid => 200
  | configMissingField => 201
  | profileInvalid => 202
  | profileLocked => 203
  | authFailed => 300
  | credentialsMissing => 301
  | certificateInvalid => 302
  | certificateExpired => 303
  | signatureInvalid => 304
  | cryptoFailure => 305
  | integrityViolation => 306
  | networkUnreachable => 400
  | dnsFailure => 401
  | connectionRefused => 402
  | connectionReset => 403
  | handshakeFailed => 404
  | tlsError => 405
  | protocolError => 406
  | adapterNotFound => 500
  | adapterBusy => 501
  | driverMissing => 502
  | driverVersion => 503
  | tunnelSetupFailed => 504
  | mtuNegotiation => 505
  | routeConflict => 600
  | routeApplyFailed => 601
  | firewallApplyFailed => 602
  | firewallEngineBusy => 603
  | splitTunnelFailed => 604
  | leakDetected => 605
  | serviceUnavailable => 700
  | serviceVersion => 701
  | ipcTransport => 702
  | ipcProtocol => 703
  | ipcPeerUntrusted => 704
  | updateUnavailable => 800
  | updateDownload => 801
  | updateVerify => 802
  | updateApply => 803

/-- `toString`. -/
def name : ErrorCode → String
  | ok => "Ok"
  | unknown => "Unknown"
  | invalidArgument => "InvalidArgument"
  | notFound => "NotFound"
  | alreadyExists => "AlreadyExists"
  | permissionDenied => "PermissionDenied"
  | unavailable => "Unavailable"
  | timeout => "Timeout"
  | cancelled => "Cancelled"
  | notImplemented => "NotImplemented"
  | outOfMemory => "OutOfMemory"
  | invalidState => "InvalidState"
  | interrupted => "Interrupted"
  | ioError => "IoError"
  | parseError => "ParseError"
  | serializationError => "SerializationError"
  | checksumMismatch => "ChecksumMismatch"
  | configInvalid => "ConfigInvalid"
  | configMissingField => "ConfigMissingField"
  | profileInvalid => "ProfileInvalid"
  | profileLocked => "ProfileLocked"
  | authFailed => "AuthFailed"
  | credentialsMissing => "CredentialsMissing"
  | certificateInvalid => "CertificateInvalid"
  | certificateExpired => "CertificateExpired"
  | signatureInvalid => "SignatureInvalid"
  | cryptoFailure => "CryptoFailure"
  | integrityViolation => "IntegrityViolation"
  | networkUnreachable => "NetworkUnreachable"
  | dnsFailure => "DnsFailure"
  | connectionRefused => "ConnectionRefused"
  | connectionReset => "ConnectionReset"
  | handshakeFailed => "HandshakeFailed"
  | tlsError => "TlsError"
  | protocolError => "ProtocolError"
  | adapterNotFound => "AdapterNotFound"
  | adapterBusy => "AdapterBusy"
  | driverMissing => "DriverMissing"
  | driverVersion => "DriverVersion"
  | tunnelSetupFailed => "TunnelSetupFailed"
  | mtuNegotiation => "MtuNegotiation"
  | routeConflict => "RouteConflict"
  | routeApplyFailed => "RouteApplyFailed"
  | firewallApplyFailed => "FirewallApplyFailed"
  | firewallEngineBusy => "FirewallEngineBusy"
  | splitTunnelFailed => "SplitTunnelFailed"
  | leakDetected => "LeakDetected"
  | serviceUnavailable => "ServiceUnavailable"
  | serviceVersion => "ServiceVersion"
  | ipcTransport => "IpcTransport"
  | ipcProtocol => "IpcProtocol"
  | ipcPeerUntrusted => "IpcPeerUntrusted"
  | updateUnavailable => "UpdateUnavailable"
  | updateDownload => "UpdateDownload"
  | updateVerify => "UpdateVerify"
  | updateApply => "UpdateApply"

end ErrorCode

/-- The outcome of a fallible operation; the default one is ok. -/
structure Status where
  code : ErrorCode := .ok
  message : String := ""
  platformCode : UInt32 := 0
  deriving DecidableEq, Repr

namespace Status

def ok : Status := {}

def isOk (s : Status) : Bool := s.code = .ok

def isError (s : Status) : Bool := s.code ≠ .ok

/-- Prefixes the message, keeping the code. -/
def withContext (s : Status) (context : String) : Status :=
  if s.isOk then s
  else
    { s with message := if s.message.isEmpty then context else context ++ ": " ++ s.message }

@[simp] theorem isError_ok : ok.isError = false := rfl

theorem isError_eq_not_isOk (s : Status) : s.isError = !s.isOk := by
  simp [isError, isOk]

@[simp] theorem code_withContext (s : Status) (context : String) :
    (s.withContext context).code = s.code := by
  unfold withContext
  split <;> rfl

@[simp] theorem isError_withContext (s : Status) (context : String) :
    (s.withContext context).isError = s.isError := by
  simp [isError]

end Status

/-- `Result<T>`: a value or the status that explains its absence. -/
abbrev Result (α : Type) := Except Status α

theorem Result.bind_eq_ok_iff {α β : Type} {r : Result α} {f : α → Result β} {b : β} :
    r >>= f = .ok b ↔ ∃ a, r = .ok a ∧ f a = .ok b := by
  cases r <;> simp [bind, Except.bind]

theorem Result.eq_ok_of_toOption {α : Type} {r : Result α} {a : α} (h : r.toOption = some a) :
    r = .ok a := by
  cases r with
  | error e => cases h
  | ok b =>
    cases h
    rfl

def Result.statusOrOk {α : Type} : Result α → Status
  | .ok _ => .ok
  | .error status => status

/-- A result does not carry an ok status. -/
def Result.Sound {α : Type} (r : Result α) : Prop := ∀ status, r = .error status → status.isError = true

theorem Result.Sound.ok {α : Type} (a : α) : Result.Sound (.ok a : Result α) := fun _ h => by cases h

theorem Result.Sound.error {α : Type} {status : Status} (h : status.isError = true) :
    Result.Sound (.error status : Result α) := fun _ heq => by
  cases heq
  exact h

theorem Result.Sound.bind {α β : Type} {r : Result α} {f : α → Result β} (h : r.Sound)
    (hf : ∀ a, r = .ok a → (f a).Sound) : Result.Sound (r >>= f) := by
  cases r with
  | error status => exact .error (h status rfl)
  | ok a => exact hf a rfl

namespace Err

def make (code : ErrorCode) (message : String) : Status := { code, message }

def invalidArgument (message : String) : Status := make .invalidArgument message
def notFound (message : String) : Status := make .notFound message
def alreadyExists (message : String) : Status := make .alreadyExists message
def invalidState (message : String) : Status := make .invalidState message
def parse (message : String) : Status := make .parseError message

end Err

namespace Win

/-- `NO_ERROR`, also `ERROR_SUCCESS`. -/
def noError : UInt32 := 0
def errorNotFound : UInt32 := 1168
def errorObjectAlreadyExists : UInt32 := 5010

/-- `classifyWin32`, over the numbers of `winerror.h`. -/
def classifyWin32 (code : UInt32) : ErrorCode :=
  match code.toNat with
  | 0 => .ok
  | 2 | 3 | 1060 | 1168 => .notFound
  | 5 | 1314 | 740 => .permissionDenied
  | 183 | 80 | 1073 | 5010 => .alreadyExists
  | 87 | 123 | 160 => .invalidArgument
  | 8 | 14 => .outOfMemory
  | 1460 | 121 | 258 => .timeout
  | 995 | 1223 => .cancelled
  | 120 => .notImplemented
  | 170 | 2404 | 1053 => .unavailable
  | 5023 | 1056 | 1062 => .invalidState
  | 1231 | 1232 | 54 => .networkUnreachable
  | 1225 => .connectionRefused
  | 64 | 1236 | 109 | 233 => .connectionReset
  | 38 | 30 | 29 | 112 => .ioError
  | 1392 | 23 => .checksumMismatch
  | 1326 | 86 | 1331 => .authFailed
  | 433 | 55 => .adapterNotFound
  | 1275 | 2001 | 119 => .driverMissing
  | _ => .unknown

/-- The digits `0x%08lX` prints. -/
def hexCode (code : UInt32) : String :=
  let digits := (Nat.toDigits 16 code.toNat).map Char.toUpper
  "0x" ++ String.ofList (List.replicate (8 - digits.length) '0' ++ digits)

def fromWin32 (code : UInt32) (context : String) : Status :=
  { code := classifyWin32 code, message := context ++ " failed: " ++ hexCode code,
    platformCode := code }

/-- Only the code for success is an ok status. -/
theorem isError_fromWin32 {code : UInt32} (hcode : code ≠ noError) (context : String) :
    (fromWin32 code context).isError = true := by
  have hne : classifyWin32 code ≠ .ok := by
    intro h
    unfold classifyWin32 at h
    split at h <;> cases h
    next hzero => exact hcode (UInt32.toNat_inj.mp hzero)
  simp [fromWin32, Status.isError, hne]

end Win

end NovaVpn
