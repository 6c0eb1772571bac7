import NovaVpn.Networking.IpAddress

/-!
# Profiles

`Profiles/Profile.h` and the checks of `Profiles/Profile.cpp`: the record of
one server with everything the user imported or configured about it. Secrets
are not in it; `credentialTarget` names an entry of the vault.
-/

namespace NovaVpn.Profiles

open NovaVpn.Net

/-- `std::chrono::system_clock` time, in its ticks of 100 ns. -/
abbrev SystemTime := Int

/-- `toMillis`, which drops the part below a millisecond. -/
def toMillis (time : SystemTime) : Int := time.tdiv 10000

def fromUnixMillis (millis : Int) : SystemTime := millis * 10000

/-- A time as it comes back from a column of milliseconds. -/
def storedTime (time : SystemTime) : SystemTime := fromUnixMillis (toMillis time)

inductive AuthMethod where
  | certificate
  | userPassword
  | certificateAndPassword
  | userPasswordTotp
  | staticKey
  deriving DecidableEq, Repr

namespace AuthMethod

def requiresPassword : AuthMethod → Bool
  | userPassword | certificateAndPassword | userPasswordTotp => true
  | _ => false

def requiresCertificate : AuthMethod → Bool
  | certificate | certificateAndPassword => true
  | _ => false

end AuthMethod

inductive EngineKind where
  | openVpn
  | wireGuard
  | plugin
  deriving DecidableEq, Repr

inductive Transport where
  | udp
  | tcp
  deriving DecidableEq, Repr

/-- `nova::toString`. -/
def Transport.toText : Transport → List Char
  | .udp => "udp".toList
  | .tcp => "tcp".toList

structure RemoteEntry where
  host : String
  port : UInt16 := 1194
  transport : Transport := .udp
  label : String := ""
  deriving DecidableEq, Repr

structure CredentialRef where
  credentialTarget : String := ""
  userName : String := ""
  savePassword : Bool := false
  requiresTotp : Bool := false
  deriving DecidableEq, Repr

structure CertificateSet where
  caPem : String := ""
  certificatePem : String := ""
  privateKeyTarget : String := ""
  storeThumbprint : String := ""
  tlsAuthKeyTarget : String := ""
  tlsWrapMode : Int := 0
  verifyX509Name : String := ""
  peerFingerprintSha256 : String := ""
  deriving DecidableEq, Repr

structure ProfileDnsSettings where
  useServerPushed : Bool := true
  servers : List IpAddress := []
  searchDomains : List String := []
  blockOutsideDns : Bool := true
  dohEnabled : Option Bool := none
  dohTemplate : String := ""
  deriving DecidableEq, Repr

structure ProfileMetadata where
  country : String := ""
  city : String := ""
  notes : String := ""
  tags : List String := []
  favorite : Bool := false
  imageRef : String := ""
  createdAt : SystemTime := 0
  modifiedAt : SystemTime := 0
  lastConnectedAt : SystemTime := 0
  connectCount : UInt64 := 0
  totalBytesSent : UInt64 := 0
  totalBytesReceived : UInt64 := 0
  deriving DecidableEq, Repr

structure ProfileOptions where
  autoConnect : Bool := false
  autoReconnect : Bool := true
  shuffleRemotes : Bool := false
  redirectGateway : Bool := true
  blockIpv6 : Bool := true
  mtu : Option UInt32 := none
  keepaliveIntervalSeconds : Option UInt32 := none
  keepaliveTimeoutSeconds : Option UInt32 := none
  allowCompression : Bool := false
  cipherOverride : String := ""
  authDigestOverride : String := ""
  proxyUrl : String := ""
  deriving DecidableEq, Repr

structure Profile where
  id : String := ""
  name : String := ""
  engine : EngineKind := .openVpn
  engineId : String := ""
  remotes : List RemoteEntry := []
  authMethod : AuthMethod := .certificateAndPassword
  credentials : CredentialRef := {}
  certificates : CertificateSet := {}
  dns : ProfileDnsSettings := {}
  options : ProfileOptions := {}
  metadata : ProfileMetadata := {}
  sourceConfig : String := ""
  sourceHash : String := ""
  deriving DecidableEq, Repr

def RemoteEntry.validate (r : RemoteEntry) : Status :=
  if r.host.isEmpty then Err.make .profileInvalid "remote host is empty"
  else if (IpAddress.tryParse r.host.toList).isNone && !isValidHostName r.host.toList then
    Err.make .profileInvalid ("remote host is not a valid name or address: " ++ r.host)
  else if r.port = 0 then Err.make .profileInvalid "remote port must be between 1 and 65535"
  else .ok

namespace Profile

/-- The checks after those of the remotes. -/
def validateSettings (p : Profile) : Status :=
  if p.engine = .plugin && p.engineId.isEmpty then
    Err.make .profileInvalid "plugin engine selected but no engine id given"
  else if p.authMethod.requiresCertificate && p.certificates.certificatePem.isEmpty &&
      p.certificates.storeThumbprint.isEmpty then
    Err.make .profileInvalid "authentication requires a client certificate but none is configured"
  else if p.certificates.caPem.isEmpty && p.certificates.peerFingerprintSha256.isEmpty &&
      p.authMethod ≠ .staticKey then
    Err.make .certificateInvalid
      "profile has neither a CA certificate nor a pinned peer fingerprint"
  else if !p.dns.useServerPushed && p.dns.servers.isEmpty then
    Err.make .profileInvalid "DNS is set to custom servers but none are listed"
  else if p.options.mtu.any fun mtu => mtu < 576 || mtu > 9000 then
    Err.make .profileInvalid "MTU must be between 576 and 9000"
  else .ok

def validate (p : Profile) : Status :=
  if p.name.isEmpty then Err.make .profileInvalid "profile name is empty"
  else if p.name.utf8ByteSize > 128 then
    Err.make .profileInvalid "profile name exceeds 128 characters"
  else if p.remotes.isEmpty then Err.make .profileInvalid "profile has no remote servers"
  else if p.remotes.length > 64 then
    Err.make .profileInvalid "profile lists more than 64 remotes"
  else
    match p.remotes.find? (·.validate.isError) with
    | some remote => remote.validate.withContext ("profile '" ++ p.name ++ "'")
    | none => p.validateSettings

end Profile

end NovaVpn.Profiles
