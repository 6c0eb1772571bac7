import NovaVpn.Core.Json
import NovaVpn.Networking.Canonical
import NovaVpn.Profiles.Tables

/-!
# The JSON form of a profile

`toJson` and `fromJson` of `Profiles/Profile.cpp`. `fromJson` takes a field
that is missing or of another type for its default, and fails on an engine, an
authentication method or a DNS server that it cannot read.

`fromJson_shown`: a profile comes back from its JSON form as it was, less the
secrets where those are left out, but for its times, which come back in whole
milliseconds; `json_round_trip` is about the profiles that have such times.
-/

namespace NovaVpn.Profiles

open NovaVpn.Net

/-! ## Names -/

/-- `kAuthMethods`. -/
def authMethods : List (AuthMethod × String) :=
  [(.certificate, "certificate"), (.userPassword, "user-password"),
    (.certificateAndPassword, "certificate-and-password"),
    (.userPasswordTotp, "user-password-totp"), (.staticKey, "static-key")]

protected def AuthMethod.toString (method : AuthMethod) : String :=
  ((authMethods.find? fun entry => entry.1 = method).map (·.2)).getD "unknown"

def parseAuthMethod (text : String) : Option AuthMethod :=
  (authMethods.find? fun entry => Str.equalsIgnoreCase text.toList entry.2.toList).map (·.1)

/-- `kEngines`. -/
def engines : List (EngineKind × String) :=
  [(.openVpn, "openvpn"), (.wireGuard, "wireguard"), (.plugin, "plugin")]

protected def EngineKind.toString (kind : EngineKind) : String :=
  ((engines.find? fun entry => entry.1 = kind).map (·.2)).getD "unknown"

def parseEngineKind (text : String) : Option EngineKind :=
  (engines.find? fun entry => Str.equalsIgnoreCase text.toList entry.2.toList).map (·.1)

theorem parseAuthMethod_toString (method : AuthMethod) :
    parseAuthMethod method.toString = some method := by
  cases method <;> rfl

theorem parseEngineKind_toString (kind : EngineKind) :
    parseEngineKind kind.toString = some kind := by
  cases kind <;> rfl

/-! ## Writing -/

/-- A field that is written only if there is a value. -/
def optionalField {α : Type} (key : String) (convert : α → Doc) (value : Option α) :
    List (String × Doc) :=
  (value.map fun v => (key, convert v)).toList

def remoteJson (remote : RemoteEntry) : Doc := .ofFields
  [("host", .str remote.host), ("port", .int remote.port.toNat),
    ("transport", .str (String.ofList remote.transport.toText)), ("label", .str remote.label)]

def credentialsJson (c : CredentialRef) : Doc := .ofFields
  [("credentialTarget", .str c.credentialTarget), ("userName", .str c.userName),
    ("savePassword", .bool c.savePassword), ("requiresTotp", .bool c.requiresTotp)]

def certificateFields (c : CertificateSet) (includeSecrets : Bool) : List (String × Doc) :=
  [("caPem", .str c.caPem), ("certificatePem", .str c.certificatePem),
    ("storeThumbprint", .str c.storeThumbprint), ("tlsWrapMode", .int c.tlsWrapMode),
    ("verifyX509Name", .str c.verifyX509Name),
    ("peerFingerprintSha256", .str c.peerFingerprintSha256)] ++
  if includeSecrets then
    [("privateKeyTarget", .str c.privateKeyTarget), ("tlsAuthKeyTarget", .str c.tlsAuthKeyTarget)]
  else []

def dnsFields (dns : ProfileDnsSettings) : List (String × Doc) :=
  [("useServerPushed", .bool dns.useServerPushed),
    ("servers", .ofItems (dns.servers.map fun server => .str server.toString)),
    ("searchDomains", .ofItems (dns.searchDomains.map .str)),
    ("blockOutsideDns", .bool dns.blockOutsideDns), ("dohTemplate", .str dns.dohTemplate)] ++
  optionalField "dohEnabled" .bool dns.dohEnabled

def optionFields (o : ProfileOptions) : List (String × Doc) :=
  [("autoConnect", .bool o.autoConnect), ("autoReconnect", .bool o.autoReconnect),
    ("shuffleRemotes", .bool o.shuffleRemotes), ("redirectGateway", .bool o.redirectGateway),
    ("blockIpv6", .bool o.blockIpv6), ("allowCompression", .bool o.allowCompression),
    ("cipherOverride", .str o.cipherOverride), ("authDigestOverride", .str o.authDigestOverride),
    ("proxyUrl", .str o.proxyUrl)] ++
  optionalField "mtu" (fun n => .int n.toNat) o.mtu ++
  optionalField "keepaliveIntervalSeconds" (fun n => .int n.toNat) o.keepaliveIntervalSeconds ++
  optionalField "keepaliveTimeoutSeconds" (fun n => .int n.toNat) o.keepaliveTimeoutSeconds

def metadataFields (m : ProfileMetadata) : List (String × Doc) :=
  [("country", .str m.country), ("city", .str m.city), ("notes", .str m.notes),
    ("tags", .ofItems (m.tags.map .str)), ("favorite", .bool m.favorite),
    ("imageRef", .str m.imageRef), ("createdAt", .int (toMillis m.createdAt)),
    ("modifiedAt", .int (toMillis m.modifiedAt)),
    ("lastConnectedAt", .int (toMillis m.lastConnectedAt)),
    ("connectCount", .int m.connectCount.toNat), ("totalBytesSent", .int m.totalBytesSent.toNat),
    ("totalBytesReceived", .int m.totalBytesReceived.toNat)]

/-- Secrets are the references to credentials and the source. -/
def Profile.jsonFields (p : Profile) (includeSecrets : Bool) : List (String × Doc) :=
  [("schema", .int 1), ("id", .str p.id), ("name", .str p.name),
    ("engine", .str p.engine.toString), ("engineId", .str p.engineId),
    ("remotes", .ofItems (p.remotes.map remoteJson)), ("authMethod", .str p.authMethod.toString),
    ("certificates", .ofFields (certificateFields p.certificates includeSecrets)),
    ("dns", .ofFields (dnsFields p.dns)), ("options", .ofFields (optionFields p.options)),
    ("metadata", .ofFields (metadataFields p.metadata)), ("sourceHash", .str p.sourceHash)] ++
  if includeSecrets then
    [("credentials", credentialsJson p.credentials), ("sourceConfig", .str p.sourceConfig)]
  else []

def Profile.toJson (p : Profile) (includeSecrets : Bool) : Doc :=
  .ofFields (p.jsonFields includeSecrets)

/-! ## Reading -/

/-- `static_cast<u16>` of an `int`. -/
def toU16 (n : Int) : UInt16 := UInt16.ofBitVec (BitVec.ofInt 16 n)

/-- `static_cast<u32>` of an `int`. -/
def toU32 (n : Int) : UInt32 := UInt32.ofBitVec (BitVec.ofInt 32 n)

def remoteFromJson (item : Json) : RemoteEntry where
  host := item.get "/host" Json.asString ""
  port := toU16 (item.get "/port" Json.asInt 1194)
  label := item.get "/label" Json.asString ""
  transport :=
    if Str.equalsIgnoreCase (item.get "/transport" Json.asString "udp").toList "tcp".toList then .tcp
    else .udp

def remotesFromJson (value : Json) : List RemoteEntry :=
  match value.field "remotes" with
  | some (.arr items) => items.map remoteFromJson
  | _ => []

def engineFromJson (value : Json) : Result EngineKind :=
  let engineText := value.get "/engine" Json.asString "openvpn"
  match parseEngineKind engineText with
  | some engine => .ok engine
  | none => .error (Err.make .profileInvalid ("unknown engine '" ++ engineText ++ "'"))

def authMethodFromJson (value : Json) : Result AuthMethod :=
  let authText := value.get "/authMethod" Json.asString "certificate-and-password"
  match parseAuthMethod authText with
  | some method => .ok method
  | none => .error (Err.make .profileInvalid ("unknown auth method '" ++ authText ++ "'"))

def credentialsFromJson (value : Json) : CredentialRef where
  credentialTarget := value.get "/credentials/credentialTarget" Json.asString ""
  userName := value.get "/credentials/userName" Json.asString ""
  savePassword := value.get "/credentials/savePassword" Json.asBool false
  requiresTotp := value.get "/credentials/requiresTotp" Json.asBool false

def certificatesFromJson (value : Json) : CertificateSet where
  caPem := value.get "/certificates/caPem" Json.asString ""
  certificatePem := value.get "/certificates/certificatePem" Json.asString ""
  privateKeyTarget := value.get "/certificates/privateKeyTarget" Json.asString ""
  storeThumbprint := value.get "/certificates/storeThumbprint" Json.asString ""
  tlsAuthKeyTarget := value.get "/certificates/tlsAuthKeyTarget" Json.asString ""
  tlsWrapMode := value.get "/certificates/tlsWrapMode" Json.asInt 0
  verifyX509Name := value.get "/certificates/verifyX509Name" Json.asString ""
  peerFingerprintSha256 := value.get "/certificates/peerFingerprintSha256" Json.asString ""

def serverFromJson (server : String) : Result IpAddress :=
  match IpAddress.parse server.toList with
  | .ok address => .ok address
  | .error _ => .error (Err.make .profileInvalid ("invalid DNS server '" ++ server ++ "'"))

/-- Whether the object under a key has a field. -/
def hasField (value : Json) (key key' : String) : Bool :=
  ((value.field key).bind (·.field key')).isSome

/-- The DNS settings, less the servers, which can fail. -/
def dnsFromJson (value : Json) (servers : List IpAddress) : ProfileDnsSettings where
  useServerPushed := value.get "/dns/useServerPushed" Json.asBool true
  servers := servers
  searchDomains := value.get "/dns/searchDomains" Json.asStrings []
  blockOutsideDns := value.get "/dns/blockOutsideDns" Json.asBool true
  dohEnabled :=
    if hasField value "dns" "dohEnabled" then some (value.get "/dns/dohEnabled" Json.asBool false)
    else none
  dohTemplate := value.get "/dns/dohTemplate" Json.asString ""

def optionsFromJson (value : Json) : ProfileOptions where
  autoConnect := value.get "/options/autoConnect" Json.asBool false
  autoReconnect := value.get "/options/autoReconnect" Json.asBool true
  shuffleRemotes := value.get "/options/shuffleRemotes" Json.asBool false
  redirectGateway := value.get "/options/redirectGateway" Json.asBool true
  blockIpv6 := value.get "/options/blockIpv6" Json.asBool true
  allowCompression := value.get "/options/allowCompression" Json.asBool false
  cipherOverride := value.get "/options/cipherOverride" Json.asString ""
  authDigestOverride := value.get "/options/authDigestOverride" Json.asString ""
  proxyUrl := value.get "/options/proxyUrl" Json.asString ""
  mtu :=
    if hasField value "options" "mtu" then some (toU32 (value.get "/options/mtu" Json.asInt 1500))
    else none
  keepaliveIntervalSeconds :=
    if hasField value "options" "keepaliveIntervalSeconds" then
      some (toU32 (value.get "/options/keepaliveIntervalSeconds" Json.asInt 10))
    else none
  keepaliveTimeoutSeconds :=
    if hasField value "options" "keepaliveTimeoutSeconds" then
      some (toU32 (value.get "/options/keepaliveTimeoutSeconds" Json.asInt 60))
    else none

def metadataFromJson (value : Json) : ProfileMetadata where
  country := value.get "/metadata/country" Json.asString ""
  city := value.get "/metadata/city" Json.asString ""
  notes := value.get "/metadata/notes" Json.asString ""
  tags := value.get "/metadata/tags" Json.asStrings []
  favorite := value.get "/metadata/favorite" Json.asBool false
  imageRef := value.get "/metadata/imageRef" Json.asString ""
  createdAt := fromUnixMillis (value.get "/metadata/createdAt" Json.asI64 0)
  modifiedAt := fromUnixMillis (value.get "/metadata/modifiedAt" Json.asI64 0)
  lastConnectedAt := fromUnixMillis (value.get "/metadata/lastConnectedAt" Json.asI64 0)
  connectCount := value.get "/metadata/connectCount" Json.asU64 0
  totalBytesSent := value.get "/metadata/totalBytesSent" Json.asU64 0
  totalBytesReceived := value.get "/metadata/totalBytesReceived" Json.asU64 0

/-- `fromJson`; the checks that can fail come in the order of the source. -/
def fromJson (value : Json) : Result Profile :=
  if !value.isObject then
    .error (Err.make .profileInvalid "profile document is not a JSON object")
  else do
    let engine ← engineFromJson value
    let authMethod ← authMethodFromJson value
    let servers ← (value.get "/dns/servers" Json.asStrings []).mapM serverFromJson
    .ok
      { id := value.get "/id" Json.asString ""
        name := value.get "/name" Json.asString ""
        engine
        engineId := value.get "/engineId" Json.asString ""
        remotes := remotesFromJson value
        authMethod
        credentials := credentialsFromJson value
        certificates := certificatesFromJson value
        dns := dnsFromJson value servers
        options := optionsFromJson value
        metadata := metadataFromJson value
        sourceConfig := value.get "/sourceConfig" Json.asString ""
        sourceHash := value.get "/sourceHash" Json.asString "" }

/-! ## There and back -/

def InI64 (n : Int) : Prop := -2 ^ 63 ≤ n ∧ n < 2 ^ 63

/-- The values that the fields of type `int` and `SystemTime` can have. -/
structure Profile.Representable (p : Profile) : Prop where
  tlsWrapMode : -2 ^ 31 ≤ p.certificates.tlsWrapMode ∧ p.certificates.tlsWrapMode < 2 ^ 31
  createdAt : InI64 p.metadata.createdAt
  modifiedAt : InI64 p.metadata.modifiedAt
  lastConnectedAt : InI64 p.metadata.lastConnectedAt

/-- The profile with its times in whole milliseconds. -/
def ProfileMetadata.rounded (m : ProfileMetadata) : ProfileMetadata :=
  { m with
    createdAt := storedTime m.createdAt
    modifiedAt := storedTime m.modifiedAt
    lastConnectedAt := storedTime m.lastConnectedAt }

/-- What is left of the certificates without the names of secrets. -/
def CertificateSet.shown (c : CertificateSet) (includeSecrets : Bool) : CertificateSet :=
  if includeSecrets then c else { c with privateKeyTarget := "", tlsAuthKeyTarget := "" }

/-- What is left of a profile without its secrets. -/
def Profile.shown (p : Profile) (includeSecrets : Bool) : Profile :=
  if includeSecrets then p
  else { p with credentials := {}, certificates := p.certificates.shown false, sourceConfig := "" }

theorem toU16_toNat (n : UInt16) : toU16 n.toNat = n := by
  rw [toU16, BitVec.ofInt_natCast]
  exact UInt16.ofNat_toNat

theorem asInt_toU32 (n : UInt32) : (Json.asInt (.int n.toNat)).map toU32 = some n := by
  rw [Json.asInt, Option.map_some, toU32, BitVec.ofInt_toInt, BitVec.ofInt_natCast]
  exact congrArg some UInt32.ofNat_toNat

theorem transport_toText (transport : Transport) :
    (if Str.equalsIgnoreCase (String.ofList transport.toText).toList "tcp".toList then Transport.tcp
      else .udp) = transport := by
  rw [String.toList_ofList]
  cases transport <;> rfl

theorem remoteFromJson_remoteJson (remote : RemoteEntry) :
    remoteFromJson (remoteJson remote).value = remote := by
  have hport : Json.asInt (.int remote.port.toNat) = some (remote.port.toNat : Int) :=
    Json.asInt_number (by have := remote.port.toNat_lt; omega)
  unfold remoteFromJson remoteJson
  rw [Doc.get_ofFields _ "/host" "host" rfl, Doc.get_ofFields _ "/port" "port" rfl,
    Doc.get_ofFields _ "/label" "label" rfl, Doc.get_ofFields _ "/transport" "transport" rfl]
  show RemoteEntry.mk remote.host (toU16 ((Json.asInt (.int remote.port.toNat)).getD 1194))
    (if Str.equalsIgnoreCase (String.ofList remote.transport.toText).toList "tcp".toList then .tcp
      else .udp) remote.label = remote
  rw [hport, Option.getD_some, toU16_toNat, transport_toText]

theorem hasField_of_field {d : Doc} {key : String} {fields : List (String × Doc)}
    (h : d.field key = some (Doc.ofFields fields).value) (key' : String) :
    hasField d.value key key' = (fields.reverse.lookup key').isSome := by
  show (Option.bind (d.field key) _).isSome = _
  rw [h]
  show ((Doc.ofFields fields).field key').isSome = _
  rw [Doc.field_ofFields, Option.isSome_map]

theorem asStrings_ofItems (texts : List String) :
    Json.asStrings (Doc.ofItems (texts.map .str)).value = some texts := by
  show Json.asStrings (.arr ((texts.map Doc.str).map Doc.value)) = some texts
  rw [List.map_map]
  exact Json.asStrings_strings texts

/-! The objects of a document, each read back. -/

section

variable {d : Doc}

theorem credentialsFromJson_eq {c : CredentialRef}
    (h : d.field "credentials" = some (credentialsJson c).value) :
    credentialsFromJson d.value = c := by
  unfold credentialsFromJson
  rw [Doc.get_sub h "/credentials/credentialTarget" "credentialTarget" rfl,
    Doc.get_sub h "/credentials/userName" "userName" rfl,
    Doc.get_sub h "/credentials/savePassword" "savePassword" rfl,
    Doc.get_sub h "/credentials/requiresTotp" "requiresTotp" rfl]
  rfl

theorem credentialsFromJson_missing (hobj : d.value.isObject = true)
    (h : d.field "credentials" = none) : credentialsFromJson d.value = {} := by
  unfold credentialsFromJson
  rw [Json.get_missing hobj h "/credentials/credentialTarget" "credentialTarget" rfl,
    Json.get_missing hobj h "/credentials/userName" "userName" rfl,
    Json.get_missing hobj h "/credentials/savePassword" "savePassword" rfl,
    Json.get_missing hobj h "/credentials/requiresTotp" "requiresTotp" rfl]

theorem certificatesFromJson_eq {c : CertificateSet} (includeSecrets : Bool)
    (hmode : -2 ^ 31 ≤ c.tlsWrapMode ∧ c.tlsWrapMode < 2 ^ 31)
    (h : d.field "certificates" =
      some (Doc.ofFields (certificateFields c includeSecrets)).value) :
    certificatesFromJson d.value = c.shown includeSecrets := by
  have hread : (((certificateFields c includeSecrets).reverse.lookup "tlsWrapMode").bind
      fun d => Json.asInt d.value) = some c.tlsWrapMode := by
    cases includeSecrets <;> exact Json.asInt_int hmode
  unfold certificatesFromJson
  rw [Doc.get_sub h "/certificates/caPem" "caPem" rfl,
    Doc.get_sub h "/certificates/certificatePem" "certificatePem" rfl,
    Doc.get_sub h "/certificates/privateKeyTarget" "privateKeyTarget" rfl,
    Doc.get_sub h "/certificates/storeThumbprint" "storeThumbprint" rfl,
    Doc.get_sub h "/certificates/tlsAuthKeyTarget" "tlsAuthKeyTarget" rfl,
    Doc.get_sub h "/certificates/tlsWrapMode" "tlsWrapMode" rfl,
    Doc.get_sub h "/certificates/verifyX509Name" "verifyX509Name" rfl,
    Doc.get_sub h "/certificates/peerFingerprintSha256" "peerFingerprintSha256" rfl, hread]
  cases includeSecrets <;> rfl

theorem dnsFromJson_eq {dns : ProfileDnsSettings}
    (h : d.field "dns" = some (Doc.ofFields (dnsFields dns)).value) :
    dnsFromJson d.value dns.servers = dns := by
  have hdomains : (((dnsFields dns).reverse.lookup "searchDomains").bind
      fun d => Json.asStrings d.value) = some dns.searchDomains := by
    refine Eq.trans ?_ (asStrings_ofItems dns.searchDomains)
    cases hdoh : dns.dohEnabled <;> rw [dnsFields, hdoh] <;> rfl
  unfold dnsFromJson
  rw [hasField_of_field h, Doc.get_sub h "/dns/useServerPushed" "useServerPushed" rfl,
    Doc.get_sub h "/dns/searchDomains" "searchDomains" rfl,
    Doc.get_sub h "/dns/blockOutsideDns" "blockOutsideDns" rfl,
    Doc.get_sub h "/dns/dohEnabled" "dohEnabled" rfl,
    Doc.get_sub h "/dns/dohTemplate" "dohTemplate" rfl, hdomains]
  obtain ⟨_, _, _, _, dohEnabled, _⟩ := dns
  cases dohEnabled <;> rfl

/-- An optional number that was written as a `u32` and is read as an `int`. -/
theorem optionalU32 {fields : List (String × Doc)} {key : String} {value : Option UInt32}
    (h : fields.reverse.lookup key = value.map fun n => Doc.int n.toNat) (fallback : Int) :
    (if (fields.reverse.lookup key).isSome then
      some (toU32 (((fields.reverse.lookup key).bind fun d => Json.asInt d.value).getD fallback))
    else none) = value := by
  rw [h]
  cases value with
  | none => rfl
  | some n =>
    exact asInt_toU32 n

theorem optionsFromJson_eq {o : ProfileOptions}
    (h : d.field "options" = some (Doc.ofFields (optionFields o)).value) :
    optionsFromJson d.value = o := by
  obtain ⟨hmtu, hinterval, htimeout⟩ :
      (optionFields o).reverse.lookup "mtu" = o.mtu.map (fun n => Doc.int n.toNat) ∧
        (optionFields o).reverse.lookup "keepaliveIntervalSeconds" =
          o.keepaliveIntervalSeconds.map (fun n => Doc.int n.toNat) ∧
        (optionFields o).reverse.lookup "keepaliveTimeoutSeconds" =
          o.keepaliveTimeoutSeconds.map (fun n => Doc.int n.toNat) := by
    cases hm : o.mtu <;> cases hi : o.keepaliveIntervalSeconds <;>
      cases ht : o.keepaliveTimeoutSeconds <;> rw [optionFields, hm, hi, ht] <;>
      exact ⟨rfl, rfl, rfl⟩
  unfold optionsFromJson
  rw [hasField_of_field h, hasField_of_field h, hasField_of_field h,
    Doc.get_sub h "/options/autoConnect" "autoConnect" rfl,
    Doc.get_sub h "/options/autoReconnect" "autoReconnect" rfl,
    Doc.get_sub h "/options/shuffleRemotes" "shuffleRemotes" rfl,
    Doc.get_sub h "/options/redirectGateway" "redirectGateway" rfl,
    Doc.get_sub h "/options/blockIpv6" "blockIpv6" rfl,
    Doc.get_sub h "/options/allowCompression" "allowCompression" rfl,
    Doc.get_sub h "/options/cipherOverride" "cipherOverride" rfl,
    Doc.get_sub h "/options/authDigestOverride" "authDigestOverride" rfl,
    Doc.get_sub h "/options/proxyUrl" "proxyUrl" rfl,
    Doc.get_sub h "/options/mtu" "mtu" rfl,
    Doc.get_sub h "/options/keepaliveIntervalSeconds" "keepaliveIntervalSeconds" rfl,
    Doc.get_sub h "/options/keepaliveTimeoutSeconds" "keepaliveTimeoutSeconds" rfl,
    optionalU32 hmtu, optionalU32 hinterval, optionalU32 htimeout]
  obtain ⟨_, _, _, _, _, mtu, interval, timeout, _, _, _, _⟩ := o
  cases mtu <;> cases interval <;> cases timeout <;> rfl

theorem toMillis_inI64 {time : SystemTime} (h : InI64 time) : InI64 (toMillis time) := by
  have hdiv : (toMillis time).natAbs = time.natAbs / 10000 := Int.natAbs_tdiv time 10000
  unfold InI64 at *
  omega

theorem metadataFromJson_eq {m : ProfileMetadata} (hcreated : InI64 m.createdAt)
    (hmodified : InI64 m.modifiedAt) (hconnected : InI64 m.lastConnectedAt)
    (h : d.field "metadata" = some (Doc.ofFields (metadataFields m)).value) :
    metadataFromJson d.value = m.rounded := by
  have htags : ((metadataFields m).reverse.lookup "tags").bind (fun d => Json.asStrings d.value) =
      some m.tags := asStrings_ofItems m.tags
  have hc : ((metadataFields m).reverse.lookup "createdAt").bind (fun d => Json.asI64 d.value) =
      some (toMillis m.createdAt) := Json.asI64_int (toMillis_inI64 hcreated)
  have hm : ((metadataFields m).reverse.lookup "modifiedAt").bind (fun d => Json.asI64 d.value) =
      some (toMillis m.modifiedAt) := Json.asI64_int (toMillis_inI64 hmodified)
  have hl : ((metadataFields m).reverse.lookup "lastConnectedAt").bind
      (fun d => Json.asI64 d.value) = some (toMillis m.lastConnectedAt) :=
    Json.asI64_int (toMillis_inI64 hconnected)
  have hcount : ((metadataFields m).reverse.lookup "connectCount").bind
      (fun d => Json.asU64 d.value) = some m.connectCount := Json.asU64_number _
  have hsent : ((metadataFields m).reverse.lookup "totalBytesSent").bind
      (fun d => Json.asU64 d.value) = some m.totalBytesSent := Json.asU64_number _
  have hreceived : ((metadataFields m).reverse.lookup "totalBytesReceived").bind
      (fun d => Json.asU64 d.value) = some m.totalBytesReceived := Json.asU64_number _
  unfold metadataFromJson
  rw [Doc.get_sub h "/metadata/country" "country" rfl,
    Doc.get_sub h "/metadata/city" "city" rfl, Doc.get_sub h "/metadata/notes" "notes" rfl,
    Doc.get_sub h "/metadata/tags" "tags" rfl, Doc.get_sub h "/metadata/favorite" "favorite" rfl,
    Doc.get_sub h "/metadata/imageRef" "imageRef" rfl,
    Doc.get_sub h "/metadata/createdAt" "createdAt" rfl,
    Doc.get_sub h "/metadata/modifiedAt" "modifiedAt" rfl,
    Doc.get_sub h "/metadata/lastConnectedAt" "lastConnectedAt" rfl,
    Doc.get_sub h "/metadata/connectCount" "connectCount" rfl,
    Doc.get_sub h "/metadata/totalBytesSent" "totalBytesSent" rfl,
    Doc.get_sub h "/metadata/totalBytesReceived" "totalBytesReceived" rfl, htags, hc, hm, hl,
    hcount, hsent, hreceived]
  rfl

end

theorem field_toJson (p : Profile) (includeSecrets : Bool) (key : String) :
    (p.toJson includeSecrets).field key =
      ((p.jsonFields includeSecrets).reverse.lookup key).map Doc.value :=
  Doc.field_ofFields _ _

theorem remotesFromJson_toJson (p : Profile) (includeSecrets : Bool) :
    remotesFromJson (p.toJson includeSecrets).value = p.remotes := by
  have h : (p.toJson includeSecrets).value.field "remotes" =
      some (.arr ((p.remotes.map remoteJson).map Doc.value)) := by
    show (p.toJson includeSecrets).field "remotes" = _
    rw [field_toJson]
    cases includeSecrets <;> rfl
  rw [remotesFromJson, h]
  show ((p.remotes.map remoteJson).map Doc.value).map remoteFromJson = p.remotes
  rw [List.map_map, List.map_map]
  refine Eq.trans (List.map_congr_left fun remote _ => ?_) (List.map_id _)
  exact remoteFromJson_remoteJson remote

theorem serverFromJson_toString (server : IpAddress) : serverFromJson server.toString = .ok server := by
  rw [serverFromJson, IpAddress.toString, String.toList_ofList, IpAddress.parse_toText]

theorem serversFromJson_dnsFields (dns : ProfileDnsSettings) {d : Doc}
    (h : d.field "dns" = some (Doc.ofFields (dnsFields dns)).value) :
    (d.value.get "/dns/servers" Json.asStrings []).mapM serverFromJson = .ok dns.servers := by
  have hread : ((dnsFields dns).reverse.lookup "servers").bind (fun d => Json.asStrings d.value) =
      some (dns.servers.map fun server => server.toString) := by
    refine Eq.trans ?_ (asStrings_ofItems (dns.servers.map fun server => server.toString))
    rw [List.map_map]
    cases hdoh : dns.dohEnabled <;> rw [dnsFields, hdoh] <;> rfl
  rw [Doc.get_sub h "/dns/servers" "servers" rfl, hread, Option.getD_some, List.mapM_map]
  have hok : (fun server : IpAddress => serverFromJson server.toString) = Except.ok :=
    funext serverFromJson_toString
  calc dns.servers.mapM (fun server => serverFromJson server.toString) = dns.servers.mapM Except.ok := by
        rw [hok]
    _ = .ok (dns.servers.map id) := List.mapM_pure (f := id)
    _ = .ok dns.servers := by rw [List.map_id]

theorem fromJson_shown {p : Profile} (h : p.Representable) (includeSecrets : Bool) :
    fromJson (p.toJson includeSecrets).value =
      .ok { p.shown includeSecrets with metadata := p.metadata.rounded } := by
  have hfield : ∀ {key : String} {fields : List (String × Doc)},
      (p.jsonFields includeSecrets).reverse.lookup key = some (Doc.ofFields fields) →
        (p.toJson includeSecrets).field key = some (Doc.ofFields fields).value := by
    intro key fields hl
    rw [field_toJson, hl]
    rfl
  have hdns : (p.toJson includeSecrets).field "dns" = some (Doc.ofFields (dnsFields p.dns)).value :=
    hfield (by cases includeSecrets <;> rfl)
  have hread : ∀ {α : Type} (pointer key : String), Json.parsePointer pointer = some [key] →
      ∀ (convert : Json → Option α) (fallback : α),
        (p.toJson includeSecrets).value.get pointer convert fallback =
          (((p.jsonFields includeSecrets).reverse.lookup key).bind fun d =>
            convert d.value).getD fallback :=
    fun pointer key hp => Doc.get_ofFields (p.jsonFields includeSecrets) pointer key hp
  have hengine : engineFromJson (p.toJson includeSecrets).value = .ok p.engine := by
    have htext : (p.toJson includeSecrets).value.get "/engine" Json.asString "openvpn" =
        p.engine.toString := by
      rw [hread "/engine" "engine" rfl]
      cases includeSecrets <;> rfl
    rw [engineFromJson, htext, parseEngineKind_toString]
  have hauth : authMethodFromJson (p.toJson includeSecrets).value = .ok p.authMethod := by
    have htext : (p.toJson includeSecrets).value.get "/authMethod" Json.asString
        "certificate-and-password" = p.authMethod.toString := by
      rw [hread "/authMethod" "authMethod" rfl]
      cases includeSecrets <;> rfl
    rw [authMethodFromJson, htext, parseAuthMethod_toString]
  have hobj : (p.toJson includeSecrets).value.isObject = true := Doc.isObject_ofFields _
  have hcredentials : credentialsFromJson (p.toJson includeSecrets).value =
      (p.shown includeSecrets).credentials := by
    cases includeSecrets with
    | true => exact credentialsFromJson_eq (c := p.credentials) (hfield rfl)
    | false => exact credentialsFromJson_missing hobj (by rw [field_toJson]; rfl)
  rw [fromJson, hobj, hengine, hauth, serversFromJson_dnsFields p.dns hdns, hcredentials,
    certificatesFromJson_eq (c := p.certificates) includeSecrets h.tlsWrapMode
      (hfield (by cases includeSecrets <;> rfl)),
    remotesFromJson_toJson,
    optionsFromJson_eq (o := p.options) (hfield (by cases includeSecrets <;> rfl)),
    metadataFromJson_eq (m := p.metadata) h.createdAt h.modifiedAt h.lastConnectedAt
      (hfield (by cases includeSecrets <;> rfl)),
    hread "/id" "id" rfl, hread "/name" "name" rfl, hread "/engineId" "engineId" rfl,
    hread "/sourceConfig" "sourceConfig" rfl, hread "/sourceHash" "sourceHash" rfl]
  simp only [Bool.not_true, Bool.false_eq_true, if_false, bind, Except.bind]
  rw [dnsFromJson_eq hdns]
  cases includeSecrets <;> rfl

theorem fromJson_toJson {p : Profile} (h : p.Representable) :
    fromJson (p.toJson true).value = .ok { p with metadata := p.metadata.rounded } :=
  fromJson_shown h true

/-- The times are in whole milliseconds. -/
structure ProfileMetadata.WholeMillis (m : ProfileMetadata) : Prop where
  createdAt : storedTime m.createdAt = m.createdAt
  modifiedAt : storedTime m.modifiedAt = m.modifiedAt
  lastConnectedAt : storedTime m.lastConnectedAt = m.lastConnectedAt

theorem ProfileMetadata.WholeMillis.rounded {m : ProfileMetadata} (h : m.WholeMillis) :
    m.rounded = m := by
  rw [ProfileMetadata.rounded, h.createdAt, h.modifiedAt, h.lastConnectedAt]

/-- A profile comes back from its JSON form as it was, and from the one without
secrets with these reset. -/
theorem json_round_trip {p : Profile} (h : p.Representable) (htimes : p.metadata.WholeMillis) :
    fromJson (p.toJson true).value = .ok p ∧ fromJson (p.toJson false).value = .ok (p.shown false) := by
  refine ⟨?_, ?_⟩
  · rw [fromJson_shown h, htimes.rounded]
    rfl
  · rw [fromJson_shown h, htimes.rounded]
    rfl

/-- A profile with a saved password and a private key. -/
def homeOffice : Profile :=
  { id := "a1"
    name := "Home office"
    remotes := [{ host := "vpn.example.net", port := 443 }]
    credentials := { credentialTarget := "NovaVPN/a1", userName := "ada", savePassword := true }
    certificates := { caPem := "pem", privateKeyTarget := "NovaVPN/a1/key", tlsWrapMode := 2 }
    options := { mtu := some 1400 }
    metadata := { createdAt := 10000, totalBytesSent := 18446744073709551615 }
    sourceConfig := "remote vpn.example.net 443" }

theorem homeOffice_round_trip :
    fromJson (homeOffice.toJson true).value = .ok homeOffice ∧
      fromJson (homeOffice.toJson false).value = .ok (homeOffice.shown false) :=
  json_round_trip ⟨by decide, ⟨by decide, by decide⟩, ⟨by decide, by decide⟩, ⟨by decide, by decide⟩⟩
    ⟨rfl, rfl, rfl⟩

end NovaVpn.Profiles
