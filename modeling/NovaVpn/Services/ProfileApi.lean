import NovaVpn.Core.Json
import NovaVpn.Profiles.CredentialStore
import NovaVpn.Profiles.ProfileStore

/-!
# The handlers that change profiles

The handlers of `Services/ServiceApi.cpp` that write to the profile store and
the vault, and what the store does for them: each reads the whole profile,
changes some of its fields and writes the whole back.
-/

namespace NovaVpn.ServiceApi

open NovaVpn.Profiles

/-- What a handler, or `recordConnection`, changes of the profile it read. -/
inductive ProfileEdit where
  | favorite (value : Bool)
  | rename (name : String)
  | credentials (userName password : String) (save : Bool)
  | connection (now : SystemTime) (sent received : UInt64)

/-- The vault target made for a profile. -/
def profileTarget (id : String) : String := credentialTargetPrefix ++ "profile/" ++ id

/-- The vault target of a profile, made if it has none. -/
def targetOf (id target : String) : String := if target.isEmpty then profileTarget id else target

namespace ProfileEdit

def apply (id : String) : ProfileEdit → Profile → Profile
  | favorite value, p => { p with metadata := { p.metadata with favorite := value } }
  | rename name, p => { p with name }
  | credentials userName password save, p =>
    { p with credentials := { p.credentials with
        credentialTarget := targetOf id p.credentials.credentialTarget
        userName
        savePassword := save && !password.isEmpty } }
  | connection now sent received, p =>
    { p with metadata := { p.metadata with
        lastConnectedAt := now
        connectCount := p.metadata.connectCount + 1
        totalBytesSent := p.metadata.totalBytesSent + sent
        totalBytesReceived := p.metadata.totalBytesReceived + received } }

@[simp] theorem id_apply (edit : ProfileEdit) (id : String) (p : Profile) :
    (edit.apply id p).id = p.id := by
  cases edit <;> rfl

end ProfileEdit

/-! ## Parameters -/

def idParam (params : Doc) : String := params.value.get "/id" Json.asString ""

def favoriteParams (params : Doc) : ProfileEdit :=
  .favorite (params.value.get "/favorite" Json.asBool false)

def renameParams (params : Doc) : ProfileEdit := .rename (params.value.get "/name" Json.asString "")

def userNameParam (params : Doc) : String := params.value.get "/username" Json.asString ""

def passwordParam (params : Doc) : String := params.value.get "/password" Json.asString ""

def savePasswordParam (params : Doc) : Bool := params.value.get "/savePassword" Json.asBool true

def credentialsParams (params : Doc) : ProfileEdit :=
  .credentials (userNameParam params) (passwordParam params) (savePasswordParam params)

/-! ## Handlers -/

/-- The two stores. -/
structure Stores where
  tables : Tables := .empty
  vault : Vault := ∅

/-- What `parseOvpn` sets of a profile; it leaves the other fields alone. -/
structure ParsedConfig where
  name : String
  remotes : List RemoteEntry
  authMethod : AuthMethod := .certificate
  caPem : String := ""
  certificatePem : String := ""
  tlsWrapMode : Int := 0
  verifyX509Name : String := ""
  options : ProfileOptions := {}
  sourceConfig : String

def ParsedConfig.profile (c : ParsedConfig) : Profile where
  name := c.name
  engine := .openVpn
  remotes := c.remotes
  authMethod := c.authMethod
  certificates :=
    { caPem := c.caPem, certificatePem := c.certificatePem, tlsWrapMode := c.tlsWrapMode,
      verifyX509Name := c.verifyX509Name }
  options := c.options
  sourceConfig := c.sourceConfig

/-- `str::toHex`, in lower case. -/
def toHex (bytes : List UInt8) : String :=
  String.ofList (bytes.flatMap fun b => [Nat.digitChar (b.toNat / 16), Nat.digitChar (b.toNat % 16)])

/-- What `persistImported` fills in. -/
def importedProfile (p : Profile) (newId : String) : Profile :=
  { p with
    id := newId
    sourceHash := toHex (p.sourceConfig.toUTF8.toList.take 32)
    credentials := { p.credentials with
      credentialTarget :=
        if p.authMethod.requiresPassword && p.credentials.credentialTarget.isEmpty then
          profileTarget newId
        else p.credentials.credentialTarget } }

/-- `parsed`: what `parseOvpn` made of the text. -/
def importOvpn (parsed : Result ParsedConfig) (newId : String) (now : SystemTime) (sql : Status)
    (s : Stores) : Stores × Status :=
  match parsed with
  | .error status => (s, status)
  | .ok config =>
    let added := SqliteProfileStore.add (importedProfile config.profile newId) newId now sql s.tables
    ({ s with tables := added.1 }, added.2)

/-- `SetProfileFavorite`, `RenameProfile` and `recordConnection`. -/
def editProfile (id : String) (edit : ProfileEdit) (now : SystemTime) (sql : Status) (s : Stores) :
    Stores × Status :=
  match SqliteProfileStore.get s.tables id with
  | .error status => (s, status)
  | .ok p =>
    let updated := SqliteProfileStore.update (edit.apply id p) now sql s.tables
    ({ s with tables := updated.1 }, updated.2)

/-- The vault step of `SetProfileCredentials`: a password to save is stored,
and without saving any that is there is erased. -/
def saveSecret (target userName password : String) (save : Bool) (win : Status) (v : Vault) :
    Vault × Status :=
  if save && !password.isEmpty then v.store target userName password win
  else if !save then (v.erase target, .ok)
  else (v, .ok)

def setProfileCredentials (params : Doc) (win : Status) (now : SystemTime) (sql : Status)
    (s : Stores) : Stores × Status :=
  match SqliteProfileStore.get s.tables (idParam params) with
  | .error status => (s, status)
  | .ok p =>
    let saved := saveSecret (targetOf (idParam params) p.credentials.credentialTarget)
      (userNameParam params) (passwordParam params) (savePasswordParam params) win s.vault
    if saved.2.isError then (s, saved.2)
    else
      let updated := SqliteProfileStore.update ((credentialsParams params).apply (idParam params) p)
        now sql s.tables
      ({ tables := updated.1, vault := saved.1 }, updated.2)

/-- The targets of a profile that are there. -/
def credentialTargets (p : Profile) : List String :=
  [p.credentials.credentialTarget, p.certificates.privateKeyTarget,
    p.certificates.tlsAuthKeyTarget].filter fun target => !target.isEmpty

/-- `eraseCredentials`. -/
def eraseCredentials (p : Profile) (v : Vault) : Vault :=
  (credentialTargets p).foldl Vault.erase v

def deleteProfile (id : String) (sql : Status) (s : Stores) : Stores × Status :=
  match SqliteProfileStore.removeRow id sql s.tables with
  | (_, .error status) => (s, status)
  | (tables, .ok p) => ({ tables, vault := eraseCredentials p s.vault }, .ok)

end NovaVpn.ServiceApi
