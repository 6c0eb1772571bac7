import NovaVpn.Framework.Exchanges
import NovaVpn.Profiles.ProfileJson
import NovaVpn.Profiles.ProfileQueries
import NovaVpn.Services.ImportedText
import NovaVpn.Services.IpcProtocol
import NovaVpn.Services.SavedPasswords

/-!
# Who sees a password

The requests about profiles with their responses in full (`Services/ServiceApi.cpp`).
A password comes in with `SetProfileCredentials` and goes to the vault.
`passwords_undisclosed` compares two services that hold the same profiles, whatever
their vaults hold, and that get the same requests up to the passwords in them: all
their responses are the same, and so is all that they store outside the vault. What
is seen of a password is whether it is empty, and whether it is too long for the vault.
-/

namespace NovaVpn.ServiceApi

open NovaVpn.Framework NovaVpn.Profiles NovaVpn.Ipc

/-! ## Responses -/

/-- `profileSummaryJson`. -/
def profileSummaryJson (p : Profile) : Doc :=
  let needsPassword := p.authMethod = .userPassword || p.authMethod = .certificateAndPassword ||
    p.authMethod = .userPasswordTotp
  let server :=
    match p.remotes.head? with
    | none => ""
    | some primary =>
      primary.host ++ ":" ++ toString primary.port.toNat ++ "/" ++
        String.ofList primary.transport.toText
  .ofFields
    [("id", .str p.id), ("name", .str p.name), ("country", .str p.metadata.country),
      ("city", .str p.metadata.city), ("favorite", .bool p.metadata.favorite),
      ("tags", .ofItems (p.metadata.tags.map .str)),
      ("connectCount", .int p.metadata.connectCount.toNat), ("engine", .str p.engine.toString),
      ("authMethod", .str p.authMethod.toString), ("needsPassword", .bool needsPassword),
      ("hasSavedPassword", .bool (needsPassword && p.credentials.savePassword)),
      ("userName", .str p.credentials.userName), ("server", .str server),
      ("remoteCount", .int p.remotes.length)]

/-- The requests about profiles, each with what SQLite, the vault and the files beside a
configuration answer; `read` is that of reading the profiles, `sql` that of changing them,
and `arrange` is the order in which SQLite and `std::sort` leave rows. -/
inductive ApiRequest where
  | listProfiles (params : Doc) (read : Status) (arrange : List Profile → List Profile)
  | getProfile (params : Doc) (read : Status)
  | importOvpn (params : Doc) (files : SideFiles) (newId : String) (now : SystemTime) (sql : Status)
  | deleteProfile (params : Doc) (sql : Status)
  | setProfileFavorite (params : Doc) (read : Status) (now : SystemTime) (sql : Status)
  | setProfileCredentials (params : Doc) (read win : Status) (now : SystemTime) (sql : Status)
  | renameProfile (params : Doc) (read : Status) (now : SystemTime) (sql : Status)

/-- The response of a handler that has nothing to say but whether it worked. -/
def statusResponse (requestId : UInt64) (status : Status) : Response :=
  if status.isError then makeError requestId status else makeSuccess requestId .object

def resultResponse (requestId : UInt64) : Result Doc → Response
  | .error status => makeError requestId status
  | .ok result => makeSuccess requestId result.value

/-- A handler that reads a profile first, and answers with the error if that fails. -/
def afterRead (requestId : UInt64) (read : Status) (s : Stores) (handled : Stores × Response) :
    Stores × Response :=
  if read.isError then (s, makeError requestId read) else handled

namespace Stores

/-- `list`. -/
def list (s : Stores) (query : ProfileQuery) (arrange : List Profile → List Profile) : List Profile :=
  cut query.limit
    (arrange ((s.tables.profiles.entries.map (·.2)).filter fun p => passesFilter p query))

def listed (s : Stores) (params : Doc) (arrange : List Profile → List Profile) : Doc :=
  let query : ProfileQuery := { search := params.value.get "/search" Json.asString "" }
  .ofFields [("profiles", .ofItems ((s.list query arrange).map profileSummaryJson))]

def shown (s : Stores) (params : Doc) : Result Doc :=
  (SqliteProfileStore.get s.tables (idParam params)).map fun p => p.toJson false

def imported (report : ImportReport) : Doc :=
  .ofFields
    [("profileId", .str report.profile.id), ("warnings", .ofItems (report.warnings.map .str)),
      ("rejected", .ofItems (report.rejectedDirectives.map .str))]

/-- A request with its id, and its response. -/
def answer (s : Stores) (request : UInt64 × ApiRequest) : Stores × Response :=
  match request.2 with
  | .listProfiles params read arrange =>
    afterRead request.1 read s (s, makeSuccess request.1 (s.listed params arrange).value)
  | .getProfile params read =>
    afterRead request.1 read s (s, resultResponse request.1 (s.shown params))
  | .importOvpn params files newId now sql =>
    let text := params.value.get "/config" Json.asString ""
    let name := params.value.get "/name" Json.asString ""
    let done := importOvpnText files text.toList name newId now sql s
    (done.1, resultResponse request.1 (done.2.map imported))
  | .deleteProfile params sql =>
    let done := deleteProfile (idParam params) sql s
    (done.1, statusResponse request.1 done.2)
  | .setProfileFavorite params read now sql =>
    let done := editProfile (idParam params) (favoriteParams params) now sql s
    afterRead request.1 read s (done.1, statusResponse request.1 done.2)
  | .setProfileCredentials params read win now sql =>
    let done := setProfileCredentials params win now sql s
    afterRead request.1 read s (done.1, statusResponse request.1 done.2)
  | .renameProfile params read now sql =>
    let done := editProfile (idParam params) (renameParams params) now sql s
    afterRead request.1 read s (done.1, statusResponse request.1 done.2)

end Stores

/-! ## Two services -/

/-- The parameters are the same but for the password, and the passwords are both empty or both
not, and both too long for the vault or both not. -/
structure SamePublic (params params' : Doc) : Prop where
  profile : idParam params = idParam params'
  userName : userNameParam params = userNameParam params'
  save : savePasswordParam params = savePasswordParam params'
  empty : (passwordParam params).isEmpty = (passwordParam params').isEmpty
  long : (passwordParam params).utf8ByteSize > maxCredentialBlobSize ↔
    (passwordParam params').utf8ByteSize > maxCredentialBlobSize

theorem SamePublic.refl (params : Doc) : SamePublic params params :=
  ⟨rfl, rfl, rfl, rfl, Iff.rfl⟩

/-- The requests are the same but for the password. -/
inductive Alike : UInt64 × ApiRequest → UInt64 × ApiRequest → Prop
  | same (request : UInt64 × ApiRequest) : Alike request request
  | credentials {params params' : Doc} (h : SamePublic params params') (requestId : UInt64)
      (read win : Status) (now : SystemTime) (sql : Status) :
      Alike (requestId, .setProfileCredentials params read win now sql)
        (requestId, .setProfileCredentials params' read win now sql)

/-- The two services have the same profiles. -/
def SameTables (s s' : Stores) : Prop := s.tables = s'.tables

/-- What the vault says does not depend on what it holds, and of the secret only on its length. -/
theorem store_status {target userName secret secret' : String} (win : Status) (v v' : Vault)
    (hlong : secret.utf8ByteSize > maxCredentialBlobSize ↔ secret'.utf8ByteSize > maxCredentialBlobSize) :
    (v.store target userName secret win).2 = (v'.store target userName secret' win).2 := by
  unfold Vault.store
  by_cases htarget : target.isEmpty
  · rw [if_pos htarget, if_pos htarget]
  by_cases hsize : secret.utf8ByteSize > maxCredentialBlobSize
  · rw [if_neg htarget, if_neg htarget, if_pos hsize, if_pos (hlong.mp hsize)]
  by_cases hwin : win.isError
  · rw [if_neg htarget, if_neg htarget, if_neg hsize, if_neg (mt hlong.mpr hsize), if_pos hwin,
      if_pos hwin]
  · rw [if_neg htarget, if_neg htarget, if_neg hsize, if_neg (mt hlong.mpr hsize), if_neg hwin,
      if_neg hwin]

theorem saveSecret_status (target userName : String) {secret secret' : String} (save : Bool)
    (win : Status) (v v' : Vault) (hempty : secret.isEmpty = secret'.isEmpty)
    (hlong : secret.utf8ByteSize > maxCredentialBlobSize ↔ secret'.utf8ByteSize > maxCredentialBlobSize) :
    (saveSecret target userName secret save win v).2 =
      (saveSecret target userName secret' save win v').2 := by
  unfold saveSecret
  rw [← hempty]
  split
  · exact store_status win v v' hlong
  · split <;> rfl

/-- The edit sees of the password whether it is empty. -/
theorem SamePublic.edit {params params' : Doc} (h : SamePublic params params') (p : Profile) :
    (credentialsParams params).apply (idParam params) p =
      (credentialsParams params').apply (idParam params') p := by
  simp only [credentialsParams, ProfileEdit.apply, h.profile, h.userName, h.save, h.empty]

namespace SameTables

variable {s s' : Stores}

theorem editProfile (h : SameTables s s') (id : String) (edit : ProfileEdit) (now : SystemTime)
    (sql : Status) : SameTables (editProfile id edit now sql s).1 (editProfile id edit now sql s').1 ∧
      (ServiceApi.editProfile id edit now sql s).2 = (ServiceApi.editProfile id edit now sql s').2 := by
  have htables : s.tables = s'.tables := h
  unfold ServiceApi.editProfile
  rw [← htables]
  cases SqliteProfileStore.get s.tables id with
  | error status => exact ⟨h, rfl⟩
  | ok p => exact ⟨rfl, rfl⟩

theorem importOvpnText (h : SameTables s s') (files : SideFiles) (text : List Char)
    (name newId : String) (now : SystemTime) (sql : Status) :
    SameTables (importOvpnText files text name newId now sql s).1
        (importOvpnText files text name newId now sql s').1 ∧
      (ServiceApi.importOvpnText files text name newId now sql s).2 =
        (ServiceApi.importOvpnText files text name newId now sql s').2 := by
  have htables : s.tables = s'.tables := h
  unfold ServiceApi.importOvpnText
  rw [← htables]
  cases parseOvpn files { suggestedName := name } text with
  | error status => exact ⟨h, rfl⟩
  | ok report => exact ⟨rfl, rfl⟩

theorem deleteProfile (h : SameTables s s') (id : String) (sql : Status) :
    SameTables (deleteProfile id sql s).1 (deleteProfile id sql s').1 ∧
      (ServiceApi.deleteProfile id sql s).2 = (ServiceApi.deleteProfile id sql s').2 := by
  have htables : s.tables = s'.tables := h
  unfold ServiceApi.deleteProfile
  rw [← htables]
  cases SqliteProfileStore.removeRow id sql s.tables with
  | mk tables removed =>
    cases removed with
    | error status => exact ⟨h, rfl⟩
    | ok p => exact ⟨rfl, rfl⟩

theorem setProfileCredentials (h : SameTables s s') {params params' : Doc}
    (hparams : SamePublic params params') (win : Status) (now : SystemTime) (sql : Status) :
    SameTables (setProfileCredentials params win now sql s).1
        (setProfileCredentials params' win now sql s').1 ∧
      (ServiceApi.setProfileCredentials params win now sql s).2 =
        (ServiceApi.setProfileCredentials params' win now sql s').2 := by
  have htables : s.tables = s'.tables := h
  unfold ServiceApi.setProfileCredentials
  rw [← htables, ← hparams.profile]
  cases SqliteProfileStore.get s.tables (idParam params) with
  | error status => exact ⟨h, rfl⟩
  | ok p =>
    have hstatus := saveSecret_status (targetOf (idParam params) p.credentials.credentialTarget)
      (userNameParam params) (savePasswordParam params) win s.vault s'.vault hparams.empty
      hparams.long
    have hedit := hparams.edit p
    rw [← hparams.profile] at hedit
    simp only [← hparams.userName, ← hparams.save, ← hstatus, ← hedit]
    split
    · exact ⟨h, rfl⟩
    · exact ⟨rfl, rfl⟩

theorem afterRead (h : SameTables s s') (requestId : UInt64) (read : Status)
    {handled handled' : Stores × Response} (hstate : SameTables handled.1 handled'.1)
    (hresponse : handled.2 = handled'.2) :
    SameTables (afterRead requestId read s handled).1 (afterRead requestId read s' handled').1 ∧
      (ServiceApi.afterRead requestId read s handled).2 =
        (ServiceApi.afterRead requestId read s' handled').2 := by
  unfold ServiceApi.afterRead
  split
  · exact ⟨h, rfl⟩
  · exact ⟨hstate, hresponse⟩

theorem answer (h : SameTables s s') {request request' : UInt64 × ApiRequest}
    (halike : Alike request request') :
    SameTables (s.answer request).1 (s'.answer request').1 ∧
      (s.answer request).2 = (s'.answer request').2 := by
  have htables : s.tables = s'.tables := h
  cases halike with
  | credentials hparams requestId read win now sql =>
    obtain ⟨hstate, hstatus⟩ := h.setProfileCredentials hparams win now sql
    exact h.afterRead requestId read hstate (congrArg (statusResponse requestId) hstatus)
  | same request =>
    obtain ⟨requestId, request⟩ := request
    cases request with
    | listProfiles params read arrange =>
      refine h.afterRead requestId read h ?_
      simp only [Stores.listed, Stores.list, htables]
    | getProfile params read =>
      refine h.afterRead requestId read h ?_
      simp only [Stores.shown, htables]
    | importOvpn params files newId now sql =>
      obtain ⟨hstate, hresult⟩ := h.importOvpnText files
        (params.value.get "/config" Json.asString "").toList
        (params.value.get "/name" Json.asString "") newId now sql
      refine ⟨hstate, ?_⟩
      simp only [Stores.answer, hresult]
    | deleteProfile params sql =>
      obtain ⟨hstate, hstatus⟩ := h.deleteProfile (idParam params) sql
      exact ⟨hstate, congrArg (statusResponse requestId) hstatus⟩
    | setProfileFavorite params read now sql =>
      obtain ⟨hstate, hstatus⟩ := h.editProfile (idParam params) (favoriteParams params) now sql
      exact h.afterRead requestId read hstate (congrArg (statusResponse requestId) hstatus)
    | setProfileCredentials params read win now sql =>
      obtain ⟨hstate, hstatus⟩ := h.setProfileCredentials (.refl params) win now sql
      exact h.afterRead requestId read hstate (congrArg (statusResponse requestId) hstatus)
    | renameProfile params read now sql =>
      obtain ⟨hstate, hstatus⟩ := h.editProfile (idParam params) (renameParams params) now sql
      exact h.afterRead requestId read hstate (congrArg (statusResponse requestId) hstatus)

end SameTables

/-- No response to a request about profiles tells one password from another, neither one that a
request brings nor one that is in the vault, and the profiles are stored without them. -/
theorem passwords_undisclosed {s s' : Stores} {requests requests' : List (UInt64 × ApiRequest)}
    (h : s.tables = s'.tables) (halike : List.Forall₂ Alike requests requests') :
    (exchanges Stores.answer s requests).2 = (exchanges Stores.answer s' requests').2 ∧
      (exchanges Stores.answer s requests).1.tables = (exchanges Stores.answer s' requests').1.tables := by
  obtain ⟨hstate, hanswers⟩ :=
    exchanges_alike (I := SameTables) (fun _ _ r r' h (hr : Alike r r') => h.answer hr) h halike
  exact ⟨hanswers, hstate⟩

/-- A profile is imported, a password is saved for it, and it is looked at. -/
def saveAndLook (password : String) : List (UInt64 × ApiRequest) :=
  [(2, .importOvpn (.ofFields [("name", .str "Office"),
      ("config", .str "remote vpn.example.com\nauth-user-pass\n<ca>\nCA\n</ca>")]) noFiles "a" 1 .ok),
    (3, .setProfileCredentials (credentialsOf password) .ok .ok 2 .ok),
    (4, .getProfile (.ofFields [("id", .str "a")]) .ok), (5, .listProfiles .object .ok id),
    (6, .listProfiles .object (Err.make .ioError "prepare: disk I/O error") id)]

theorem samePublic_credentialsOf : SamePublic (credentialsOf "secret") (credentialsOf "hunter2") where
  profile := by decide +kernel
  userName := by decide +kernel
  save := by decide +kernel
  empty := by decide +kernel
  long := by decide +kernel

theorem passwords_undisclosed_two :
    (exchanges Stores.answer {} (saveAndLook "secret")).2 =
        (exchanges Stores.answer {} (saveAndLook "hunter2")).2 ∧
      (exchanges Stores.answer {} (saveAndLook "secret")).1.tables =
        (exchanges Stores.answer {} (saveAndLook "hunter2")).1.tables :=
  passwords_undisclosed rfl
    (.cons (.same _) (.cons (.credentials samePublic_credentialsOf 3 .ok .ok 2 .ok)
      (.cons (.same _) (.cons (.same _) (.cons (.same _) .nil)))))

end NovaVpn.ServiceApi
