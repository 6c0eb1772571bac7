import NovaVpn.Framework.Exchanges
import NovaVpn.Services.SavedPasswords

/-!
# The credentials of a connection

`Connect` of `Services/ServiceApi.cpp` gathers the user name and the password that
the engine gets: from the request, else from the profile and the vault. A client
knows what it asked for and what it was answered. From these alone `learn` keeps, for
each profile, the user name and the password that were last saved, and
`connect_uses_saved` says that these are what a connection gets, after any requests in
which no update fails behind a change of the vault: such an update is answered with
an error, and the password that it came with is used all the same (the last `example`).
`Vault.erase` succeeds here as it does in `SavedPasswords`: the handlers do not look at how
it ends, and where it fails they answer a success with the old password in the vault. A vault that cannot be read gives the connection no password, without an error.
-/

namespace NovaVpn.ServiceApi

open NovaVpn.Framework NovaVpn.Profiles

structure ConnectCredentials where
  userName : String := ""
  password : String := ""
  totpCode : String := ""
  privateKeyPassphrase : String := ""
  deriving DecidableEq, Repr

def profileIdParam (params : Doc) : String := params.value.get "/profileId" Json.asString ""

/-- Whether the request has a password, which may be empty. -/
def hasPassword (params : Doc) : Bool := (params.value.field "password").isSome

/-- What the handler of `Connect` reads before it starts the tunnel; `win` is the outcome of
reading the vault, but for a missing entry. -/
def connectCredentials (params : Doc) (win : Status) (s : Stores) : Result ConnectCredentials :=
  match SqliteProfileStore.get s.tables (profileIdParam params) with
  | .error status => .error status
  | .ok p =>
    .ok
      { userName :=
          if (userNameParam params).isEmpty then p.credentials.userName else userNameParam params
        password :=
          if hasPassword params then passwordParam params
          else if p.credentials.credentialTarget.isEmpty then ""
          else (s.vault.retrieve p.credentials.credentialTarget win).toOption.getD "" }

/-! ## What a client knows -/

/-- What was last saved for a profile. -/
structure LastSaved where
  userName : String := ""
  password : Option String := none
  deriving DecidableEq, Repr

/-- A request that was answered with an error has saved nothing. An empty password is not
saved, and leaves the one before. -/
def learn (saved : String → LastSaved) : ProfileRequest → Status → String → LastSaved
  | .setProfileCredentials params _ _ _, status =>
    if status.isError then saved
    else Function.update saved (idParam params)
      { userName := userNameParam params
        password :=
          if !savePasswordParam params then none
          else if (passwordParam params).isEmpty then (saved (idParam params)).password
          else some (passwordParam params) }
  | .deleteProfile params _, status =>
    if status.isError then saved else Function.update saved (idParam params) {}
  | _, _ => saved

/-- What a connection gets of what was saved: no password if the vault cannot be read. -/
def handedOver (params : Doc) (win : Status) (saved : LastSaved) : ConnectCredentials where
  userName := if (userNameParam params).isEmpty then saved.userName else userNameParam params
  password :=
    if hasPassword params then passwordParam params
    else if win.isError then ""
    else saved.password.getD ""

/-- The profile update of `SetProfileCredentials` does not fail after a change of the vault. -/
def Undivided (s : Stores) : ProfileRequest → Prop
  | .setProfileCredentials params win _ sql =>
    ∀ p, SqliteProfileStore.get s.tables (idParam params) = .ok p → sql.isError = true →
      (saveSecret (targetOf (idParam params) p.credentials.credentialTarget)
        (userNameParam params) (passwordParam params) (savePasswordParam params) win
        s.vault).1 = s.vault
  | _ => True

/-! ## The invariant -/

/-- The password in the vault for a profile. -/
def Stores.secret (s : Stores) (id : String) : Option String :=
  (s.vault.lookup (profileTarget id)).map (·.secret)

/-- What was learnt is what the stores have, and the vault has entries of profiles only. -/
structure Remembers (s : Stores) (saved : String → LastSaved) : Prop where
  sound : ∀ id p, s.tables.contents.row id = some p → RowSound id p
  learnt : ∀ id p, s.tables.contents.row id = some p →
    saved id = { userName := p.credentials.userName, password := s.secret id }
  gone : ∀ id, s.tables.contents.row id = none → saved id = {}
  owned : ∀ id, profileTarget id ∈ s.vault → ∃ p, s.tables.contents.row id = some p ∧
    p.credentials.credentialTarget = profileTarget id

namespace Remembers

variable {s : Stores} {saved saved' : String → LastSaved} {id : String} {p : Profile}

theorem init : Remembers {} fun _ => {} where
  sound id p hp := by cases hp
  learnt id p hp := by cases hp
  gone _ _ := rfl
  owned id hmem := absurd hmem (AList.notMem_empty _)

theorem secret_of_none (h : Remembers s saved) (hrow : s.tables.contents.row id = none) :
    s.vault.lookup (profileTarget id) = none := by
  refine AList.lookup_eq_none.mpr fun hmem => ?_
  obtain ⟨p, hp, -⟩ := h.owned id hmem
  rw [hrow] at hp
  cases hp

/-- A profile without a target has no entry. -/
theorem secret_of_empty (h : Remembers s saved) (hrow : s.tables.contents.row id = some p)
    (htarget : p.credentials.credentialTarget = "") : s.vault.lookup (profileTarget id) = none := by
  refine AList.lookup_eq_none.mpr fun hmem => ?_
  obtain ⟨q, hq, hown⟩ := h.owned id hmem
  cases hrow.symm.trans hq
  rw [htarget] at hown
  exact profileTarget_ne_empty id hown.symm

/-- A row is written, with a vault and a memory that differ for it only. -/
theorem write (h : Remembers s saved) {t : Tables} {v : Vault}
    (hcontents : t.contents = s.tables.contents.write p) (hsound : RowSound p.id p)
    (hothers : ∀ id, id ≠ p.id → v.lookup (profileTarget id) = s.vault.lookup (profileTarget id))
    (hsaved : ∀ id, id ≠ p.id → saved' id = saved id)
    (hself : saved' p.id = { userName := p.credentials.userName,
                             password := (v.lookup (profileTarget p.id)).map (·.secret) })
    (hown : profileTarget p.id ∈ v → p.credentials.credentialTarget = profileTarget p.id) :
    Remembers { tables := t, vault := v } saved' := by
  have hrow : t.contents.row p.id = some p.stored := by
    rw [hcontents]
    exact Contents.row_write_self ..
  have hother : ∀ id, id ≠ p.id → t.contents.row id = s.tables.contents.row id := by
    intro id hne
    rw [hcontents]
    exact Contents.row_write_of_ne _ _ hne
  refine ⟨fun id q hq => ?_, fun id q hq => ?_, fun id hnone => ?_, fun id hmem => ?_⟩
  · by_cases hid : id = p.id
    · subst hid
      cases hrow.symm.trans hq
      exact ⟨hsound.valid, hsound.target, hsound.privateKey, hsound.tlsAuthKey⟩
    · exact h.sound id q ((hother id hid).symm.trans hq)
  · by_cases hid : id = p.id
    · subst hid
      cases hrow.symm.trans hq
      exact hself
    · rw [hsaved id hid, h.learnt id q ((hother id hid).symm.trans hq)]
      simp only [Stores.secret, hothers id hid]
  · have hid : id ≠ p.id := by
      rintro rfl
      rw [hrow] at hnone
      cases hnone
    rw [hsaved id hid, h.gone id ((hother id hid).symm.trans hnone)]
  · by_cases hid : id = p.id
    · subst hid
      exact ⟨p.stored, hrow, hown hmem⟩
    · have hbefore : profileTarget id ∈ s.vault := by
        rw [← AList.lookup_isSome, ← hothers id hid, AList.lookup_isSome]
        exact hmem
      obtain ⟨q, hq, htarget⟩ := h.owned id hbefore
      exact ⟨q, (hother id hid).trans hq, htarget⟩

theorem importOvpn (h : Remembers s saved) (parsed : Result ParsedConfig) (newId : String)
    (now : SystemTime) (sql : Status) : Remembers (importOvpn parsed newId now sql s).1 saved := by
  cases parsed with
  | error status => exact h
  | ok config =>
    rcases SqliteProfileStore.add_cases (importedProfile config.profile newId) newId now sql
      s.tables with ⟨-, heq⟩ | ⟨hvalid, hnone, hcontents, -⟩
    · show Remembers { s with tables := (SqliteProfileStore.add _ _ _ _ _).1 } saved
      rw [heq]
      exact h
    · have hid : ((importedProfile config.profile newId).added newId now).id = newId := ite_self newId
      rw [hid] at hnone
      have hsecret := h.secret_of_none hnone
      refine h.write hcontents ⟨hvalid, ?_, rfl, rfl⟩ (fun _ _ => rfl) (fun _ _ => rfl) ?_ ?_
      all_goals rw [hid]
      · show (importedProfile config.profile newId).credentials.credentialTarget = "" ∨ _
        simp only [importedProfile]
        split
        · exact .inr rfl
        · exact .inl rfl
      · rw [h.gone newId hnone, hsecret]
        rfl
      · exact fun hmem => absurd hsecret (AList.lookup_isSome.mpr hmem |> Option.isSome_iff_ne_none.mp)

/-- An edit that leaves the credentials and the certificates alone. -/
theorem editProfile (h : Remembers s saved) {edit : ProfileEdit}
    (hcredentials : ∀ p, (edit.apply id p).credentials = p.credentials)
    (hcertificates : ∀ p, (edit.apply id p).certificates = p.certificates) (now : SystemTime)
    (sql : Status) : Remembers (editProfile id edit now sql s).1 saved := by
  unfold ServiceApi.editProfile
  split
  next => exact h
  next p hget =>
    obtain ⟨row, hrow, hp⟩ := SqliteProfileStore.get_eq_ok hget
    rcases SqliteProfileStore.update_cases (edit.apply id p) now sql s.tables with
      ⟨-, heq⟩ | ⟨hvalid, hcontents, -⟩
    · show Remembers { s with tables := (SqliteProfileStore.update _ _ _ _).1 } saved
      rw [heq]
      exact h
    · have hid : (edit.apply id p).id = id :=
        (edit.id_apply id p).trans (SqliteProfileStore.id_of_get hget)
      have hsound := h.sound id row hrow
      have hcred : p.credentials = row.credentials := by rw [hp]
      have hcert : p.certificates = row.certificates := by rw [hp]
      have htarget : ((edit.apply id p).modified now).credentials = row.credentials :=
        (hcredentials p).trans hcred
      have hcertified : ((edit.apply id p).modified now).certificates = row.certificates :=
        (hcertificates p).trans hcert
      have hmodified : ((edit.apply id p).modified now).id = id := hid
      refine h.write hcontents ⟨hvalid, ?_, ?_, ?_⟩ (fun _ _ => rfl) (fun _ _ => rfl) ?_ ?_
      · rw [htarget, hmodified]
        exact hsound.target
      · rw [hcertified]
        exact hsound.privateKey
      · rw [hcertified]
        exact hsound.tlsAuthKey
      · rw [htarget, hmodified]
        exact h.learnt id row hrow
      · rw [htarget, hmodified]
        intro hmem
        obtain ⟨q, hq, hown⟩ := h.owned id hmem
        cases hrow.symm.trans hq
        exact hown

/-- The vault step leaves the entries of the other profiles alone. -/
theorem lookup_saveSecret {id' userName password : String} {save : Bool} {win : Status} {v : Vault}
    (hne : id' ≠ id) : (saveSecret (profileTarget id) userName password save win v).1.lookup
      (profileTarget id') = v.lookup (profileTarget id') := by
  have htargets : profileTarget id' ≠ profileTarget id := fun heq => hne (profileTarget_inj heq)
  rcases saveSecret_cases id userName password save win v with
    ⟨-, heq⟩ | ⟨-, -, heq⟩ | ⟨-, heq⟩ | ⟨-, -, heq⟩
  · rw [heq]
  · rw [heq]
    exact AList.lookup_insert_ne htargets
  · rw [heq]
    exact AList.lookup_erase_ne htargets
  · rw [heq]

/-- What a vault step that succeeds leaves for the profile itself. -/
theorem secret_saveSecret {userName password : String} {save : Bool} {win : Status} {v : Vault}
    (hok : (saveSecret (profileTarget id) userName password save win v).2.isError = false) :
    ((saveSecret (profileTarget id) userName password save win v).1.lookup (profileTarget id)).map
        (·.secret) =
      if !save then none
      else if password.isEmpty then (v.lookup (profileTarget id)).map (·.secret)
      else some password := by
  rcases saveSecret_cases id userName password save win v with
    ⟨herror, -⟩ | ⟨hsave, hpassword, heq⟩ | ⟨hsave, heq⟩ | ⟨hsave, hpassword, heq⟩
  · rw [herror] at hok
    cases hok
  · rw [heq, hsave, hpassword]
    show (AList.lookup (profileTarget id) (v.insert (profileTarget id) _)).map _ = some password
    rw [AList.lookup_insert]
    rfl
  · rw [heq, hsave]
    show (AList.lookup (profileTarget id) (AList.erase (profileTarget id) v)).map _ = none
    rw [AList.lookup_erase]
    rfl
  · rw [heq, hsave, hpassword]
    rfl

theorem setProfileCredentials (h : Remembers s saved) {params : Doc} {win sql : Status}
    {now : SystemTime} (hok : Undivided s (.setProfileCredentials params win now sql)) :
    Remembers (setProfileCredentials params win now sql s).1
      (learn saved (.setProfileCredentials params win now sql)
        (setProfileCredentials params win now sql s).2) := by
  unfold ServiceApi.setProfileCredentials
  split
  next status hget =>
    rw [learn, if_pos (SqliteProfileStore.isError_of_get hget)]
    exact h
  next p hget =>
    obtain ⟨row, hrow, hp⟩ := SqliteProfileStore.get_eq_ok hget
    have hsound := h.sound _ row hrow
    have htarget : targetOf (idParam params) p.credentials.credentialTarget =
        profileTarget (idParam params) := by
      rw [hp]
      exact hsound.targetOf_eq
    have hunchanged := hok p hget
    rw [htarget] at hunchanged
    simp only [htarget]
    split
    next hstore =>
      rw [learn, if_pos hstore]
      exact h
    next hstore =>
      have hid : ((credentialsParams params).apply (idParam params) p).id = idParam params :=
        (ProfileEdit.id_apply _ _ _).trans (SqliteProfileStore.id_of_get hget)
      have hvalid : (((credentialsParams params).apply (idParam params) p).modified
          now).validate.isError = false := by
        rw [← hsound.valid, hp]
        rfl
      rcases SqliteProfileStore.update_cases ((credentialsParams params).apply (idParam params) p)
        now sql s.tables with ⟨herror, htables⟩ | ⟨-, hcontents, hupdated⟩
      · -- the checks pass and the name is kept, so it is SQLite that failed
        have hsql : sql.isError = true := by
          by_contra hsql
          have hupdated := SqliteProfileStore.update_ok (p := (credentialsParams params).apply _ p)
            (by rw [hid]; exact hrow) (by rw [hp]; rfl) hvalid (Bool.eq_false_iff.mpr hsql)
          rw [hupdated] at herror
          cases herror
        rw [learn, if_pos herror, htables, hunchanged hsql]
        exact h
      · have hmodified : (((credentialsParams params).apply (idParam params) p).modified now).id =
          idParam params := hid
        have hown : (((credentialsParams params).apply (idParam params) p).modified
            now).credentials.credentialTarget = profileTarget (idParam params) := htarget
        have hsecret := secret_saveSecret (Bool.eq_false_iff.mpr hstore)
        rw [hupdated, learn, if_neg (by decide)]
        refine h.write hcontents ⟨hvalid, ?_, ?_, ?_⟩ (fun id hne => ?_) (fun id hne => ?_) ?_ fun _ => ?_
        · rw [hmodified]
          exact .inr hown
        · rw [← hsound.privateKey, hp]
          rfl
        · rw [← hsound.tlsAuthKey, hp]
          rfl
        · rw [hmodified] at hne
          exact lookup_saveSecret hne
        · rw [hmodified] at hne
          exact Function.update_of_ne hne _ _
        · rw [hmodified, Function.update_self, hsecret, h.learnt _ row hrow]
          rfl
        · rw [hmodified]
          exact hown

/-- A profile takes its own entry with it. -/
theorem lookup_eraseCredentials (h : Remembers s saved) (hrow : s.tables.contents.row id = some p)
    (id' : String) : (eraseCredentials p s.vault).lookup (profileTarget id') =
      if id' = id then none else s.vault.lookup (profileTarget id') := by
  have hsound := h.sound id p hrow
  rcases hsound.target with htarget | htarget
  · have htargets : credentialTargets p = [] := by
      rw [credentialTargets, htarget, hsound.privateKey, hsound.tlsAuthKey]
      rfl
    rw [eraseCredentials, htargets, List.foldl_nil]
    split
    next heq =>
      rw [heq]
      exact h.secret_of_empty hrow htarget
    next => rfl
  · have htargets : credentialTargets p = [profileTarget id] := by
      rw [credentialTargets, htarget, hsound.privateKey, hsound.tlsAuthKey]
      simp [profileTarget_ne_empty]
    rw [eraseCredentials, htargets, List.foldl_cons, List.foldl_nil, Vault.erase,
      vaultTarget_profileTarget]
    split
    next heq =>
      rw [heq]
      exact AList.lookup_erase _ _
    next hne => exact AList.lookup_erase_ne fun heq => hne (profileTarget_inj heq)

theorem deleteProfile (h : Remembers s saved) (params : Doc) (sql : Status) :
    Remembers (deleteProfile (idParam params) sql s).1
      (learn saved (.deleteProfile params sql) (deleteProfile (idParam params) sql s).2) := by
  generalize hid : idParam params = id
  unfold ServiceApi.deleteProfile
  rcases SqliteProfileStore.removeRow_cases id sql s.tables with
    ⟨status, heq⟩ | ⟨t, p, hget, heq, hcontents⟩
  · have herror := SqliteProfileStore.isError_of_removeRow (congrArg Prod.snd heq)
    rw [heq]
    show Remembers s (learn saved (.deleteProfile params sql) status)
    rw [learn, if_pos herror]
    exact h
  · rw [heq]
    show Remembers { tables := t, vault := eraseCredentials p s.vault }
      (learn saved (.deleteProfile params sql) .ok)
    rw [learn, if_neg (by decide), hid]
    obtain ⟨row, hrow, hp⟩ := SqliteProfileStore.get_eq_ok hget
    have herase : eraseCredentials p s.vault = eraseCredentials row s.vault := by rw [hp]; rfl
    have hrows : ∀ id' q, t.contents.row id' = some q →
        id' ≠ id ∧ s.tables.contents.row id' = some q := by
      intro id' q hq
      rw [hcontents] at hq
      exact Contents.row_remove_eq_some.mp hq
    refine ⟨fun id' q hq => h.sound id' q (hrows id' q hq).2, fun id' q hq => ?_,
      fun id' hnone => ?_, fun id' hmem => ?_⟩
    · obtain ⟨hne, hq⟩ := hrows id' q hq
      rw [Function.update_of_ne hne, h.learnt id' q hq, Stores.secret, Stores.secret, herase,
        h.lookup_eraseCredentials hrow, if_neg hne]
    · by_cases hne : id' = id
      · rw [hne]
        exact Function.update_self ..
      · rw [Function.update_of_ne hne]
        refine h.gone id' ?_
        rw [← hnone, hcontents]
        exact (Contents.row_remove_of_ne _ hne).symm
    · replace hmem : profileTarget id' ∈ eraseCredentials p s.vault := hmem
      rw [← AList.lookup_isSome, herase, h.lookup_eraseCredentials hrow] at hmem
      split at hmem
      next => cases hmem
      next hne =>
        obtain ⟨q, hq, hown⟩ := h.owned id' (AList.lookup_isSome.mp hmem)
        refine ⟨q, ?_, hown⟩
        rw [hcontents]
        exact Contents.row_remove_eq_some.mpr ⟨hne, hq⟩

theorem step (h : Remembers s saved) {r : ProfileRequest} (hok : Undivided s r) :
    Remembers (s.handle r).1 (learn saved r (s.handle r).2) := by
  cases r with
  | importOvpn parsed newId now sql => exact h.importOvpn parsed newId now sql
  | setProfileCredentials params win now sql => exact h.setProfileCredentials hok
  | renameProfile params now sql => exact h.editProfile (fun _ => rfl) (fun _ => rfl) now sql
  | setProfileFavorite params now sql => exact h.editProfile (fun _ => rfl) (fun _ => rfl) now sql
  | deleteProfile params sql => exact h.deleteProfile params sql

/-- What is read for a connection is what was learnt. -/
theorem connect (h : Remembers s saved) {params : Doc} {win : Status} {creds : ConnectCredentials}
    (hc : connectCredentials params win s = .ok creds) :
    creds = handedOver params win (saved (profileIdParam params)) := by
  unfold connectCredentials at hc
  split at hc
  next => cases hc
  next p hget =>
    obtain ⟨row, hrow, hp⟩ := SqliteProfileStore.get_eq_ok hget
    have hcred : p.credentials = row.credentials := by rw [hp]
    have hread : (if p.credentials.credentialTarget.isEmpty then ""
        else (s.vault.retrieve p.credentials.credentialTarget win).toOption.getD "") =
          if win.isError then "" else (s.secret (profileIdParam params)).getD "" := by
      rcases (h.sound _ row hrow).target with htarget | htarget
      · have hempty : "".isEmpty = true := rfl
        rw [hcred, htarget, if_pos hempty, Stores.secret, h.secret_of_empty hrow htarget]
        exact (ite_self _).symm
      · have hne : (profileTarget (profileIdParam params)).isEmpty = false := by
          rw [← Bool.not_eq_true, String.isEmpty_iff]
          exact profileTarget_ne_empty _
        rw [hcred, htarget, hne, if_neg Bool.false_ne_true, Vault.retrieve, vaultTarget_profileTarget,
          Stores.secret]
        split
        next => rfl
        next =>
          cases s.vault.lookup (profileTarget (profileIdParam params)) <;> rfl
    cases hc
    rw [hread, hcred, h.learnt _ row hrow]
    rfl

end Remembers

/-- A connection gets what its request says and, for the rest, what was last saved for the
profile, as far as a client can tell from its requests and their answers; of a vault that
cannot be read it gets no password. -/
theorem connect_uses_saved {requests : List ProfileRequest} {params : Doc} {win : Status}
    {creds : ConnectCredentials} (hok : RunMeets Stores.step Undivided {} requests)
    (hc : connectCredentials params win (exchanges Stores.handle {} requests).1 = .ok creds) :
    creds = handedOver params win (remember learn (fun _ => {}) requests
      (exchanges Stores.handle {} requests).2 (profileIdParam params)) :=
  (exchanges_remembers (fun _ _ _ h hok => h.step hok) Remembers.init hok).connect hc

/-- The password is saved, and an empty one is not saved over it. -/
def passwordKept : List ProfileRequest :=
  passwordSaved ++ [.setProfileCredentials (credentialsOf "") .ok 3 .ok]

def connectOf (profileId : String) : Doc := .ofFields [("profileId", .str profileId)]

theorem connect_uses_saved_kept : ({ userName := "u", password := "secret" } : ConnectCredentials) =
    handedOver (connectOf "a") .ok (remember learn (fun _ => {}) passwordKept
      (exchanges Stores.handle {} passwordKept).2 (profileIdParam (connectOf "a"))) := by
  have hok : RunMeets Stores.step Undivided {} passwordKept := by
    refine runMeets_of_forall fun r hr s => ?_
    simp only [passwordKept, passwordSaved, List.mem_append, List.mem_cons, List.not_mem_nil,
      or_false] at hr
    rcases hr with (rfl | rfl) | rfl
    · trivial
    · exact fun _ _ herror => absurd herror (by decide)
    · exact fun _ _ herror => absurd herror (by decide)
  exact connect_uses_saved hok (Result.eq_ok_of_toOption (by decide +kernel))

/-- The update of the profile fails, and the new password is in the vault. -/
def updateFails : List ProfileRequest :=
  passwordSaved ++
    [.setProfileCredentials (credentialsOf "other") .ok 3 (Err.make .ioError "step: disk I/O error")]

example : ((exchanges Stores.handle {} updateFails).2.map (·.isError),
    (connectCredentials (connectOf "a") .ok (exchanges Stores.handle {} updateFails).1).toOption.map
      (·.password)) = ([false, false, true], some "other") := by decide +kernel

end NovaVpn.ServiceApi
