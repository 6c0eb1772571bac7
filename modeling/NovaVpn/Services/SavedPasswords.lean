import NovaVpn.Framework.Machine
import NovaVpn.Services.ProfileApi

/-!
# Saved passwords

The requests that import, change and delete profiles, one after another. A
profile says whether its password is saved, and the vault holds the password:
two stores that `SetProfileCredentials` writes one after the other. A request
to save an empty password takes the flag back and leaves the password in the
vault (`secret_kept`). `secrets_agree`: the flag of every profile says whether
the vault has its password, and the vault has no other, in every run without
such a request over a saved password, and without a failed profile update
after the vault was changed.
-/

namespace NovaVpn.ServiceApi

open NovaVpn.Framework NovaVpn.Profiles

/-- The requests, each with what the parser, the vault and SQLite answer. -/
inductive ProfileRequest where
  | importOvpn (parsed : Result ParsedConfig) (newId : String) (now : SystemTime) (sql : Status)
  | setProfileCredentials (params : Doc) (win : Status) (now : SystemTime) (sql : Status)
  | renameProfile (params : Doc) (now : SystemTime) (sql : Status)
  | setProfileFavorite (params : Doc) (now : SystemTime) (sql : Status)
  | deleteProfile (params : Doc) (sql : Status)

namespace Stores

def handle (s : Stores) : ProfileRequest → Stores × Status
  | .importOvpn parsed newId now sql => importOvpn parsed newId now sql s
  | .setProfileCredentials params win now sql => setProfileCredentials params win now sql s
  | .renameProfile params now sql => editProfile (idParam params) (renameParams params) now sql s
  | .setProfileFavorite params now sql =>
    editProfile (idParam params) (favoriteParams params) now sql s
  | .deleteProfile params sql => deleteProfile (idParam params) sql s

def step (s : Stores) (r : ProfileRequest) : Option Stores := some (s.handle r).1

end Stores

/-- The flags say what the vault holds. -/
structure SecretsAgree (s : Stores) : Prop where
  flag : ∀ id p, SqliteProfileStore.get s.tables id = .ok p →
    (p.credentials.savePassword = true ↔ s.vault.contains p.credentials.credentialTarget = true)
  owned : ∀ name ∈ s.vault, ∃ id p, SqliteProfileStore.get s.tables id = .ok p ∧
    vaultTarget p.credentials.credentialTarget = name

/-- `SetProfileCredentials` is not asked to save an empty password over a
saved one, and its profile update does not fail after a change of the vault. -/
def Careful (s : Stores) : ProfileRequest → Prop
  | .setProfileCredentials params win _ sql =>
    ∀ p, SqliteProfileStore.get s.tables (idParam params) = .ok p →
      (savePasswordParam params = true → (passwordParam params).isEmpty = true →
        s.vault.contains (targetOf (idParam params) p.credentials.credentialTarget) = false) ∧
      (sql.isError = true →
        (saveSecret (targetOf (idParam params) p.credentials.credentialTarget)
          (userNameParam params) (passwordParam params) (savePasswordParam params) win
          s.vault).1 = s.vault)
  | _ => True

/-! ## Targets -/

theorem profileTarget_inj {id id' : String} (h : profileTarget id = profileTarget id') : id = id' := by
  simpa [profileTarget] using h

theorem profileTarget_ne_empty (id : String) : profileTarget id ≠ "" := by
  simp [profileTarget, credentialTargetPrefix]

@[simp] theorem vaultTarget_profileTarget (id : String) :
    vaultTarget (profileTarget id) = profileTarget id := by
  have hprefix : credentialTargetPrefix.toList.isPrefixOf (profileTarget id).toList = true := by
    simp [profileTarget, credentialTargetPrefix]
  rw [vaultTarget, if_pos hprefix]

theorem contains_profileTarget (v : Vault) (id : String) :
    v.contains (profileTarget id) = decide (profileTarget id ∈ v) := by
  rw [Vault.contains, vaultTarget_profileTarget]

theorem vaultTarget_empty_ne (id : String) : vaultTarget "" ≠ profileTarget id := by
  have hempty : (vaultTarget "").length = 8 := by decide
  have hlong : (credentialTargetPrefix ++ "profile/").length = 16 := by decide
  intro h
  rw [h, profileTarget, String.length_append] at hempty
  omega

/-! ## The vault step -/

section

variable {id userName password : String} {save : Bool} {win : Status} {v : Vault}

/-- A password that is to be saved is in the vault, or the step fails; one
that is not to be saved is not; an empty one changes nothing. -/
theorem saveSecret_cases (id userName password : String) (save : Bool) (win : Status) (v : Vault) :
    ((saveSecret (profileTarget id) userName password save win v).2.isError = true ∧
        (saveSecret (profileTarget id) userName password save win v).1 = v) ∨
      (save = true ∧ password.isEmpty = false ∧
        saveSecret (profileTarget id) userName password save win v =
          (v.insert (profileTarget id) { userName, secret := password }, .ok)) ∨
      (save = false ∧ saveSecret (profileTarget id) userName password save win v =
        (AList.erase (profileTarget id) v, .ok)) ∨
      (save = true ∧ password.isEmpty = true ∧
        saveSecret (profileTarget id) userName password save win v = (v, .ok)) := by
  cases save with
  | false =>
    refine Or.inr (Or.inr (Or.inl ⟨rfl, ?_⟩))
    simp [saveSecret, Vault.erase]
  | true =>
    cases hempty : password.isEmpty with
    | true =>
      refine Or.inr (Or.inr (Or.inr ⟨rfl, rfl, ?_⟩))
      simp [saveSecret, hempty]
    | false =>
      have hstore : saveSecret (profileTarget id) userName password true win v =
          v.store (profileTarget id) userName password win := by
        simp [saveSecret, hempty]
      rw [hstore]
      rcases v.store_cases (profileTarget id) userName password win with hfail | hok
      · exact Or.inl hfail
      · rw [vaultTarget_profileTarget] at hok
        exact Or.inr (Or.inl ⟨rfl, rfl, hok⟩)

/-- Only the profile's own entry changes. -/
theorem mem_saveSecret {name : String} (hne : name ≠ profileTarget id) :
    name ∈ (saveSecret (profileTarget id) userName password save win v).1 ↔ name ∈ v := by
  rcases saveSecret_cases id userName password save win v with
    ⟨-, heq⟩ | ⟨-, -, heq⟩ | ⟨-, heq⟩ | ⟨-, -, heq⟩
  · rw [heq]
  · rw [heq, AList.mem_insert]
    exact or_iff_right hne
  · rw [heq, AList.mem_erase]
    exact and_iff_right hne
  · rw [heq]

/-- The profile's own entry is there if the password was to be saved, unless
there was none to save and none before. -/
theorem own_mem_saveSecret
    (hok : (saveSecret (profileTarget id) userName password save win v).2.isError = false)
    (hempty : save = true → password.isEmpty = true → profileTarget id ∉ v) :
    profileTarget id ∈ (saveSecret (profileTarget id) userName password save win v).1 ↔
      (save && !password.isEmpty) = true := by
  rcases saveSecret_cases id userName password save win v with
    ⟨herror, -⟩ | ⟨hsave, hpassword, heq⟩ | ⟨hsave, heq⟩ | ⟨hsave, hpassword, heq⟩
  · rw [herror] at hok
    cases hok
  · rw [heq, hsave, hpassword, AList.mem_insert]
    exact iff_of_true (Or.inl rfl) rfl
  · rw [heq, hsave, AList.mem_erase]
    exact iff_of_false (fun hmem => hmem.1 rfl) Bool.false_ne_true
  · rw [heq, hsave, hpassword]
    exact iff_of_false (hempty hsave hpassword) Bool.false_ne_true

end

/-! ## The invariant -/

/-- What a request leaves of a row: it passes the checks, its password is
under its own target, and it has no other secret. -/
structure RowSound (id : String) (p : Profile) : Prop where
  valid : p.validate.isError = false
  target : p.credentials.credentialTarget = "" ∨ p.credentials.credentialTarget = profileTarget id
  privateKey : p.certificates.privateKeyTarget = ""
  tlsAuthKey : p.certificates.tlsAuthKeyTarget = ""

structure VaultInv (s : Stores) : Prop where
  sound : ∀ id p, s.tables.contents.row id = some p → RowSound id p
  flag : ∀ id p, s.tables.contents.row id = some p →
    (p.credentials.savePassword = true ↔ s.vault.contains p.credentials.credentialTarget = true)
  owned : ∀ name ∈ s.vault, ∃ id p, s.tables.contents.row id = some p ∧
    p.credentials.credentialTarget = profileTarget id ∧ name = profileTarget id

/-- A target that is made or already there is the profile's own. -/
theorem RowSound.targetOf_eq {id : String} {p : Profile} (h : RowSound id p) :
    targetOf id p.credentials.credentialTarget = profileTarget id := by
  unfold targetOf
  split
  next => rfl
  next hne =>
    rcases h.target with htarget | htarget
    · rw [htarget] at hne
      exact absurd rfl hne
    · exact htarget

namespace VaultInv

variable {s : Stores} {id : String} {p : Profile}

theorem agree (h : VaultInv s) : SecretsAgree s := by
  constructor
  · intro id p hget
    obtain ⟨row, hrow, rfl⟩ := SqliteProfileStore.get_eq_ok hget
    exact h.flag id row hrow
  · intro name hname
    obtain ⟨id, row, hrow, htarget, rfl⟩ := h.owned name hname
    refine ⟨id, _, SqliteProfileStore.get_of_row hrow, ?_⟩
    show vaultTarget row.credentials.credentialTarget = _
    rw [htarget, vaultTarget_profileTarget]

/-- The vault has nothing under a target that no profile has. -/
theorem not_contains (h : VaultInv s) {target : String}
    (hrow : ∀ id p, s.tables.contents.row id = some p →
      p.credentials.credentialTarget = profileTarget id → vaultTarget target ≠ profileTarget id) :
    s.vault.contains target = false := by
  by_contra hcontains
  rw [Bool.not_eq_false] at hcontains
  obtain ⟨id, p, hp, htarget, hname⟩ := h.owned _ (of_decide_eq_true hcontains)
  exact hrow id p hp htarget hname

/-- The target of another profile is another one. -/
theorem target_ne (h : VaultInv s) (hrow : s.tables.contents.row id = some p) {id' : String}
    (hne : id ≠ id') : vaultTarget p.credentials.credentialTarget ≠ profileTarget id' := by
  rcases (h.sound id p hrow).target with htarget | htarget
  · rw [htarget]
    exact vaultTarget_empty_ne id'
  · rw [htarget, vaultTarget_profileTarget]
    exact fun heq => hne (profileTarget_inj heq)

/-- A row is written, with a vault that differs for its target only. -/
theorem write (h : VaultInv s) {t : Tables} {v : Vault}
    (hcontents : t.contents = s.tables.contents.write p) (hsound : RowSound p.id p)
    (hflag : p.credentials.savePassword = true ↔
      v.contains p.credentials.credentialTarget = true)
    (hothers : ∀ name, name ≠ profileTarget p.id → (name ∈ v ↔ name ∈ s.vault))
    (hown : profileTarget p.id ∈ v → p.credentials.credentialTarget = profileTarget p.id) :
    VaultInv { tables := t, vault := v } := by
  have hself : t.contents.row p.id = some p.stored := by
    rw [hcontents]
    exact Contents.row_write_self ..
  have hother : ∀ id, id ≠ p.id → t.contents.row id = s.tables.contents.row id := by
    intro id hne
    rw [hcontents]
    exact Contents.row_write_of_ne _ _ hne
  have hstored : RowSound p.id p.stored := by
    refine ⟨?_, hsound.target, hsound.privateKey, hsound.tlsAuthKey⟩
    rw [show p.stored.validate = p.validate from rfl]
    exact hsound.valid
  refine ⟨fun id q hq => ?_, fun id q hq => ?_, fun name hname => ?_⟩
  · by_cases hid : id = p.id
    · subst hid
      cases hself.symm.trans hq
      exact hstored
    · exact h.sound id q (by rw [← hother id hid]; exact hq)
  · by_cases hid : id = p.id
    · subst hid
      cases hself.symm.trans hq
      exact hflag
    · have hrow : s.tables.contents.row id = some q := by
        rw [← hother id hid]
        exact hq
      rw [h.flag id q hrow]
      simp only [Vault.contains, decide_eq_true_eq]
      exact (hothers _ (h.target_ne hrow hid)).symm
  · by_cases heq : name = profileTarget p.id
    · subst heq
      exact ⟨p.id, p.stored, hself, hown hname, rfl⟩
    · obtain ⟨id, q, hq, htarget, hkey⟩ := h.owned name ((hothers name heq).mp hname)
      have hid : id ≠ p.id := fun hid => heq (by rw [hkey, hid])
      exact ⟨id, q, (hother id hid).trans hq, htarget, hkey⟩

/-- An entry under the target of a profile is its own. -/
theorem own_target (h : VaultInv s) (hrow : s.tables.contents.row id = some p)
    (hmem : profileTarget id ∈ s.vault) : p.credentials.credentialTarget = profileTarget id := by
  obtain ⟨id', q, hq, htarget, hname⟩ := h.owned _ hmem
  cases profileTarget_inj hname
  cases hrow.symm.trans hq
  exact htarget

theorem importOvpn (h : VaultInv s) (parsed : Result ParsedConfig) (newId : String)
    (now : SystemTime) (sql : Status) : VaultInv (importOvpn parsed newId now sql s).1 := by
  cases parsed with
  | error status => exact h
  | ok config =>
    rcases SqliteProfileStore.add_cases (importedProfile config.profile newId) newId now sql
      s.tables with ⟨-, heq⟩ | ⟨hvalid, hnone, hcontents, -⟩
    · show VaultInv { s with tables := (SqliteProfileStore.add _ _ _ _ _).1 }
      rw [heq]
      exact h
    · have hid : ((importedProfile config.profile newId).added newId now).id = newId := ite_self newId
      have htarget : (importedProfile config.profile newId).credentials.credentialTarget = "" ∨
          (importedProfile config.profile newId).credentials.credentialTarget =
            profileTarget newId := by
        simp only [importedProfile]
        split
        · exact Or.inr rfl
        · exact Or.inl rfl
      have hfresh : ∀ id p, s.tables.contents.row id = some p → id ≠ newId := by
        rintro id p hp rfl
        rw [hid, hp] at hnone
        cases hnone
      have hvault : s.vault.contains
          (importedProfile config.profile newId).credentials.credentialTarget = false := by
        refine h.not_contains fun id p hp _ => ?_
        rcases htarget with htarget | htarget
        · rw [htarget]
          exact vaultTarget_empty_ne id
        · rw [htarget, vaultTarget_profileTarget]
          exact fun heq => hfresh id p hp (profileTarget_inj heq).symm
      refine h.write hcontents ⟨hvalid, by rw [hid]; exact htarget, rfl, rfl⟩ ?_
        (fun _ _ => Iff.rfl) ?_
      · refine iff_of_false Bool.false_ne_true ?_
        rw [Bool.not_eq_true]
        exact hvault
      · rw [hid]
        intro hmem
        obtain ⟨id, p, hp, -, hname⟩ := h.owned _ hmem
        exact absurd (profileTarget_inj hname).symm (hfresh id p hp)

/-- An edit that leaves the credentials and the certificates alone. -/
theorem editProfile (h : VaultInv s) {edit : ProfileEdit}
    (hcredentials : ∀ p, (edit.apply id p).credentials = p.credentials)
    (hcertificates : ∀ p, (edit.apply id p).certificates = p.certificates) (now : SystemTime)
    (sql : Status) : VaultInv (editProfile id edit now sql s).1 := by
  unfold ServiceApi.editProfile
  split
  next => exact h
  next p hget =>
    obtain ⟨row, hrow, hp⟩ := SqliteProfileStore.get_eq_ok hget
    rcases SqliteProfileStore.update_cases (edit.apply id p) now sql s.tables with
      ⟨-, heq⟩ | ⟨hvalid, hcontents, -⟩
    · show VaultInv { s with tables := (SqliteProfileStore.update _ _ _ _).1 }
      rw [heq]
      exact h
    · have hid : (edit.apply id p).id = id :=
        (edit.id_apply id p).trans (SqliteProfileStore.id_of_get hget)
      have hsound := h.sound id row hrow
      have hcred : p.credentials = row.credentials := by rw [hp]
      have hcert : p.certificates = row.certificates := by rw [hp]
      refine h.write hcontents ⟨hvalid, ?_, ?_, ?_⟩ ?_ (fun _ _ => Iff.rfl) ?_
      all_goals simp only [Profile.modified, hid, hcredentials, hcertificates, hcred, hcert]
      · exact hsound.target
      · exact hsound.privateKey
      · exact hsound.tlsAuthKey
      · exact h.flag id row hrow
      · exact h.own_target hrow

/-- A profile is written under its own target, with the flag that says what
the vault has there. -/
theorem credentialsWritten (h : VaultInv s) {t : Tables} {v : Vault} {saved : Bool}
    (hcontents : t.contents = s.tables.contents.write p) (hvalid : p.validate.isError = false)
    (hid : p.id = id) (htarget : p.credentials.credentialTarget = profileTarget id)
    (hprivate : p.certificates.privateKeyTarget = "")
    (htls : p.certificates.tlsAuthKeyTarget = "") (hflag : p.credentials.savePassword = saved)
    (hown : saved = true ↔ profileTarget id ∈ v)
    (hothers : ∀ name, name ≠ profileTarget id → (name ∈ v ↔ name ∈ s.vault)) :
    VaultInv { tables := t, vault := v } := by
  subst hid
  refine h.write hcontents ⟨hvalid, Or.inr htarget, hprivate, htls⟩ ?_ hothers fun _ => htarget
  rw [hflag, htarget, contains_profileTarget, decide_eq_true_eq]
  exact hown

/-- A request that is answered with an error has changed nothing. -/
theorem setProfileCredentials (h : VaultInv s) {params : Doc} {win sql : Status} {now : SystemTime}
    (hok : Careful s (.setProfileCredentials params win now sql)) :
    ((setProfileCredentials params win now sql s).2.isError = true ∧
        (setProfileCredentials params win now sql s).1 = s) ∨
      ((setProfileCredentials params win now sql s).2 = .ok ∧
        VaultInv (setProfileCredentials params win now sql s).1) := by
  unfold ServiceApi.setProfileCredentials
  split
  next status hget => exact Or.inl ⟨SqliteProfileStore.isError_of_get hget, rfl⟩
  next p hget =>
    obtain ⟨row, hrow, hp⟩ := SqliteProfileStore.get_eq_ok hget
    have hsound := h.sound _ row hrow
    have htarget : targetOf (idParam params) p.credentials.credentialTarget =
        profileTarget (idParam params) := by
      rw [hp]
      exact hsound.targetOf_eq
    obtain ⟨hempty, hunchanged⟩ := hok p hget
    rw [htarget] at hempty hunchanged
    rw [contains_profileTarget] at hempty
    simp only [htarget]
    split
    next hstore => exact Or.inl ⟨hstore, rfl⟩
    next hstore =>
      have hid : ((credentialsParams params).apply (idParam params) p).id = idParam params :=
        (ProfileEdit.id_apply _ _ _).trans (SqliteProfileStore.id_of_get hget)
      have hvalid : (((credentialsParams params).apply (idParam params) p).modified
          now).validate.isError = false := by
        rw [← hsound.valid, hp]
        rfl
      rcases SqliteProfileStore.update_cases ((credentialsParams params).apply (idParam params) p)
        now sql s.tables with ⟨herror, htables⟩ | ⟨-, hcontents, hupdated⟩
      · -- the checks pass and the name is kept, so it is SQLite that failed
        have hsql : sql.isError = true := by
          by_contra hsql
          have hupdated := SqliteProfileStore.update_ok (p := (credentialsParams params).apply _ p)
            (by rw [hid]; exact hrow) (by rw [hp]; rfl) hvalid (Bool.eq_false_iff.mpr hsql)
          rw [hupdated] at herror
          cases herror
        refine Or.inl ⟨herror, ?_⟩
        simp only [htables, hunchanged hsql]
      · have hown := own_mem_saveSecret (Bool.eq_false_iff.mpr hstore) fun hsave hpassword =>
          of_decide_eq_false (hempty hsave hpassword)
        refine Or.inr ⟨hupdated, h.credentialsWritten hcontents hvalid hid htarget ?_ ?_ ?_ hown.symm
          fun name hne => mem_saveSecret hne⟩
        · rw [← hsound.privateKey, hp]
          rfl
        · rw [← hsound.tlsAuthKey, hp]
          rfl
        · rfl

/-- What goes with a profile is its own entry, if it has one. -/
theorem mem_eraseCredentials (h : VaultInv s) (hrow : s.tables.contents.row id = some p)
    {name : String} : name ∈ eraseCredentials p s.vault ↔ name ≠ profileTarget id ∧ name ∈ s.vault := by
  have hsound := h.sound id p hrow
  rcases hsound.target with htarget | htarget
  · have htargets : credentialTargets p = [] := by
      rw [credentialTargets, htarget, hsound.privateKey, hsound.tlsAuthKey]
      rfl
    rw [eraseCredentials, htargets, List.foldl_nil]
    refine ⟨fun hmem => ⟨?_, hmem⟩, And.right⟩
    rintro rfl
    have hown := h.own_target hrow hmem
    rw [htarget] at hown
    exact profileTarget_ne_empty id hown.symm
  · have htargets : credentialTargets p = [profileTarget id] := by
      rw [credentialTargets, htarget, hsound.privateKey, hsound.tlsAuthKey]
      simp [profileTarget_ne_empty]
    rw [eraseCredentials, htargets, List.foldl_cons, List.foldl_nil, Vault.erase,
      vaultTarget_profileTarget, AList.mem_erase]

theorem deleteProfile (h : VaultInv s) (id : String) (sql : Status) :
    VaultInv (deleteProfile id sql s).1 := by
  unfold ServiceApi.deleteProfile
  rcases SqliteProfileStore.removeRow_cases id sql s.tables with
    ⟨status, heq⟩ | ⟨t, p, hget, heq, hcontents⟩
  · rw [heq]
    exact h
  · rw [heq]
    obtain ⟨row, hrow, hp⟩ := SqliteProfileStore.get_eq_ok hget
    have herase : eraseCredentials p s.vault = eraseCredentials row s.vault := by rw [hp]; rfl
    have hrows : ∀ id' q, t.contents.row id' = some q →
        id' ≠ id ∧ s.tables.contents.row id' = some q := by
      intro id' q hq
      rw [hcontents] at hq
      exact Contents.row_remove_eq_some.mp hq
    refine ⟨fun id' q hq => h.sound id' q (hrows id' q hq).2, fun id' q hq => ?_,
      fun name hname => ?_⟩
    · obtain ⟨hid, hq⟩ := hrows id' q hq
      rw [h.flag id' q hq]
      simp only [Vault.contains, decide_eq_true_eq, herase, h.mem_eraseCredentials hrow]
      refine ⟨fun hmem => ⟨?_, hmem⟩, And.right⟩
      exact h.target_ne hq hid
    · replace hname : name ∈ eraseCredentials p s.vault := hname
      rw [herase, h.mem_eraseCredentials hrow] at hname
      obtain ⟨id', q, hq, htarget, hkey⟩ := h.owned name hname.2
      have hid : id' ≠ id := fun hid => hname.1 (by rw [hkey, hid])
      refine ⟨id', q, ?_, htarget, hkey⟩
      rw [hcontents]
      exact Contents.row_remove_eq_some.mpr ⟨hid, hq⟩

theorem step (h : VaultInv s) {r : ProfileRequest} (hok : Careful s r) {s' : Stores}
    (hs : s.step r = some s') : VaultInv s' := by
  cases hs
  cases r with
  | importOvpn parsed newId now sql => exact h.importOvpn parsed newId now sql
  | setProfileCredentials params win now sql =>
    rcases h.setProfileCredentials hok with ⟨-, heq⟩ | ⟨-, hinv⟩
    · show VaultInv (ServiceApi.setProfileCredentials params win now sql s).1
      rw [heq]
      exact h
    · exact hinv
  | renameProfile params now sql => exact h.editProfile (fun _ => rfl) (fun _ => rfl) now sql
  | setProfileFavorite params now sql => exact h.editProfile (fun _ => rfl) (fun _ => rfl) now sql
  | deleteProfile params sql => exact h.deleteProfile (idParam params) sql

end VaultInv

/-- The flags say what the vault holds, and a request to set credentials that
is answered with an error has changed neither. -/
theorem secrets_agree {requests : List ProfileRequest} {s : Stores}
    (hok : RunMeets Stores.step Careful {} requests) (hr : run Stores.step {} requests = some s) :
    SecretsAgree s ∧ ∀ params win now sql,
      Careful s (.setProfileCredentials params win now sql) →
      (setProfileCredentials params win now sql s).2.isError = true →
        (setProfileCredentials params win now sql s).1 = s := by
  have hinit : VaultInv {} := by
    refine ⟨fun id p hp => ?_, fun id p hp => ?_, fun name hname => ?_⟩
    · cases hp
    · cases hp
    · exact absurd hname (AList.notMem_empty name)
  have hinv := run_invariant (fun _ _ _ h hok hs => h.step hok hs) hinit hok hr
  refine ⟨hinv.agree, fun params win now sql hcareful herror => ?_⟩
  rcases hinv.setProfileCredentials hcareful with ⟨-, heq⟩ | ⟨hupdated, -⟩
  · exact heq
  · rw [hupdated] at herror
    cases herror

/-- A server that asks for a user name and a password. -/
def passwordConfig : ParsedConfig where
  name := "Office"
  remotes := [{ host := "vpn.example.com" }]
  authMethod := .userPassword
  caPem := "CA"
  sourceConfig := "client"

def credentialsOf (password : String) : Doc :=
  .ofFields [("id", .str "a"), ("username", .str "u"), ("password", .str password)]

/-- The profile is imported and its password saved. -/
def passwordSaved : List ProfileRequest :=
  [.importOvpn (.ok passwordConfig) "a" 1 .ok,
    .setProfileCredentials (credentialsOf "secret") .ok 2 .ok]

theorem secrets_agree_saved : ∃ s, run Stores.step {} passwordSaved = some s ∧ SecretsAgree s := by
  have hpassword : (passwordParam (credentialsOf "secret")).isEmpty = false := by decide +kernel
  have hok : RunMeets Stores.step Careful {} passwordSaved := by
    refine runMeets_of_forall fun r hr s => ?_
    simp only [passwordSaved, List.mem_cons, List.not_mem_nil, or_false] at hr
    rcases hr with rfl | rfl
    · trivial
    · refine fun p _ => ⟨fun _ hempty => ?_, fun herror => ?_⟩
      · rw [hpassword] at hempty
        cases hempty
      · cases herror
  exact ⟨_, rfl, (secrets_agree hok rfl).1⟩

/-- The flag is taken back, and the password stays in the vault. -/
theorem secret_kept : ¬ ∀ requests s, run Stores.step {} requests = some s → SecretsAgree s := by
  intro h
  have hrun : (run Stores.step {}
      (passwordSaved ++ [.setProfileCredentials (credentialsOf "") .ok 3 .ok])).map
      (fun s => (SqliteProfileStore.get s.tables "a").toOption.map fun p =>
        (p.credentials.savePassword, s.vault.contains p.credentials.credentialTarget)) =
        some (some (false, true)) := by decide +kernel
  obtain ⟨s, hs, heq⟩ := Option.map_eq_some_iff.mp hrun
  obtain ⟨p, hp, hvalues⟩ := Option.map_eq_some_iff.mp heq
  obtain ⟨hsaved, hcontains⟩ := Prod.mk.inj hvalues
  have hget := Result.eq_ok_of_toOption hp
  have hflag := ((h _ s hs).flag "a" p hget).mpr hcontains
  rw [hsaved] at hflag
  cases hflag

end NovaVpn.ServiceApi
