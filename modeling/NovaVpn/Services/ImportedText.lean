import NovaVpn.Framework.Machine
import NovaVpn.Profiles.Dangerous
import NovaVpn.Services.ProfileApi

/-!
# The text that runs

An imported configuration on its way to the engine: `importOvpnText` parses
it, reports the dangerous directives as rejected and stores the profile;
`Connect` loads it again, and `OpenVpnEngine::start` hands its source to
OpenVPN3. The source is the text as it was imported, with the lines that were
rejected still in it (`rejected_reaches_engine`), so that the engine is kept
from them for the texts that have none (`kept_from_engine_iff`).
-/

namespace NovaVpn.ServiceApi

open NovaVpn.Framework NovaVpn.Profiles

/-- `ovpn::Config`, as `OpenVpnEngine::start` fills it in. -/
structure OvpnConfig where
  content : String
  info : Bool
  tunPersist : Bool
  guiVersion : String
  connTimeout : Nat
  wintun : Bool
  disableClientCert : Bool
  compressionMode : String
  deriving DecidableEq, Repr

def startConfig (p : Profile) : OvpnConfig where
  content := p.sourceConfig
  info := true
  tunPersist := false
  guiVersion := "NovaVPN"
  connTimeout := 60
  wintun := true
  disableClientCert := p.authMethod = .userPassword || p.authMethod = .userPasswordTotp
  compressionMode := "asym"

/-- What the engine gets when a profile is connected: the tunnel is made for
the profile that is read, and starts the engine with that. -/
def connectConfig (s : Stores) (profileId : String) : Result OvpnConfig :=
  (SqliteProfileStore.get s.tables profileId).map startConfig

/-- `importOvpnText`. -/
def importOvpnText (files : SideFiles) (text : List Char) (suggestedName newId : String)
    (now : SystemTime) (sql : Status) (s : Stores) : Stores × Result ImportReport :=
  match parseOvpn files { suggestedName } text with
  | .error status => (s, .error status)
  | .ok report =>
    let profile := importedProfile report.profile newId
    let added := SqliteProfileStore.add profile newId now sql s.tables
    ({ s with tables := added.1 },
      if added.2.isError then .error added.2 else .ok { report with profile })

/-- What was imported under an id, and what its report lists as rejected. -/
structure Import where
  text : List Char
  rejected : List String
  deriving DecidableEq, Repr

/-- The stores, with the last import of every id beside them. -/
structure TextStores where
  stores : Stores := {}
  imports : AList fun _ : String => Import := ∅

/-- The requests that write to the profiles, and `recordConnection`. -/
inductive TextRequest where
  | importOvpn (text : List Char) (name newId : String) (now : SystemTime) (sql : Status)
  | setProfileCredentials (params : Doc) (win : Status) (now : SystemTime) (sql : Status)
  | editProfile (id : String) (edit : ProfileEdit) (now : SystemTime) (sql : Status)
  | deleteProfile (params : Doc) (sql : Status)

namespace TextStores

def step (files : SideFiles) (s : TextStores) : TextRequest → Option TextStores
  | .importOvpn text name newId now sql =>
    let imported := importOvpnText files text name newId now sql s.stores
    some
      { stores := imported.1
        imports :=
          match imported.2 with
          | .error _ => s.imports
          | .ok report =>
            s.imports.insert newId { text, rejected := report.rejectedDirectives } }
  | .setProfileCredentials params win now sql =>
    some { s with stores := (ServiceApi.setProfileCredentials params win now sql s.stores).1 }
  | .editProfile id edit now sql =>
    some { s with stores := (ServiceApi.editProfile id edit now sql s.stores).1 }
  | .deleteProfile params sql =>
    some { s with stores := (ServiceApi.deleteProfile (idParam params) sql s.stores).1 }

end TextStores

/-! ## The source is the text that was imported -/

@[simp] theorem ProfileEdit.sourceConfig_apply (edit : ProfileEdit) (id : String) (p : Profile) :
    (edit.apply id p).sourceConfig = p.sourceConfig := by
  cases edit <;> rfl

@[simp] theorem ProfileEdit.sourceHash_apply (edit : ProfileEdit) (id : String) (p : Profile) :
    (edit.apply id p).sourceHash = p.sourceHash := by
  cases edit <;> rfl

/-- A text that is accepted names a server. -/
theorem ne_nil_of_parse {files : SideFiles} {options : OvpnParseOptions} {text : List Char}
    {report : ImportReport} (h : parseOvpn files options text = .ok report) : text ≠ [] := by
  rintro rfl
  cases h

theorem importOvpnText_cases (files : SideFiles) (text : List Char) (name newId : String)
    (now : SystemTime) (sql : Status) (s : Stores) :
    (∃ status, importOvpnText files text name newId now sql s = (s, .error status)) ∨
      ∃ t report p, importOvpnText files text name newId now sql s =
          ({ s with tables := t }, .ok report) ∧
        text ≠ [] ∧ report.rejectedDirectives = dangerousKeywords none (Str.split '\n' text) ∧
        t.contents = s.tables.contents.write p ∧ p.id = newId ∧
        p.sourceConfig = String.ofList text ∧
        p.sourceHash = toHex ((String.ofList text).toUTF8.toList.take 32) := by
  unfold importOvpnText
  split
  next status _ => exact Or.inl ⟨status, rfl⟩
  next report hparse =>
    have hsource := sourceConfig_of_parse hparse
    rcases SqliteProfileStore.add_cases (importedProfile report.profile newId) newId now sql
      s.tables with ⟨herror, heq⟩ | ⟨-, -, hcontents, hok⟩
    · refine Or.inl
        ⟨(SqliteProfileStore.add (importedProfile report.profile newId) newId now sql s.tables).2, ?_⟩
      simp only [heq, herror, if_true]
    · refine Or.inr ⟨_, { report with profile := importedProfile report.profile newId }, _, ?_,
        ne_nil_of_parse hparse, ?_, hcontents, ite_self newId, hsource, ?_⟩
      · simp only [hok, Status.isError_ok, Bool.false_eq_true, if_false]
      · show report.rejectedDirectives = _
        rw [rejected_eq rfl hparse, (items_kept _).2]
      · exact congrArg (fun source : String => toHex (source.toUTF8.toList.take 32)) hsource

/-- A profile is edited as it is read, or nothing is written. -/
theorem editProfile_cases (id : String) (edit : ProfileEdit) (now : SystemTime) (sql : Status)
    (s : Stores) :
    (editProfile id edit now sql s).1 = s ∨
      ∃ p, SqliteProfileStore.get s.tables id = .ok p ∧
        (editProfile id edit now sql s).1.tables.contents =
          s.tables.contents.write ((edit.apply id p).modified now) := by
  unfold editProfile
  split
  next => exact Or.inl rfl
  next p hget =>
    rcases SqliteProfileStore.update_cases (edit.apply id p) now sql s.tables with
      ⟨-, heq⟩ | ⟨-, hcontents, -⟩
    · exact Or.inl (by simp only [heq])
    · exact Or.inr ⟨p, hget, hcontents⟩

/-- As `editProfile_cases`; here the vault may have changed where the tables
have not. -/
theorem setProfileCredentials_cases (params : Doc) (win : Status) (now : SystemTime) (sql : Status)
    (s : Stores) :
    (setProfileCredentials params win now sql s).1.tables = s.tables ∨
      ∃ p, SqliteProfileStore.get s.tables (idParam params) = .ok p ∧
        (setProfileCredentials params win now sql s).1.tables.contents =
          s.tables.contents.write
            (((credentialsParams params).apply (idParam params) p).modified now) := by
  unfold setProfileCredentials
  split
  next => exact Or.inl rfl
  next p hget =>
    dsimp only
    split
    next => exact Or.inl rfl
    next =>
      rcases SqliteProfileStore.update_cases ((credentialsParams params).apply (idParam params) p)
        now sql s.tables with ⟨-, heq⟩ | ⟨-, hcontents, -⟩
      · exact Or.inl heq
      · exact Or.inr ⟨p, hget, hcontents⟩

/-- What a request can do to the contents and to the imports. -/
inductive TextStores.Moves (s s' : TextStores) : Prop where
  | none (hcontents : s'.stores.tables.contents = s.stores.tables.contents)
      (himports : s'.imports = s.imports)
  | imported (text : List Char) (p : Profile) (hne : text ≠ [])
      (hsource : p.sourceConfig = String.ofList text)
      (hhash : p.sourceHash = toHex ((String.ofList text).toUTF8.toList.take 32))
      (hcontents : s'.stores.tables.contents = s.stores.tables.contents.write p)
      (himports : s'.imports = s.imports.insert p.id
        { text, rejected := dangerousKeywords Option.none (Str.split '\n' text) })
  | edited (id : String) (edit : ProfileEdit) (now : SystemTime) (p : Profile)
      (hget : SqliteProfileStore.get s.stores.tables id = .ok p)
      (hcontents : s'.stores.tables.contents =
        s.stores.tables.contents.write ((edit.apply id p).modified now))
      (himports : s'.imports = s.imports)
  | removed (id : String) (hcontents : s'.stores.tables.contents = s.stores.tables.contents.remove id)
      (himports : s'.imports = s.imports)

theorem TextStores.moves_of_step {files : SideFiles} {s s' : TextStores} {r : TextRequest}
    (hs : s.step files r = some s') : s.Moves s' := by
  cases r with
  | importOvpn text name newId now sql =>
    simp only [TextStores.step, Option.some.injEq] at hs
    subst hs
    rcases importOvpnText_cases files text name newId now sql s.stores with
      ⟨status, heq⟩ | ⟨t, report, p, heq, hne, hrejected, hcontents, rfl, hsource, hhash⟩
    · exact .none (by simp only [heq]) (by simp only [heq])
    · exact .imported text p hne hsource hhash (by simp only [heq, hcontents])
        (by simp only [heq, hrejected])
  | setProfileCredentials params win now sql =>
    cases hs
    rcases setProfileCredentials_cases params win now sql s.stores with heq | ⟨p, hget, hcontents⟩
    · exact .none (congrArg Tables.contents heq) rfl
    · exact .edited _ _ now p hget hcontents rfl
  | editProfile id edit now sql =>
    cases hs
    rcases editProfile_cases id edit now sql s.stores with heq | ⟨p, hget, hcontents⟩
    · exact .none (congrArg (fun stores : Stores => stores.tables.contents) heq) rfl
    · exact .edited id edit now p hget hcontents rfl
  | deleteProfile params sql =>
    cases hs
    unfold ServiceApi.deleteProfile
    rcases SqliteProfileStore.removeRow_cases (idParam params) sql s.stores.tables with
      ⟨status, heq⟩ | ⟨t, p, -, heq, hcontents⟩
    · exact .none (by simp only [heq]) rfl
    · exact .removed (idParam params) (by simp only [heq, hcontents]) rfl

/-- Every profile has the text it was imported from, and the report lists the
dangerous directives of that. -/
structure TextInv (s : TextStores) : Prop where
  reported : ∀ id record, s.imports.lookup id = some record →
    record.text ≠ [] ∧ record.rejected = dangerousKeywords none (Str.split '\n' record.text)
  kept : ∀ id row, s.stores.tables.contents.row id = some row →
    ∃ record, s.imports.lookup id = some record ∧
      s.stores.tables.contents.blob id = some (String.ofList record.text)

namespace TextInv

variable {s s' : TextStores} {id : String} {p : Profile}

/-- A profile that is read has its text. -/
theorem sourceConfig_of_get (h : TextInv s)
    (hget : SqliteProfileStore.get s.stores.tables id = .ok p) :
    ∃ record, s.imports.lookup id = some record ∧ p.sourceConfig = String.ofList record.text := by
  obtain ⟨row, hrow, rfl⟩ := SqliteProfileStore.get_eq_ok hget
  obtain ⟨record, hrecord, hblob⟩ := h.kept id row hrow
  refine ⟨record, hrecord, ?_⟩
  show (s.stores.tables.contents.blob id).getD row.sourceConfig = _
  rw [hblob]
  rfl

/-- A row is written with the text that the id was imported from. -/
theorem written {record : Import} (h : TextInv s)
    (hcontents : s'.stores.tables.contents = s.stores.tables.contents.write p)
    (hrecord : s'.imports.lookup p.id = some record)
    (hothers : ∀ id, id ≠ p.id → s'.imports.lookup id = s.imports.lookup id)
    (hreported : record.text ≠ [] ∧
      record.rejected = dangerousKeywords none (Str.split '\n' record.text))
    (hsource : p.sourceConfig = String.ofList record.text) : TextInv s' := by
  refine ⟨fun id record' hlookup => ?_, fun id row hrow => ?_⟩
  · by_cases hid : id = p.id
    · subst hid
      cases hrecord.symm.trans hlookup
      exact hreported
    · exact h.reported id record' ((hothers id hid).symm.trans hlookup)
  · rw [hcontents] at hrow ⊢
    by_cases hid : id = p.id
    · subst hid
      have hne : p.sourceConfig.isEmpty = false := by
        simpa [hsource] using hreported.1
      refine ⟨record, hrecord, ?_⟩
      rw [Contents.blob_write_self, hne, hsource]
      rfl
    · rw [Contents.row_write_of_ne _ _ hid] at hrow
      rw [Contents.blob_write_of_ne _ _ hid, hothers id hid]
      exact h.kept id row hrow

theorem moves (h : TextInv s) (hm : s.Moves s') : TextInv s' := by
  cases hm with
  | none hcontents himports =>
    refine ⟨?_, ?_⟩
    · rw [himports]
      exact h.reported
    · rw [hcontents, himports]
      exact h.kept
  | imported text p hne hsource hhash hcontents himports =>
    refine h.written hcontents (by rw [himports]; exact AList.lookup_insert _) (fun id hid => ?_)
      ⟨hne, rfl⟩ hsource
    rw [himports]
    exact AList.lookup_insert_ne hid
  | edited id edit now p hget hcontents himports =>
    -- an edit reads the text and writes it back
    obtain ⟨record, hrecord, hsource⟩ := h.sourceConfig_of_get hget
    have hid : ((edit.apply id p).modified now).id = id :=
      (edit.id_apply id p).trans (SqliteProfileStore.id_of_get hget)
    refine h.written hcontents (by rw [hid, himports]; exact hrecord)
      (fun _ _ => by rw [himports]) (h.reported id record hrecord) ?_
    rw [← hsource]
    exact edit.sourceConfig_apply id p
  | removed id hcontents himports =>
    refine ⟨?_, fun id' row hrow => ?_⟩
    · rw [himports]
      exact h.reported
    · rw [hcontents] at hrow ⊢
      obtain ⟨hne, hrow⟩ := Contents.row_remove_eq_some.mp hrow
      rw [Contents.blob_remove_of_ne _ hne, himports]
      exact h.kept id' row hrow

end TextInv

/-! ## What the engine is kept from -/

/-- None of the directives that the import lists as rejected is on a top-level
line of what the engine gets. -/
def KeptFromEngine (record : Import) (config : OvpnConfig) : Prop :=
  ∀ keyword ∈ record.rejected, keyword ∉ topLevelKeywords config.content.toList

instance (record : Import) (config : OvpnConfig) : Decidable (KeptFromEngine record config) :=
  inferInstanceAs (Decidable (∀ keyword ∈ record.rejected, _))

theorem textInv_of_run {files : SideFiles} {requests : List TextRequest} {s : TextStores}
    (hr : run (TextStores.step files) {} requests = some s) : TextInv s := by
  refine run_invariant' (fun _ _ _ h hs => h.moves (TextStores.moves_of_step hs))
    ⟨fun id record h => ?_, fun id row h => ?_⟩ hr
  · cases h
  · cases h

/-- After every run, and for every profile that was imported: what was
rejected is kept from the engine exactly if nothing had to be rejected. -/
theorem kept_from_engine_iff {files : SideFiles} {requests : List TextRequest} {s : TextStores}
    (hr : run (TextStores.step files) {} requests = some s) {id : String} {record : Import}
    (himport : s.imports.lookup id = some record) {config : OvpnConfig}
    (hconnect : connectConfig s.stores id = .ok config) :
    KeptFromEngine record config ↔ dangerousKeywords none (Str.split '\n' record.text) = [] := by
  have hinv := textInv_of_run hr
  obtain ⟨-, hrejected⟩ := hinv.reported id record himport
  have hcontent : config.content.toList = record.text := by
    cases hget : SqliteProfileStore.get s.stores.tables id with
    | error status =>
      rw [connectConfig, hget] at hconnect
      cases hconnect
    | ok p =>
      rw [connectConfig, hget] at hconnect
      cases hconnect
      obtain ⟨record', hrecord, hsource⟩ := hinv.sourceConfig_of_get hget
      cases himport.symm.trans hrecord
      show p.sourceConfig.toList = _
      rw [hsource, String.toList_ofList]
  rw [KeptFromEngine, hrejected, hcontent]
  refine ⟨fun h => List.eq_nil_iff_forall_not_mem.mpr fun keyword hkeyword => ?_, fun h => ?_⟩
  · exact h keyword hkeyword (mem_topLevelKeywords hkeyword)
  · rw [h]
    exact fun keyword hkeyword => absurd hkeyword List.not_mem_nil

/-- A server with a user name and a password, and one more line. -/
def textWith (line : String) : List Char :=
  ("client\nremote vpn.example.com 1194\nauth-user-pass\n" ++ line ++
    "\n<ca>\nCA\n</ca>\n").toList

/-- The text is imported under an id, and the profile renamed. -/
def importThenRename (line : String) : List TextRequest :=
  [.importOvpn (textWith line) "Office" "a" 1 .ok, .editProfile "a" (.rename "Home") 2 .ok]

/-- What the import has rejected, what it had to reject, and what the engine
gets. -/
def observed (line : String) : Option (List String × List String × List String) :=
  (run (TextStores.step noFiles) {} (importThenRename line)).bind fun s =>
    (s.imports.lookup "a").bind fun record =>
      (connectConfig s.stores "a").toOption.map fun config =>
        (record.rejected, dangerousKeywords none (Str.split '\n' record.text),
          topLevelKeywords config.content.toList)

theorem exists_of_observed {line : String} {rejected found handed : List String}
    (h : observed line = some (rejected, found, handed)) : ∃ s record config,
      run (TextStores.step noFiles) {} (importThenRename line) = some s ∧
        s.imports.lookup "a" = some record ∧ connectConfig s.stores "a" = .ok config ∧
        record.rejected = rejected ∧ dangerousKeywords none (Str.split '\n' record.text) = found ∧
        topLevelKeywords config.content.toList = handed := by
  obtain ⟨s, hs, h⟩ := Option.bind_eq_some_iff.mp h
  obtain ⟨record, hrecord, h⟩ := Option.bind_eq_some_iff.mp h
  obtain ⟨config, hconfig, h⟩ := Option.map_eq_some_iff.mp h
  simp only [Prod.mk.injEq] at h
  exact ⟨s, record, config, hs, hrecord, Result.eq_ok_of_toOption hconfig, h⟩

theorem kept_from_engine_iff_plain : ∃ s record config,
    run (TextStores.step noFiles) {} (importThenRename "nobind") = some s ∧
      s.imports.lookup "a" = some record ∧ connectConfig s.stores "a" = .ok config ∧
      KeptFromEngine record config := by
  have hobserved : observed "nobind" =
      some ([], [], ["client", "remote", "auth-user-pass", "nobind"]) := by decide +kernel
  obtain ⟨s, record, config, hs, hrecord, hconfig, -, hnone, -⟩ := exists_of_observed hobserved
  exact ⟨s, record, config, hs, hrecord, hconfig,
    (kept_from_engine_iff hs hrecord hconfig).mpr hnone⟩

/-- The `up` line is reported as rejected, and the engine gets it. -/
theorem rejected_reaches_engine : ¬ ∀ files requests s,
    run (TextStores.step files) {} requests = some s → ∀ id record config,
      s.imports.lookup id = some record → connectConfig s.stores id = .ok config →
        KeptFromEngine record config := by
  intro h
  have hobserved : observed "up evil.exe" =
      some (["up"], ["up"], ["client", "remote", "auth-user-pass", "up"]) := by decide +kernel
  obtain ⟨s, record, config, hs, hrecord, hconfig, hrejected, -, hhanded⟩ :=
    exists_of_observed hobserved
  refine h _ _ s hs "a" record config hrecord hconfig "up" ?_ ?_
  · rw [hrejected]
    decide
  · rw [hhanded]
    decide

end NovaVpn.ServiceApi
