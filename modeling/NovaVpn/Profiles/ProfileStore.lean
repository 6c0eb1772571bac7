import NovaVpn.Profiles.Tables

/-!
# The profile store

`Profiles/SqliteProfileStore.cpp`: `add`, `update` and `remove`, each a check
and a list of statements within a transaction. `client` is the store as what
runs on a connection that threads share. The mutex of the database covers one
statement, not a transaction, so a `BEGIN` of one thread can end the
transaction of another (`failed_add_stays`). `all_or_nothing`: the calls that
return ok are in the database whole and the others not at all, in every run
in which transactions do not meet and no `COMMIT` fails.

`get`, `add`, `update` and `remove` at the end are the calls when nothing
comes between their statements.
-/

namespace NovaVpn.Profiles

open NovaVpn.Framework

/-- What `add` fills in. -/
def Profile.added (p : Profile) (newId : String) (now : SystemTime) : Profile :=
  { p with
    id := if p.id.isEmpty then newId else p.id
    metadata := { p.metadata with
      createdAt := if p.metadata.createdAt = 0 then now else p.metadata.createdAt
      modifiedAt := now } }

/-- What `update` fills in. -/
def Profile.modified (p : Profile) (now : SystemTime) : Profile :=
  { p with metadata := { p.metadata with modifiedAt := now } }

namespace SqliteProfileStore

/-- The calls that write; `newId` is the uuid that is made for a profile
without an id, `now` the time. -/
inductive Call where
  | add (profile : Profile) (newId : String) (now : SystemTime)
  | update (profile : Profile) (now : SystemTime)
  | remove (id : String)

def writeTags (p : Profile) : List (Tables → Option Tables) :=
  p.metadata.tags.map (Tables.insertTag p.id)

def sealSource (p : Profile) : List (Tables → Option Tables) :=
  if p.sourceConfig.isEmpty then [] else [Tables.insertBlob p.id p.sourceConfig]

def addScript (p : Profile) : List (Tables → Option Tables) :=
  Tables.insertProfile p :: (writeTags p ++ sealSource p)

def updateScript (p : Profile) : List (Tables → Option Tables) :=
  Tables.updateProfile p :: Tables.deleteTags p.id :: (writeTags p ++ sealSource p)

def removeScript (id : String) : List (Tables → Option Tables) := [Tables.deleteProfile id]

namespace Call

/-- What is checked before the transaction. -/
def ready : Call → Tables → Bool
  | add p newId now, _ => (p.added newId now).validate.isOk
  | update p now, t => (p.modified now).validate.isOk && p.id ∈ t.profiles
  | remove id, t => id ∈ t.profiles

def script : Call → List (Tables → Option Tables)
  | add p newId now => addScript (p.added newId now)
  | update p now => updateScript (p.modified now)
  | remove id => removeScript id

end Call

end SqliteProfileStore

/-! ## What the calls are for -/

namespace Contents

/-- The profile with its tags; a profile without a source keeps the one that
is there. -/
def write (c : Contents) (p : Profile) : Contents :=
  ((c.setRow p.id (some p.stored)).setTags p.id { tag | tag ∈ p.metadata.tags }).setBlob p.id
    (if p.sourceConfig.isEmpty then c.blob p.id else some p.sourceConfig)

def remove (c : Contents) (id : String) : Contents :=
  ((c.setRow id none).setTags id ∅).setBlob id none

@[simp] theorem setTags_setTags (c : Contents) (id : String) (a b : Set String) :
    (c.setTags id a).setTags id b = c.setTags id b := by
  simp [setTags]

@[simp] theorem setBlob_self (c : Contents) (id : String) : c.setBlob id (c.blob id) = c := by
  simp [setBlob]

@[simp] theorem tags_setRow (c : Contents) (id : String) (row : Option Profile) :
    (c.setRow id row).tags = c.tags := rfl

@[simp] theorem blob_setTags (c : Contents) (id : String) (tags : Set String) :
    (c.setTags id tags).blob = c.blob := rfl

@[simp] theorem tags_setTags_self (c : Contents) (id : String) (tags : Set String) :
    (c.setTags id tags).tags id = tags := Function.update_self ..

theorem row_write_self (c : Contents) (p : Profile) : (c.write p).row p.id = some p.stored :=
  Function.update_self ..

theorem row_write_of_ne (c : Contents) (p : Profile) {id : String} (h : id ≠ p.id) :
    (c.write p).row id = c.row id :=
  Function.update_of_ne h ..

theorem blob_write_self (c : Contents) (p : Profile) : (c.write p).blob p.id =
    if p.sourceConfig.isEmpty then c.blob p.id else some p.sourceConfig :=
  Function.update_self ..

theorem blob_write_of_ne (c : Contents) (p : Profile) {id : String} (h : id ≠ p.id) :
    (c.write p).blob id = c.blob id :=
  Function.update_of_ne h ..

theorem row_remove_of_ne (c : Contents) {id id' : String} (h : id' ≠ id) :
    (c.remove id).row id' = c.row id' :=
  Function.update_of_ne h ..

theorem blob_remove_self (c : Contents) (id : String) : (c.remove id).blob id = none :=
  Function.update_self ..

theorem blob_remove_of_ne (c : Contents) {id id' : String} (h : id' ≠ id) :
    (c.remove id).blob id' = c.blob id' :=
  Function.update_of_ne h ..

theorem row_remove_eq_some {c : Contents} {id id' : String} {p : Profile} :
    (c.remove id).row id' = some p ↔ id' ≠ id ∧ c.row id' = some p := by
  show Function.update c.row id none id' = some p ↔ _
  by_cases h : id' = id
  · subst h
    simp
  · rw [Function.update_of_ne h]
    exact (and_iff_right h).symm

end Contents

namespace SqliteProfileStore

def Call.apply : Call → Contents → Contents
  | add p newId now, c => c.write (p.added newId now)
  | update p now, c => c.write (p.modified now)
  | remove id, c => c.remove id

variable {t t' : Tables} {p : Profile}

theorem contents_insertTags {id : String} {tags : List String}
    (h : runScript (tags.map (Tables.insertTag id)) t = some t') :
    t'.contents = t.contents.setTags id (t.contents.tags id ∪ { tag | tag ∈ tags }) ∧
      (tags ≠ [] → id ∈ t.profiles) := by
  induction tags generalizing t with
  | nil =>
    cases h
    exact ⟨by simp [Contents.setTags], fun hne => absurd rfl hne⟩
  | cons tag tags ih =>
    obtain ⟨t₁, htag, hrun⟩ := Option.bind_eq_some_iff.mp h
    obtain ⟨hmem, hcontents⟩ := Tables.contents_insertTag htag
    refine ⟨?_, fun _ => hmem⟩
    rw [(ih hrun).1, hcontents, Contents.setTags_setTags, Contents.tags_setTags_self]
    congr 1
    ext tag'
    simp only [Set.mem_union, Set.mem_insert_iff, Set.mem_ofPred_eq, List.mem_cons]
    tauto

theorem contents_sealSource (h : runScript (sealSource p) t = some t') :
    t'.contents = t.contents.setBlob p.id
        (if p.sourceConfig.isEmpty then t.contents.blob p.id else some p.sourceConfig) ∧
      (p.sourceConfig.isEmpty = false → p.id ∈ t.profiles) := by
  unfold sealSource at h
  split at h
  next hempty =>
    cases h
    rw [if_pos hempty, Contents.setBlob_self]
    exact ⟨rfl, fun hne => absurd hempty (by rw [hne]; decide)⟩
  next hempty =>
    obtain ⟨t₁, hblob, hrun⟩ := Option.bind_eq_some_iff.mp h
    cases hrun
    obtain ⟨hmem, hcontents⟩ := Tables.contents_insertBlob hblob
    rw [if_neg hempty]
    exact ⟨hcontents, fun _ => hmem⟩

/-- The statements that `add` and `update` end with. -/
theorem contents_writeRest (hnone : t.contents.tags p.id = ∅)
    (h : runScript (writeTags p ++ sealSource p) t = some t') :
    t'.contents = (t.contents.setTags p.id { tag | tag ∈ p.metadata.tags }).setBlob p.id
        (if p.sourceConfig.isEmpty then t.contents.blob p.id else some p.sourceConfig) ∧
      (p.metadata.tags ≠ [] ∨ p.sourceConfig.isEmpty = false → p.id ∈ t.profiles) := by
  rw [runScript_append] at h
  obtain ⟨t₁, htags, hseal⟩ := Option.bind_eq_some_iff.mp h
  obtain ⟨hcontents, hmem⟩ := contents_insertTags htags
  obtain ⟨hcontents', hmem'⟩ := contents_sealSource hseal
  rw [hnone, Set.empty_union] at hcontents
  constructor
  · rw [hcontents', hcontents, Contents.blob_setTags]
  · rintro (hne | hne)
    · exact hmem hne
    · -- the tags leave the rows alone
      have hrow := Tables.mem_profiles.mp (hmem' hne)
      rw [hcontents] at hrow
      exact Tables.mem_profiles.mpr hrow

theorem contents_addScript (h : runScript (addScript p) t = some t') :
    t'.contents = t.contents.write p := by
  obtain ⟨t₁, hinsert, hrest⟩ := Option.bind_eq_some_iff.mp h
  obtain ⟨hnone, hcontents⟩ := Tables.contents_insertProfile hinsert
  have htags : t₁.contents.tags p.id = ∅ := by
    rw [hcontents, Contents.tags_setRow]
    exact Tables.tags_of_row hnone
  rw [(contents_writeRest htags hrest).1, hcontents]
  rfl

/-- An update that finds no row writes no tags and no source. -/
theorem contents_updateScript
    (hfits : p.id ∈ t.profiles ∨ p.metadata.tags ≠ [] ∨ p.sourceConfig.isEmpty = false)
    (h : runScript (updateScript p) t = some t') : t'.contents = t.contents.write p := by
  obtain ⟨t₁, hupdate, hrest⟩ := Option.bind_eq_some_iff.mp h
  obtain ⟨t₂, hdelete, hrest⟩ := Option.bind_eq_some_iff.mp hrest
  have hdeleted := Tables.contents_deleteTags hdelete
  have htags : t₂.contents.tags p.id = ∅ := by
    rw [hdeleted, Contents.tags_setTags_self]
  obtain ⟨hwritten, hmem⟩ := contents_writeRest htags hrest
  rcases Tables.contents_updateProfile hupdate with ⟨-, hcontents⟩ | ⟨hmissing, heq⟩
  · rw [hwritten, hdeleted, hcontents, Contents.setTags_setTags]
    rfl
  · exfalso
    subst heq
    have hrow := Tables.mem_profiles.mp (hmem (hfits.resolve_left hmissing))
    rw [hdeleted] at hrow
    exact hmissing (Tables.mem_profiles.mpr hrow)

theorem contents_removeScript {id : String} (h : runScript (removeScript id) t = some t') :
    t'.contents = t.contents.remove id := by
  obtain ⟨t₁, hdelete, hrest⟩ := Option.bind_eq_some_iff.mp h
  cases hrest
  exact Tables.contents_deleteProfile hdelete

/-! ## Calls from several threads -/

/-- An update that begins finds its row, or has something that needs one. -/
def Call.Fits : Call → Tables → Prop
  | update p _, t => p.id ∈ t.profiles ∨ p.metadata.tags ≠ [] ∨ p.sourceConfig.isEmpty = false
  | _, _ => True

instance : ∀ call t, Decidable (Call.Fits call t)
  | .update p _, t =>
    inferInstanceAs (Decidable
      (p.id ∈ t.profiles ∨ p.metadata.tags ≠ [] ∨ p.sourceConfig.isEmpty = false))
  | .add _ _ _, _ | .remove _, _ => isTrue trivial

theorem Call.contents_script {call : Call} (hfits : call.Fits t)
    (h : runScript call.script t = some t') : t'.contents = call.apply t.contents := by
  cases call with
  | add p newId now => exact contents_addScript h
  | update p now => exact contents_updateScript (p := p.modified now) hfits h
  | remove id => exact contents_removeScript h

/-- The store on a connection. -/
def client : TxnClient Call Tables Contents where
  ready := Call.ready
  script := Call.script
  contents := Tables.contents
  apply := Call.apply
  fits := Call.Fits
  script_apply _ _ _ := Call.contents_script

instance (call : Call) (t : Tables) : Decidable (client.fits call t) :=
  inferInstanceAs (Decidable (call.Fits t))

/-- The connection of a service that has just opened its database. -/
def opened (t : Tables) : SharedConnection Call Tables := { conn := { committed := t } }

/-- The calls that returned ok are in the database, one after the other and
whole, and nothing else is; no transaction is left open. -/
theorem all_or_nothing {t : Tables} {acts : List (ConnAct Call)} {s' : SharedConnection Call Tables}
    (hok : RunMeets (SharedConnection.step client) (BeginsAlone client) (opened t) acts)
    (hr : run (SharedConnection.step client) (opened t) acts = some s') :
    s'.conn.committed.contents = s'.done.foldr Call.apply t.contents ∧
      ((∀ i, s'.stage i = .idle) → s'.conn.working = none) :=
  serial_of_run t hok hr

/-- A profile that passes every check, under a given id. -/
def plainProfile (id : String) : Profile where
  id := id
  name := id
  remotes := [{ host := "vpn.example.com" }]
  authMethod := .staticKey

def addPlain (thread : Nat) (id : String) : List (ConnAct Call) :=
  [.call thread (.add (plainProfile id) "" 1), .check thread true, .begin thread true,
    .exec thread true, .commit thread true]

theorem all_or_nothing_two : ∃ s',
    run (SharedConnection.step client) (opened .empty) (addPlain 0 "a" ++ addPlain 1 "b") =
        some s' ∧
      s'.conn.committed.contents = s'.done.foldr Call.apply Tables.empty.contents := by
  have hsome : (run (SharedConnection.step client) (opened .empty)
      (addPlain 0 "a" ++ addPlain 1 "b")).isSome = true := by decide +kernel
  obtain ⟨s', hs'⟩ := Option.isSome_iff_exists.mp hsome
  exact ⟨s', hs', (all_or_nothing (by decide +kernel) hs').1⟩

/-- Thread 1 begins while thread 0 is in its transaction. -/
def crossing : List (ConnAct Call) :=
  [.call 0 (.add (plainProfile "a") "" 1), .check 0 true,
    .call 1 (.add (plainProfile "b") "" 1), .check 1 true,
    .begin 0 true, .begin 1 true, .exec 0 true, .commit 0 true]

/-- Thread 1's `ROLLBACK` ends the transaction of thread 0, whose `INSERT`
then takes effect at once and whose `COMMIT` fails. -/
theorem failed_add_stays : ¬ ∀ t acts s',
    run (SharedConnection.step client) (opened t) acts = some s' →
      s'.conn.committed.contents = s'.done.foldr Call.apply t.contents := by
  intro h
  have hrun : (run (SharedConnection.step client) (opened .empty) crossing).map
      (fun s => (s.done.isEmpty, (s.conn.committed.profiles.lookup "a").isSome)) =
        some (true, true) := by decide +kernel
  obtain ⟨s', hs', heq⟩ := Option.map_eq_some_iff.mp hrun
  obtain ⟨hdone, hrow⟩ := Prod.mk.inj heq
  have hcontents := h .empty crossing s' hs'
  rw [List.isEmpty_iff.mp hdone] at hcontents
  have hnone : s'.conn.committed.profiles.lookup "a" = none :=
    congrArg (fun c : Contents => c.row "a") hcontents
  rw [hnone] at hrow
  cases hrow

/-! ## Calls one at a time -/

/-- `loadById`, with the source unsealed. -/
def get (t : Tables) (id : String) : Result Profile :=
  match t.profiles.lookup id with
  | none => .error (Err.notFound ("no profile with id " ++ id))
  | some p => .ok { p with sourceConfig := (t.blobs.lookup id).getD p.sourceConfig }

/-- `sqliteError` of a failed constraint, less the detail that SQLite adds. -/
def constraintFailed : Status where
  code := .alreadyExists
  message := "step: constraint failed"
  platformCode := 19

/-- A transaction; `sql` is an error if SQLite, or the sealing of the source,
fails for a reason of its own. -/
def transact (script : List (Tables → Option Tables)) (sql : Status) (t : Tables) :
    Tables × Status :=
  if sql.isError then (t, sql)
  else
    match runScript script t with
    | some t' => (t', .ok)
    | none => (t, constraintFailed)

def add (p : Profile) (newId : String) (now : SystemTime) (sql : Status) (t : Tables) :
    Tables × Status :=
  if (p.added newId now).validate.isError then (t, (p.added newId now).validate)
  else transact (addScript (p.added newId now)) sql t

def update (p : Profile) (now : SystemTime) (sql : Status) (t : Tables) : Tables × Status :=
  if (p.modified now).validate.isError then (t, (p.modified now).validate)
  else
    match get t p.id with
    | .error status => (t, status)
    | .ok _ => transact (updateScript (p.modified now)) sql t

/-- `remove` up to the vault, with the profile whose entries are to go. -/
def removeRow (id : String) (sql : Status) (t : Tables) : Tables × Result Profile :=
  match get t id with
  | .error status => (t, .error status)
  | .ok p =>
    let removed := transact (removeScript id) sql t
    (removed.1, if removed.2.isError then .error removed.2 else .ok p)

/-- A call that fails leaves the tables as they were. -/
theorem transact_cases (script : List (Tables → Option Tables)) (sql : Status) (t : Tables) :
    ((transact script sql t).2.isError = true ∧ (transact script sql t).1 = t) ∨
      ∃ t', runScript script t = some t' ∧ transact script sql t = (t', .ok) := by
  unfold transact
  split
  next hsql => exact Or.inl ⟨hsql, rfl⟩
  next =>
    split
    next t' hrun => exact Or.inr ⟨t', hrun, rfl⟩
    next => exact Or.inl ⟨rfl, rfl⟩

theorem get_eq_ok {id : String} (h : get t id = .ok p) :
    ∃ row, t.contents.row id = some row ∧
      p = { row with sourceConfig := (t.contents.blob id).getD row.sourceConfig } := by
  unfold get at h
  split at h
  next => cases h
  next row hrow =>
    cases h
    exact ⟨row, hrow, rfl⟩

theorem isError_of_get {id : String} {status : Status} (h : get t id = .error status) :
    status.isError = true := by
  unfold get at h
  split at h
  next =>
    cases h
    rfl
  next => cases h

theorem get_of_row {id : String} {row : Profile} (h : t.contents.row id = some row) :
    get t id = .ok { row with sourceConfig := (t.contents.blob id).getD row.sourceConfig } := by
  have hlookup : t.profiles.lookup id = some row := h
  rw [get, hlookup]
  rfl

/-- What is read after a profile was written. -/
theorem get_write {q : Profile} (h : t'.contents = t.contents.write q) :
    get t' q.id = .ok { q.stored with sourceConfig :=
      (if q.sourceConfig.isEmpty then t.contents.blob q.id else some q.sourceConfig).getD "" } := by
  have hrow : t'.contents.row q.id = some q.stored := by
    rw [h]
    exact Contents.row_write_self ..
  rw [get_of_row hrow, h, Contents.blob_write_self]
  rfl

theorem id_of_get {id : String} (h : get t id = .ok p) : p.id = id := by
  obtain ⟨row, hrow, rfl⟩ := get_eq_ok h
  exact t.keyed id row hrow

theorem add_cases (p : Profile) (newId : String) (now : SystemTime) (sql : Status) (t : Tables) :
    ((add p newId now sql t).2.isError = true ∧ (add p newId now sql t).1 = t) ∨
      ((p.added newId now).validate.isError = false ∧
        t.contents.row (p.added newId now).id = none ∧
        (add p newId now sql t).1.contents = t.contents.write (p.added newId now) ∧
        (add p newId now sql t).2 = .ok) := by
  unfold add
  split
  next herror => exact Or.inl ⟨herror, rfl⟩
  next hvalid =>
    rcases transact_cases (addScript (p.added newId now)) sql t with hfail | ⟨t', hrun, heq⟩
    · exact Or.inl hfail
    · obtain ⟨t₁, hinsert, -⟩ := Option.bind_eq_some_iff.mp hrun
      rw [heq]
      exact Or.inr ⟨Bool.eq_false_iff.mpr hvalid, (Tables.contents_insertProfile hinsert).1,
        contents_addScript hrun, rfl⟩

theorem update_cases (p : Profile) (now : SystemTime) (sql : Status) (t : Tables) :
    ((update p now sql t).2.isError = true ∧ (update p now sql t).1 = t) ∨
      ((p.modified now).validate.isError = false ∧
        (update p now sql t).1.contents = t.contents.write (p.modified now) ∧
        (update p now sql t).2 = .ok) := by
  unfold update
  split
  next herror => exact Or.inl ⟨herror, rfl⟩
  next hvalid =>
    split
    next status hget => exact Or.inl ⟨isError_of_get hget, rfl⟩
    next q hget =>
      rcases transact_cases (updateScript (p.modified now)) sql t with hfail | ⟨t', hrun, heq⟩
      · exact Or.inl hfail
      · obtain ⟨row, hrow, -⟩ := get_eq_ok hget
        have hmem : p.id ∈ t.profiles := Tables.mem_profiles.mpr (by rw [hrow]; rfl)
        rw [heq]
        exact Or.inr ⟨Bool.eq_false_iff.mpr hvalid,
          contents_updateScript (p := p.modified now) (Or.inl hmem) hrun, rfl⟩

theorem removeRow_cases (id : String) (sql : Status) (t : Tables) :
    (∃ status, removeRow id sql t = (t, .error status)) ∨
      ∃ t' p, get t id = .ok p ∧ removeRow id sql t = (t', .ok p) ∧
        t'.contents = t.contents.remove id := by
  unfold removeRow
  split
  next status _ => exact Or.inl ⟨status, rfl⟩
  next p hget =>
    rcases transact_cases (removeScript id) sql t with ⟨herror, heq⟩ | ⟨t', hrun, heq⟩
    · refine Or.inl ⟨(transact (removeScript id) sql t).2, ?_⟩
      simp only [heq, herror, if_true]
    · refine Or.inr ⟨t', p, hget, ?_, contents_removeScript hrun⟩
      rw [heq]
      rfl

theorem isError_of_removeRow {id : String} {sql status : Status}
    (h : (removeRow id sql t).2 = .error status) : status.isError = true := by
  unfold removeRow at h
  split at h
  next hget =>
    cases h
    exact isError_of_get hget
  next =>
    simp only at h
    split at h
    next herror =>
      cases h
      exact herror
    next => cases h

/-! What makes an update succeed: there is a row, and the name is free. -/

theorem runScript_insertTags {id : String} (tags : List String) (h : id ∈ t.profiles) :
    ∃ t', runScript (tags.map (Tables.insertTag id)) t = some t' ∧ t'.profiles = t.profiles := by
  induction tags generalizing t with
  | nil => exact ⟨t, rfl, rfl⟩
  | cons tag tags ih =>
    simp only [List.map_cons, runScript, Tables.insertTag, dif_pos h, Option.bind_some]
    exact ih h

theorem runScript_sealSource (h : p.id ∈ t.profiles) :
    ∃ t', runScript (sealSource p) t = some t' := by
  unfold sealSource
  split
  next => exact ⟨t, rfl⟩
  next =>
    simp only [runScript, Tables.insertBlob, dif_pos h, Option.bind_some]
    exact ⟨_, rfl⟩

theorem runScript_updateScript (h : p.id ∈ t.profiles) (hname : t.nameTaken p.id p.name = false) :
    ∃ t', runScript (updateScript p) t = some t' := by
  simp only [updateScript, runScript, Tables.updateProfile, if_pos h, dif_pos hname,
    Option.bind_some, Tables.deleteTags, runScript_append]
  have hput : p.id ∈ (t.putRow p.stored hname).profiles :=
    (AList.mem_insert t.profiles).mpr (Or.inl rfl)
  obtain ⟨t₁, htags, hprofiles⟩ := runScript_insertTags p.metadata.tags
    (t := { t.putRow p.stored hname with
      tags := (t.putRow p.stored hname).tags.filter fun e => e.1 ≠ p.id
      tagged := fun id tag htag => (t.putRow p.stored hname).tagged id tag
        (Finset.mem_of_mem_filter _ htag) }) hput
  obtain ⟨t₂, hseal⟩ := runScript_sealSource (t := t₁) (by rw [hprofiles]; exact hput)
  refine ⟨t₂, ?_⟩
  rw [writeTags, htags]
  exact hseal

/-- An update that keeps the name fails only if the checks or SQLite do. -/
theorem update_ok {row : Profile} {now : SystemTime} {sql : Status}
    (hrow : t.contents.row p.id = some row) (hname : p.name = row.name)
    (hvalid : (p.modified now).validate.isError = false) (hsql : sql.isError = false) :
    (update p now sql t).2 = .ok := by
  have hmem : p.id ∈ t.profiles := Tables.mem_profiles.mpr (by rw [hrow]; rfl)
  have hfree : t.nameTaken p.id p.name = false := by
    rw [Tables.nameTaken_eq_false]
    intro id' q hq hqname
    exact t.unique id' p.id q row hq hrow (hqname.trans hname)
  obtain ⟨t', hrun⟩ := runScript_updateScript (p := p.modified now) hmem hfree
  rw [update, if_neg (by rw [hvalid]; decide), get_of_row hrow]
  show (transact (updateScript (p.modified now)) sql t).2 = .ok
  rw [transact, if_neg (by rw [hsql]; decide), hrun]

end SqliteProfileStore

end NovaVpn.Profiles
