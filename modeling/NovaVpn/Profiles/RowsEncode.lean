import NovaVpn.Profiles.ProfileRows

/-!
# What the rows stand for

`Encodes`: rows that hold what the tables of `Profiles/Tables.lean` hold, each
row the document of its profile with the columns that repeat it, and each blob
a source sealed. Every call on the rows is one on the tables
(`Encodes.add`, `Encodes.update`, `Encodes.remove`), which may fail for a
reason of its own where a text cannot be dumped or sealed, and what is read is
the same (`Encodes.loadById`).
-/

namespace NovaVpn.Profiles

open NovaVpn.Framework

/-! ## Tables related entry by entry -/

section

variable {α β : Type} {P : α → β → Prop} {a : AList fun _ : String => α}
  {b : AList fun _ : String => β}

def Related (P : α → β → Prop) (a : AList fun _ : String => α) (b : AList fun _ : String => β) :
    Prop :=
  ∀ id, Option.Rel P (a.lookup id) (b.lookup id)

theorem Related.mem_iff (h : Related P a b) {id : String} : id ∈ a ↔ id ∈ b := by
  rw [← AList.lookup_isSome, ← AList.lookup_isSome]
  have hrel := h id
  generalize a.lookup id = x at hrel ⊢
  generalize b.lookup id = y at hrel ⊢
  cases hrel <;> simp

theorem Related.insert (h : Related P a b) (id : String) {x : α} {y : β} (hxy : P x y) :
    Related P (a.insert id x) (b.insert id y) := by
  intro id'
  by_cases hid : id' = id
  · subst hid
    rw [AList.lookup_insert, AList.lookup_insert]
    exact .some hxy
  · rw [AList.lookup_insert_ne hid, AList.lookup_insert_ne hid]
    exact h id'

theorem Related.erase (h : Related P a b) (id : String) : Related P (a.erase id) (b.erase id) := by
  intro id'
  by_cases hid : id' = id
  · subst hid
    rw [AList.lookup_erase, AList.lookup_erase]
    exact .none
  · rw [AList.lookup_erase_ne hid, AList.lookup_erase_ne hid]
    exact h id'

theorem Related.exists_left (h : Related P a b) {id : String} {y : β} (hy : b.lookup id = some y) :
    ∃ x, a.lookup id = some x ∧ P x y := by
  have hrel := h id
  rw [hy] at hrel
  generalize a.lookup id = x at hrel ⊢
  cases hrel with
  | some hxy => exact ⟨_, rfl, hxy⟩

theorem Related.exists_right (h : Related P a b) {id : String} {x : α} (hx : a.lookup id = some x) :
    ∃ y, b.lookup id = some y ∧ P x y := by
  have hrel := h id
  rw [hx] at hrel
  generalize b.lookup id = y at hrel ⊢
  cases hrel with
  | some hxy => exact ⟨_, rfl, hxy⟩

end

/-! ## Rows of profiles -/

theorem toMillis_storedTime (time : SystemTime) : toMillis (storedTime time) = toMillis time :=
  Int.mul_tdiv_cancel _ (by decide)

theorem storedTime_storedTime (time : SystemTime) : storedTime (storedTime time) = storedTime time :=
  congrArg fromUnixMillis (toMillis_storedTime time)

theorem inI64_storedTime {time : SystemTime} (h : InI64 time) : InI64 (storedTime time) := by
  have hdiv : (toMillis time).natAbs = time.natAbs / 10000 := Int.natAbs_tdiv time 10000
  unfold InI64 storedTime fromUnixMillis at *
  omega

namespace Profile

theorem stored_stored (p : Profile) : p.stored.stored = p.stored := by
  simp only [stored, storedTime_storedTime]

theorem Representable.stored {p : Profile} (h : p.Representable) : p.stored.Representable where
  tlsWrapMode := h.tlsWrapMode
  createdAt := inI64_storedTime h.createdAt
  modifiedAt := inI64_storedTime h.modifiedAt
  lastConnectedAt := inI64_storedTime h.lastConnectedAt

theorem Representable.added {p : Profile} (h : p.Representable) (newId : String) {now : SystemTime}
    (hnow : InI64 now) : (p.added newId now).Representable where
  tlsWrapMode := h.tlsWrapMode
  createdAt := by
    show InI64 (if p.metadata.createdAt = 0 then now else p.metadata.createdAt)
    split
    next => exact hnow
    next => exact h.createdAt
  modifiedAt := hnow
  lastConnectedAt := h.lastConnectedAt

theorem Representable.modified {p : Profile} (h : p.Representable) {now : SystemTime}
    (hnow : InI64 now) : (p.modified now).Representable where
  tlsWrapMode := h.tlsWrapMode
  createdAt := h.createdAt
  modifiedAt := hnow
  lastConnectedAt := h.lastConnectedAt

theorem Representable.connected {p : Profile} (h : p.Representable) (sent received : UInt64)
    {now : SystemTime} (hnow : InI64 now) : (Rows.connected p sent received now).Representable where
  tlsWrapMode := h.tlsWrapMode
  createdAt := h.createdAt
  modifiedAt := h.modifiedAt
  lastConnectedAt := hnow

theorem row_stored (p : Profile) (document : String) : p.stored.row document = p.row document := by
  simp only [stored, row, toMillis_storedTime]
  rfl

theorem toJson_stored (p : Profile) :
    p.stored.toJson true = { p with sourceConfig := "" }.toJson true := by
  simp only [toJson, jsonFields, stored, metadataFields, toMillis_storedTime]

end Profile

/-- The row of a profile that went through its document. `created_at` is that
of the insertion, whatever the document says. -/
structure IsRow (c : Codecs) (row : ProfileRow) (p : Profile) : Prop where
  representable : p.Representable
  stored : p.stored = p
  columns : ∃ document, c.dump (p.toJson true) = some document ∧
    row = { p.row document with createdAt := row.createdAt }

structure IsBlob (c : Codecs) (blob : BlobRow) (source : String) : Prop where
  source_eq : c.cryptoUnseal blob.payload = .ok source
  ne_nil : blob.payload ≠ []
  payloadLen : blob.payloadLen = blob.payload.length

structure Encodes (c : Codecs) (r : Rows) (t : Tables) : Prop where
  profiles : Related (IsRow c) r.profiles t.profiles
  tags : r.tags = t.tags
  blobs : Related (IsBlob c) r.blobs t.blobs

variable {c : Codecs} {r r' : Rows} {t : Tables} {p : Profile} {id : String}

theorem IsRow.name {row : ProfileRow} (h : IsRow c row p) : row.name = p.name := by
  obtain ⟨document, -, hrow⟩ := h.columns
  rw [hrow]
  rfl

theorem isRow_row {document : String} (h : p.Representable)
    (hdump : c.dump (p.stored.toJson true) = some document) (createdAt : Int) :
    IsRow c { p.row document with createdAt } p.stored where
  representable := h.stored
  stored := p.stored_stored
  columns := ⟨document, hdump, by rw [p.row_stored]⟩

theorem IsRow.fromJson (hc : c.Lawful) {row : ProfileRow} (h : IsRow c row p) :
    Profiles.fromJson (Rows.parseDocument c row.document).value = .ok p := by
  obtain ⟨document, hdump, hcolumns⟩ := h.columns
  have hdocument : row.document = document := by
    rw [hcolumns]
    rfl
  have hmetadata : p.metadata.rounded = p.metadata := congrArg Profile.metadata h.stored
  rw [Rows.parseDocument, hdocument, hc.parse_dump _ _ hdump, fromJson_toJson h.representable,
    hmetadata]

theorem Encodes.empty : Encodes c {} .empty where
  profiles _ := .none
  tags := rfl
  blobs _ := .none

theorem Rows.nameTaken_eq_false {name : String} : r.nameTaken id name = false ↔
    ∀ id' row, r.profiles.lookup id' = some row → row.name = name → id' = id :=
  any_other_eq_false

/-! A statement that fails gives an error. -/

namespace Rows

theorem sound_insertProfile (id : String) (row : ProfileRow) (r : Rows) :
    (r.insertProfile id row).Sound := by
  unfold insertProfile
  split
  next => exact .error rfl
  next =>
    split
    next => exact .error rfl
    next => exact .ok _

theorem sound_updateProfile (id : String) (row : ProfileRow) (r : Rows) :
    (r.updateProfile id row).Sound := by
  unfold updateProfile
  split
  next => exact .ok _
  next =>
    split
    next => exact .error rfl
    next => exact .ok _

theorem sound_writeTags (p : Profile) (r : Rows) : (writeTags p r).Sound := by
  unfold writeTags
  generalize p.metadata.tags = tags
  induction tags generalizing r with
  | nil => exact .ok r
  | cons tag tags ih =>
    rw [List.foldlM_cons]
    refine Result.Sound.bind ?_ fun r' _ => ih r'
    unfold insertTag
    split
    next => exact .ok _
    next => exact .error rfl

theorem sound_sealSource (hc : c.Lawful) (p : Profile) (env : Env) (r : Rows) :
    (sealSource c p env r).Sound := by
  unfold sealSource
  split
  next => exact .ok r
  next =>
    refine Result.Sound.bind (hc.isError_seal _ _) fun payload _ => ?_
    unfold insertBlob
    split
    next => exact .ok _
    next => exact .error rfl

theorem sound_writeProfileRow (c : Codecs) (p : Profile) (isUpdate : Bool) (r : Rows) :
    (writeProfileRow c p isUpdate r).Sound := by
  simp only [writeProfileRow]
  cases c.dump _ with
  | none => exact .error rfl
  | some document =>
    cases isUpdate with
    | true => exact sound_updateProfile p.id _ r
    | false => exact sound_insertProfile p.id _ r

theorem sound_addBody (hc : c.Lawful) (p : Profile) (env : Env) (r : Rows) :
    (addBody c p env r).Sound :=
  (sound_writeProfileRow c p false r).bind fun r _ =>
    (sound_writeTags p r).bind fun r _ => sound_sealSource hc p env r

theorem sound_updateBody (hc : c.Lawful) (p : Profile) (env : Env) (r : Rows) :
    (updateBody c p env r).Sound := by
  refine (sound_writeProfileRow c p true r).bind fun r _ =>
    (sound_writeTags p (r.deleteTags p.id)).bind fun r _ => ?_
  split
  next => exact .ok r
  next => exact sound_sealSource hc p env r

end Rows

namespace Encodes

theorem nameTaken (h : Encodes c r t) (id name : String) :
    r.nameTaken id name = false ↔ t.nameTaken id name = false := by
  rw [Rows.nameTaken_eq_false, Tables.nameTaken_eq_false]
  constructor
  · intro hr id' p hp hname
    obtain ⟨row, hrow, his⟩ := h.profiles.exists_left hp
    exact hr id' row hrow (his.name.trans hname)
  · intro ht id' row hrow hname
    obtain ⟨p, hp, his⟩ := h.profiles.exists_right hrow
    exact ht id' p hp (his.name.symm.trans hname)

theorem putRow (h : Encodes c r t) {document : String} (hp : p.Representable)
    (hdump : c.dump (p.stored.toJson true) = some document) (createdAt : Int)
    (hname : t.nameTaken p.id p.name = false) :
    Encodes c { r with profiles := r.profiles.insert p.id { p.row document with createdAt } }
      (t.putRow p.stored hname) where
  profiles := h.profiles.insert p.id (isRow_row hp hdump createdAt)
  tags := h.tags
  blobs := h.blobs

/-! Each statement. -/

theorem insertProfile (h : Encodes c r t) {document : String} (hp : p.Representable)
    (hdump : c.dump (p.stored.toJson true) = some document)
    (hr : r.insertProfile p.id (p.row document) = .ok r') :
    ∃ t', Tables.insertProfile p t = some t' ∧ Encodes c r' t' := by
  unfold Rows.insertProfile at hr
  split at hr
  next => cases hr
  next hmem =>
    split at hr
    next => cases hr
    next hname =>
      cases hr
      have hfree : t.nameTaken p.id p.name = false :=
        (h.nameTaken _ _).mp (Bool.eq_false_iff.mpr hname)
      refine ⟨t.putRow p.stored hfree, ?_, h.putRow hp hdump _ hfree⟩
      rw [Tables.insertProfile, if_neg (fun hm => hmem (h.profiles.mem_iff.mpr hm)), dif_pos hfree]

theorem updateProfile (h : Encodes c r t) {document : String} (hp : p.Representable)
    (hdump : c.dump (p.stored.toJson true) = some document)
    (hr : r.updateProfile p.id (p.row document) = .ok r') :
    ∃ t', Tables.updateProfile p t = some t' ∧ Encodes c r' t' := by
  have hmem : p.id ∈ r.profiles ↔ p.id ∈ t.profiles := h.profiles.mem_iff
  unfold Rows.updateProfile at hr
  split at hr
  next hnone =>
    cases hr
    refine ⟨t, ?_, h⟩
    rw [Tables.updateProfile, if_neg]
    rw [← hmem]
    exact AList.lookup_eq_none.mp hnone
  next old hold =>
    split at hr
    next => cases hr
    next hname =>
      cases hr
      have hfree : t.nameTaken p.id p.name = false :=
        (h.nameTaken _ _).mp (Bool.eq_false_iff.mpr hname)
      refine ⟨t.putRow p.stored hfree, ?_, h.putRow hp hdump old.createdAt hfree⟩
      rw [Tables.updateProfile, if_pos, dif_pos hfree]
      rw [← hmem, ← AList.lookup_isSome, hold]
      rfl

theorem deleteTags (h : Encodes c r t) (id : String) :
    ∃ t', Tables.deleteTags id t = some t' ∧ Encodes c (r.deleteTags id) t' := by
  refine ⟨_, rfl, h.profiles, ?_, h.blobs⟩
  rw [Rows.deleteTags, h.tags]

theorem deleteProfile (h : Encodes c r t) (id : String) :
    ∃ t', Tables.deleteProfile id t = some t' ∧ Encodes c (r.deleteProfile id) t' := by
  refine ⟨_, rfl, h.profiles.erase id, ?_, h.blobs.erase id⟩
  rw [Rows.deleteProfile, h.tags]

theorem insertTag (h : Encodes c r t) {tag : String} (hr : Rows.insertTag id r tag = .ok r') :
    ∃ t', Tables.insertTag id tag t = some t' ∧ Encodes c r' t' := by
  unfold Rows.insertTag at hr
  split at hr
  next hmem =>
    cases hr
    have hmem' : id ∈ t.profiles := h.profiles.mem_iff.mp hmem
    refine ⟨_, dif_pos hmem', h.profiles, ?_, h.blobs⟩
    rw [h.tags]
  next => cases hr

theorem insertBlob (h : Encodes c r t) {blob : BlobRow} {source : String}
    (hblob : IsBlob c blob source) (hr : r.insertBlob id blob = .ok r') :
    ∃ t', Tables.insertBlob id source t = some t' ∧ Encodes c r' t' := by
  unfold Rows.insertBlob at hr
  split at hr
  next hmem =>
    cases hr
    have hmem' : id ∈ t.profiles := h.profiles.mem_iff.mp hmem
    exact ⟨_, dif_pos hmem', h.profiles, h.tags, h.blobs.insert id hblob⟩
  next => cases hr

/-! What the calls run in a transaction. -/

theorem writeTags (h : Encodes c r t) (hr : Rows.writeTags p r = .ok r') :
    ∃ t', runScript (SqliteProfileStore.writeTags p) t = some t' ∧ Encodes c r' t' := by
  unfold Rows.writeTags at hr
  unfold SqliteProfileStore.writeTags
  generalize p.metadata.tags = tags at hr ⊢
  induction tags generalizing r t with
  | nil =>
    cases hr
    exact ⟨t, rfl, h⟩
  | cons tag tags ih =>
    rw [List.foldlM_cons] at hr
    obtain ⟨r₁, htag, hrest⟩ := Result.bind_eq_ok_iff.mp hr
    obtain ⟨t₁, ht₁, h₁⟩ := h.insertTag htag
    obtain ⟨t', ht', h'⟩ := ih h₁ hrest
    exact ⟨t', Option.bind_eq_some_iff.mpr ⟨t₁, ht₁, ht'⟩, h'⟩

theorem sealSource (hc : c.Lawful) (h : Encodes c r t) {env : Rows.Env}
    (hr : Rows.sealSource c p env r = .ok r') :
    ∃ t', runScript (SqliteProfileStore.sealSource p) t = some t' ∧ Encodes c r' t' := by
  unfold Rows.sealSource at hr
  unfold SqliteProfileStore.sealSource
  split at hr
  next hempty =>
    cases hr
    exact ⟨t, by rw [if_pos hempty]; rfl, h⟩
  next hempty =>
    obtain ⟨payload, hseal, hinsert⟩ := Result.bind_eq_ok_iff.mp hr
    obtain ⟨hunseal, hne⟩ := hc.unseal_seal _ _ _ hseal
    obtain ⟨t', ht', h'⟩ := h.insertBlob (⟨hunseal, hne, rfl⟩ : IsBlob c _ p.sourceConfig) hinsert
    refine ⟨t', ?_, h'⟩
    rw [if_neg hempty]
    exact Option.bind_eq_some_iff.mpr ⟨t', ht', rfl⟩

theorem writeProfileRow {isUpdate : Bool} (h : Encodes c r t) (hp : p.Representable)
    (hr : Rows.writeProfileRow c p isUpdate r = .ok r') :
    ∃ t', (if isUpdate then Tables.updateProfile p t else Tables.insertProfile p t) = some t' ∧
      Encodes c r' t' := by
  simp only [Rows.writeProfileRow, ← p.toJson_stored] at hr
  cases hdump : c.dump (p.stored.toJson true) with
  | none =>
    rw [hdump] at hr
    cases hr
  | some document =>
    rw [hdump] at hr
    cases isUpdate with
    | true => exact h.updateProfile hp hdump hr
    | false => exact h.insertProfile hp hdump hr

theorem addBody (hc : c.Lawful) (h : Encodes c r t) (hp : p.Representable) {env : Rows.Env}
    (hr : Rows.addBody c p env r = .ok r') :
    ∃ t', runScript (SqliteProfileStore.addScript p) t = some t' ∧ Encodes c r' t' := by
  obtain ⟨r₁, hrow, hrest⟩ := Result.bind_eq_ok_iff.mp hr
  obtain ⟨r₂, htags, hseal⟩ := Result.bind_eq_ok_iff.mp hrest
  obtain ⟨t₁, ht₁, h₁⟩ := h.writeProfileRow hp hrow
  obtain ⟨t₂, ht₂, h₂⟩ := h₁.writeTags htags
  obtain ⟨t', ht', h'⟩ := h₂.sealSource hc hseal
  refine ⟨t', Option.bind_eq_some_iff.mpr ⟨t₁, ht₁, ?_⟩, h'⟩
  rw [runScript_append]
  exact Option.bind_eq_some_iff.mpr ⟨t₂, ht₂, ht'⟩

theorem updateBody (hc : c.Lawful) (h : Encodes c r t) (hp : p.Representable) {env : Rows.Env}
    (hr : Rows.updateBody c p env r = .ok r') :
    ∃ t', runScript (SqliteProfileStore.updateScript p) t = some t' ∧ Encodes c r' t' := by
  obtain ⟨r₁, hrow, hrest⟩ := Result.bind_eq_ok_iff.mp hr
  obtain ⟨r₂, htags, hseal⟩ := Result.bind_eq_ok_iff.mp hrest
  obtain ⟨t₁, ht₁, h₁⟩ := h.writeProfileRow hp hrow
  obtain ⟨t₂, ht₂, h₂⟩ := h₁.deleteTags p.id
  obtain ⟨t₃, ht₃, h₃⟩ := h₂.writeTags htags
  -- the check before `sealSource` is the one it makes itself
  have hseal' : Rows.sealSource c p env r₂ = .ok r' := by
    split at hseal
    next hempty =>
      rw [Rows.sealSource, if_pos hempty]
      exact hseal
    next => exact hseal
  obtain ⟨t', ht', h'⟩ := h₃.sealSource hc hseal'
  refine ⟨t', Option.bind_eq_some_iff.mpr ⟨t₁, ht₁, Option.bind_eq_some_iff.mpr ⟨t₂, ht₂, ?_⟩⟩, h'⟩
  rw [runScript_append]
  exact Option.bind_eq_some_iff.mpr ⟨t₃, ht₃, ht'⟩

/-! The calls. A transaction that fails where the tables would not is one of
which SQLite, or the sealing, failed. -/

theorem transaction (h : Encodes c r t) (sql : Status) (body : Rows → Result Rows)
    (script : List (Tables → Option Tables)) (hsound : (body r).Sound)
    (hbody : ∀ r', body r = .ok r' → ∃ t', runScript script t = some t' ∧ Encodes c r' t') :
    ∃ sql', Encodes c (Rows.transaction sql body r).1 (SqliteProfileStore.transact script sql' t).1 ∧
      (Rows.transaction sql body r).2 = (SqliteProfileStore.transact script sql' t).2 := by
  unfold Rows.transaction
  split
  next hsql =>
    refine ⟨sql, ?_⟩
    rw [SqliteProfileStore.transact, if_pos hsql]
    exact ⟨h, rfl⟩
  next hsql =>
    cases hb : body r with
    | ok r' =>
      obtain ⟨t', ht', h'⟩ := hbody r' hb
      refine ⟨sql, ?_⟩
      rw [SqliteProfileStore.transact, if_neg hsql, ht']
      exact ⟨h', rfl⟩
    | error status =>
      refine ⟨status, ?_⟩
      rw [SqliteProfileStore.transact, if_pos (hsound status hb)]
      exact ⟨h, rfl⟩

theorem loadById (hc : c.Lawful) (h : Encodes c r t) (id : String) :
    Rows.loadById c id r = SqliteProfileStore.get t id := by
  unfold Rows.loadById
  cases hrow : r.profiles.lookup id with
  | none =>
    have hnone : t.profiles.lookup id = none := by
      rw [AList.lookup_eq_none, ← h.profiles.mem_iff, ← AList.lookup_eq_none, hrow]
    rw [SqliteProfileStore.get, hnone]
  | some row =>
    obtain ⟨p, hp, his⟩ := h.profiles.exists_right hrow
    obtain rfl : p.id = id := t.keyed id p hp
    rw [SqliteProfileStore.get, hp]
    show (fromJson (Rows.parseDocument c row.document).value).bind
      (fun p => Rows.unsealSource c p r) = _
    rw [his.fromJson hc]
    show Rows.unsealSource c p r = _
    unfold Rows.unsealSource
    cases hblob : r.blobs.lookup p.id with
    | none =>
      have hnone : t.blobs.lookup p.id = none := by
        rw [AList.lookup_eq_none, ← h.blobs.mem_iff, ← AList.lookup_eq_none, hblob]
      rw [hnone]
      rfl
    | some blob =>
      obtain ⟨source, hsource, hunseal, hne, -⟩ := h.blobs.exists_right hblob
      rw [hsource]
      show (if blob.payload.isEmpty then _ else (c.cryptoUnseal blob.payload).bind _) = _
      rw [if_neg (by rw [List.isEmpty_iff]; exact hne), hunseal]
      rfl

theorem representable_of_get (h : Encodes c r t) (hget : SqliteProfileStore.get t id = .ok p) :
    p.Representable := by
  obtain ⟨row, hrow, rfl⟩ := SqliteProfileStore.get_eq_ok hget
  obtain ⟨_, -, his⟩ := h.profiles.exists_left hrow
  exact ⟨his.representable.tlsWrapMode, his.representable.createdAt, his.representable.modifiedAt,
    his.representable.lastConnectedAt⟩

theorem add (hc : c.Lawful) (h : Encodes c r t) (hp : p.Representable) {env : Rows.Env}
    (hnow : InI64 env.now) : ∃ sql',
      Encodes c (Rows.add c p env r).1 (SqliteProfileStore.add p env.newId env.now sql' t).1 ∧
      (Rows.add c p env r).2.1 = (SqliteProfileStore.add p env.newId env.now sql' t).2 := by
  simp only [Rows.add]
  split
  next hinvalid =>
    refine ⟨env.sql, ?_⟩
    rw [SqliteProfileStore.add, if_pos hinvalid]
    exact ⟨h, rfl⟩
  next hvalid =>
    obtain ⟨sql', hrefines⟩ := h.transaction env.sql (Rows.addBody c (p.added env.newId env.now) env)
      (SqliteProfileStore.addScript (p.added env.newId env.now))
      (Rows.sound_addBody hc (p.added env.newId env.now) env r) fun r' hr =>
        h.addBody hc (hp.added env.newId hnow) hr
    refine ⟨sql', ?_⟩
    rw [SqliteProfileStore.add, if_neg hvalid]
    exact hrefines

theorem update (hc : c.Lawful) (h : Encodes c r t) (hp : p.Representable) {env : Rows.Env}
    (hnow : InI64 env.now) : ∃ sql',
      Encodes c (Rows.update c p env r).1 (SqliteProfileStore.update p env.now sql' t).1 ∧
      (Rows.update c p env r).2 = (SqliteProfileStore.update p env.now sql' t).2 := by
  simp only [Rows.update]
  split
  next hinvalid =>
    refine ⟨env.sql, ?_⟩
    rw [SqliteProfileStore.update, if_pos hinvalid]
    exact ⟨h, rfl⟩
  next hvalid =>
    have hload : Rows.loadById c (p.modified env.now).id r = SqliteProfileStore.get t p.id :=
      h.loadById hc p.id
    rw [hload]
    cases hget : SqliteProfileStore.get t p.id with
    | error status =>
      refine ⟨env.sql, ?_⟩
      rw [SqliteProfileStore.update, if_neg hvalid, hget]
      exact ⟨h, rfl⟩
    | ok q =>
      obtain ⟨sql', hrefines⟩ := h.transaction env.sql (Rows.updateBody c (p.modified env.now) env)
        (SqliteProfileStore.updateScript (p.modified env.now))
        (Rows.sound_updateBody hc (p.modified env.now) env r) fun r' hr =>
          h.updateBody hc (hp.modified hnow) hr
      refine ⟨sql', ?_⟩
      rw [SqliteProfileStore.update, if_neg hvalid, hget]
      exact hrefines

theorem remove (hc : c.Lawful) (h : Encodes c r t) (id : String) (env : Rows.Env) : ∃ sql',
    Encodes c (Rows.remove c id env r).1 (SqliteProfileStore.removeRow id sql' t).1 ∧
    (Rows.remove c id env r).2.isError =
      (SqliteProfileStore.removeRow id sql' t).2.statusOrOk.isError := by
  unfold Rows.remove
  rw [h.loadById hc]
  cases hget : SqliteProfileStore.get t id with
  | error status =>
    refine ⟨env.sql, ?_⟩
    rw [SqliteProfileStore.removeRow, hget]
    exact ⟨h, rfl⟩
  | ok p =>
    obtain ⟨sql', hrefines, hstatus⟩ := h.transaction env.sql (fun r => .ok (r.deleteProfile id))
      (SqliteProfileStore.removeScript id) (.ok (r.deleteProfile id)) fun r' hr => by
        cases hr
        obtain ⟨t', ht', h'⟩ := h.deleteProfile id
        exact ⟨t', Option.bind_eq_some_iff.mpr ⟨t', ht', rfl⟩, h'⟩
    refine ⟨sql', ?_⟩
    rw [SqliteProfileStore.removeRow, hget]
    refine ⟨hrefines, ?_⟩
    show (Rows.transaction env.sql _ r).2.isError = Status.isError (Result.statusOrOk (if _ then _ else _))
    rw [hstatus]
    split
    next herror => rfl
    next herror => exact Bool.eq_false_iff.mpr herror

end Encodes

end NovaVpn.Profiles
