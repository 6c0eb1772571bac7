import NovaVpn.Profiles.ProfileQueries

/-!
# What the profile store returns

The store over any sequence of `add`, `update`, `remove` and
`recordConnection`, from an empty database. `written_is_read`: after an `add`
or an `update` that returned ok, `get` gives the profile it wrote, with the
last source that was written for the id since a profile with this id was last
removed; the other profiles are as they were; and `list` gives the stored
profiles that meet its query.

`add` sets the creation time of a profile without one, and a removal takes the
source with it (`readded_without_source`).
-/

namespace NovaVpn.Profiles.History

inductive Request where
  | add (profile : Profile)
  | update (profile : Profile)
  | remove (id : String)
  | recordConnection (id : String) (sent received : UInt64)

/-- The profile that is passed, if one is. -/
def Request.profile : Request → Option Profile
  | .add p | .update p => some p
  | .remove _ | .recordConnection _ _ _ => none

/-- A call and what it meets. -/
structure Call where
  request : Request
  env : Rows.Env
  representable : ∀ p, request.profile = some p → p.Representable
  now : InI64 env.now
  connectedAt : InI64 env.connectedAt

namespace Call

/-- The profile that an `add` or an `update` writes; its id is what `add`
returns. -/
def written (call : Call) : Option Profile :=
  match call.request with
  | .add p => some (p.added call.env.newId call.env.now)
  | .update p => some (p.modified call.env.now)
  | .remove _ | .recordConnection _ _ _ => none

/-- The id of the profile that the call is about. -/
def target (call : Call) : String :=
  match call.request with
  | .add p => (p.added call.env.newId call.env.now).id
  | .update p => p.id
  | .remove id | .recordConnection id _ _ => id

def perform (c : Codecs) (call : Call) (r : Rows) : Rows × Status :=
  match call.request with
  | .add p =>
    let done := Rows.add c p call.env r
    (done.1, done.2.1)
  | .update p => Rows.update c p call.env r
  | .remove id => Rows.remove c id call.env r
  | .recordConnection id sent received => Rows.recordConnection c id sent received call.env r

end Call

/-- The database, and the calls with what they returned, the last one first. -/
structure Session where
  rows : Rows := {}
  done : List (Call × Status) := []

def Session.call (c : Codecs) (s : Session) (call : Call) : Session where
  rows := (call.perform c s.rows).1
  done := (call, (call.perform c s.rows).2) :: s.done

def session (c : Codecs) (calls : List Call) : Session := calls.foldl (Session.call c) {}

/-! ## Sources -/

/-- The source that is not empty and that the call, having returned ok, wrote
for the id. -/
def sourceOf (id : String) (e : Call × Status) : Option String :=
  if e.2.isError then none
  else (e.1.written.filter fun p => p.id = id && !p.sourceConfig.isEmpty).map (·.sourceConfig)

/-- Whether the call removed the profile. -/
def removes (id : String) (e : Call × Status) : Bool :=
  match e.1.request with
  | .remove id' => !e.2.isError && id' = id
  | _ => false

/-- The sources written for an id, the last one first. -/
def sources (id : String) (done : List (Call × Status)) : List String := done.filterMap (sourceOf id)

/-- The calls since the profile was last removed. -/
def sinceRemoved (id : String) (done : List (Call × Status)) : List (Call × Status) :=
  done.takeWhile fun e => !removes id e

def lastSource (id : String) (done : List (Call × Status)) : String :=
  (sources id (sinceRemoved id done)).head?.getD ""

section

variable {id : String} {e : Call × Status} {done : List (Call × Status)}

theorem lastSource_cons_of_removes (h : removes id e = true) : lastSource id (e :: done) = "" := by
  rw [lastSource, sinceRemoved, List.takeWhile_cons, h]
  rfl

theorem lastSource_cons (h : removes id e = false) :
    lastSource id (e :: done) = (sourceOf id e).getD (lastSource id done) := by
  rw [lastSource, sinceRemoved, List.takeWhile_cons, h]
  show ((e :: sinceRemoved id done).filterMap (sourceOf id)).head?.getD "" = _
  rw [List.filterMap_cons]
  cases sourceOf id e <;> rfl

theorem lastSource_cons_error (h : e.2.isError = true) :
    lastSource id (e :: done) = lastSource id done := by
  have hremoves : removes id e = false := by
    unfold removes
    split
    next => rw [h]; rfl
    next => rfl
  rw [lastSource_cons hremoves, sourceOf, if_pos h, Option.getD_none]

end

/-! ## What a call does -/

variable {c : Codecs} {r : Rows} {t t' : Tables}

/-- What a call does to the tables: nothing if it fails, and else what it is
there for. -/
inductive Effect (call : Call) (t t' : Tables) (status : Status) : Prop where
  | failed (h : status.isError = true) (heq : t' = t)
  | wrote (p : Profile) (h : status.isError = false) (hwritten : call.written = some p)
      (hcontents : t'.contents = t.contents.write p)
  | removed (id : String) (h : status.isError = false) (hrequest : call.request = .remove id)
      (hcontents : t'.contents = t.contents.remove id)
  | recorded (id : String) (sent received : UInt64) (p : Profile) (h : status.isError = false)
      (hrequest : call.request = .recordConnection id sent received)
      (hget : SqliteProfileStore.get t id = .ok p)
      (hcontents : t'.contents = t.contents.write
        ((Rows.connected p sent received call.env.connectedAt).modified call.env.now))

theorem perform_effect (hc : c.Lawful) (h : Encodes c r t) (call : Call) :
    ∃ t', Encodes c (call.perform c r).1 t' ∧ Effect call t t' (call.perform c r).2 := by
  obtain ⟨request, env, hprofile, hnow, hconnected⟩ := call
  cases request with
  | add p =>
    obtain ⟨sql, hencodes, hstatus⟩ := h.add hc (hprofile p rfl) hnow
    refine ⟨_, hencodes, ?_⟩
    show Effect _ t _ (Rows.add c p env r).2.1
    rw [hstatus]
    rcases SqliteProfileStore.add_cases p env.newId env.now sql t with
      ⟨herror, hsame⟩ | ⟨-, -, hcontents, hok⟩
    · exact .failed herror hsame
    · exact .wrote _ (by rw [hok]; rfl) rfl hcontents
  | update p =>
    obtain ⟨sql, hencodes, hstatus⟩ := h.update hc (hprofile p rfl) hnow
    refine ⟨_, hencodes, ?_⟩
    show Effect _ t _ (Rows.update c p env r).2
    rw [hstatus]
    rcases SqliteProfileStore.update_cases p env.now sql t with
      ⟨herror, hsame⟩ | ⟨-, hcontents, hok⟩
    · exact .failed herror hsame
    · exact .wrote _ (by rw [hok]; rfl) rfl hcontents
  | remove id =>
    obtain ⟨sql, hencodes, hstatus⟩ := h.remove hc id env
    refine ⟨_, hencodes, ?_⟩
    show Effect _ t _ (Rows.remove c id env r).2
    rcases SqliteProfileStore.removeRow_cases id sql t with
      ⟨status, heq⟩ | ⟨t', p, -, heq, hcontents⟩
    · refine .failed ?_ (by rw [heq])
      rw [hstatus, heq]
      exact SqliteProfileStore.isError_of_removeRow (congrArg Prod.snd heq)
    · refine .removed id ?_ rfl (by rw [heq]; exact hcontents)
      rw [hstatus, heq]
      rfl
  | recordConnection id sent received =>
    show ∃ t', Encodes c (Rows.recordConnection c id sent received env r).1 t' ∧
      Effect _ t t' (Rows.recordConnection c id sent received env r).2
    rw [Rows.recordConnection, h.loadById hc]
    cases hget : SqliteProfileStore.get t id with
    | error status => exact ⟨t, h, .failed (SqliteProfileStore.isError_of_get hget) rfl⟩
    | ok p =>
      obtain ⟨sql, hencodes, hstatus⟩ := h.update hc
        ((h.representable_of_get hget).connected sent received hconnected) hnow
      refine ⟨_, hencodes, ?_⟩
      show Effect _ t _ (Rows.update c _ env r).2
      rw [hstatus]
      rcases SqliteProfileStore.update_cases (Rows.connected p sent received env.connectedAt) env.now
        sql t with ⟨herror, hsame⟩ | ⟨-, hcontents, hok⟩
      · exact .failed herror hsame
      · exact .recorded id sent received p (by rw [hok]; rfl) rfl hget hcontents

/-- A row is without the source. -/
theorem sourceConfig_of_row (h : Encodes c r t) {id : String} {row : Profile}
    (hrow : t.contents.row id = some row) : row.sourceConfig = "" := by
  obtain ⟨_, -, his⟩ := h.profiles.exists_left hrow
  exact (congrArg Profile.sourceConfig his.stored).symm

theorem source_of_get (h : Encodes c r t) {id : String} {p : Profile}
    (hget : SqliteProfileStore.get t id = .ok p) :
    p.sourceConfig = (t.contents.blob id).getD "" := by
  obtain ⟨row, hrow, rfl⟩ := SqliteProfileStore.get_eq_ok hget
  show (t.contents.blob id).getD row.sourceConfig = _
  rw [sourceConfig_of_row h hrow]

theorem sourceOf_of_written {call : Call} {status : Status} {p : Profile} (id : String)
    (hok : status.isError = false) (hwritten : call.written = some p) :
    sourceOf id (call, status) =
      if p.id = id ∧ p.sourceConfig.isEmpty = false then some p.sourceConfig else none := by
  rw [sourceOf, if_neg (by rw [hok]; decide), hwritten, Option.filter_some]
  by_cases hid : p.id = id <;> cases hempty : p.sourceConfig.isEmpty <;> simp [hid]

theorem sourceOf_of_not_written {call : Call} (status : Status) (id : String)
    (h : call.written = none) : sourceOf id (call, status) = none := by
  unfold sourceOf
  split
  next => rfl
  next => rw [h]; rfl

theorem removes_of_request {call : Call} {status : Status} {id : String}
    (h : ∀ id', call.request ≠ .remove id') : removes id (call, status) = false := by
  unfold removes
  split
  next id' heq => exact absurd heq (h id')
  next => rfl

theorem request_of_written {call : Call} {p : Profile} (h : call.written = some p) (id : String) :
    call.request ≠ .remove id := by
  intro heq
  rw [Call.written, heq] at h
  cases h

theorem target_of_written {call : Call} {p : Profile} (h : call.written = some p) :
    call.target = p.id := by
  unfold Call.written at h
  unfold Call.target
  split at h
  next =>
    cases h
    rfl
  next =>
    cases h
    rfl
  next => cases h
  next => cases h

/-- The blobs hold the last sources, call after call. -/
theorem source_step (h : Encodes c r t) {call : Call} {status : Status}
    {done : List (Call × Status)} (heffect : Effect call t t' status)
    (hs : ∀ id, (t.contents.blob id).getD "" = lastSource id done) (id : String) :
    (t'.contents.blob id).getD "" = lastSource id ((call, status) :: done) := by
  cases heffect with
  | failed herror heq => rw [heq, lastSource_cons_error herror, hs]
  | wrote p hok hwritten hcontents =>
    rw [lastSource_cons (removes_of_request (request_of_written hwritten)),
      sourceOf_of_written id hok hwritten, hcontents]
    by_cases hid : p.id = id
    · subst hid
      rw [Contents.blob_write_self, ← hs]
      cases p.sourceConfig.isEmpty <;> simp
    · rw [Contents.blob_write_of_ne _ _ (Ne.symm hid), if_neg (fun h => hid h.1), hs]
      rfl
  | removed id' hok hrequest hcontents =>
    by_cases hid : id' = id
    · subst hid
      rw [lastSource_cons_of_removes (by rw [removes, hrequest, hok]; simp), hcontents,
        Contents.blob_remove_self]
      rfl
    · have hremoves : removes id (call, status) = false := by
        rw [removes, hrequest]
        simp [hid]
      rw [lastSource_cons hremoves, sourceOf_of_not_written status id (by rw [Call.written, hrequest]),
        hcontents, Contents.blob_remove_of_ne _ (Ne.symm hid), hs]
      rfl
  | recorded id' sent received p hok hrequest hget hcontents =>
    have hremoves : removes id (call, status) = false :=
      removes_of_request fun id'' heq => by rw [hrequest] at heq; cases heq
    rw [lastSource_cons hremoves, sourceOf_of_not_written status id (by rw [Call.written, hrequest]),
      hcontents, Option.getD_none, ← hs]
    -- the source that is written is the one that was read
    have hid := SqliteProfileStore.id_of_get hget
    have hsource := source_of_get h hget
    by_cases heq : p.id = id
    · subst heq
      rw [← hid] at hsource
      refine (congrArg (Option.getD · "") (Contents.blob_write_self t.contents _)).trans ?_
      show (if p.sourceConfig.isEmpty then t.contents.blob p.id else some p.sourceConfig).getD "" = _
      split
      next => rfl
      next => exact hsource
    · exact congrArg (Option.getD · "") (Contents.blob_write_of_ne t.contents _ (Ne.symm heq))

/-! ## Runs -/

/-- The rows stand for tables whose blobs are the last sources. -/
structure Inv (c : Codecs) (s : Session) (t : Tables) : Prop where
  encodes : Encodes c s.rows t
  source : ∀ id, (t.contents.blob id).getD "" = lastSource id s.done

theorem inv_empty : Inv c {} .empty := ⟨.empty, fun _ => rfl⟩

theorem Inv.call {s : Session} (hc : c.Lawful) (h : Inv c s t) (call : Call) :
    ∃ t', Inv c (s.call c call) t' ∧ Effect call t t' (call.perform c s.rows).2 := by
  obtain ⟨t', hencodes, heffect⟩ := perform_effect hc h.encodes call
  exact ⟨t', ⟨hencodes, source_step h.encodes heffect h.source⟩, heffect⟩

theorem inv_session (hc : c.Lawful) (calls : List Call) : ∃ t, Inv c (session c calls) t := by
  have hrun : ∀ (calls : List Call) (s : Session), (∃ t, Inv c s t) →
      ∃ t, Inv c (calls.foldl (Session.call c) s) t := by
    intro calls
    induction calls with
    | nil => exact fun s h => h
    | cons call calls ih =>
      rintro s ⟨t, h⟩
      obtain ⟨t', h', -⟩ := h.call hc call
      exact ih _ ⟨t', h'⟩
  exact hrun calls {} ⟨.empty, inv_empty⟩

/-- What is read is told by the row and the blob. -/
theorem get_congr {id : String} (hrow : t'.contents.row id = t.contents.row id)
    (hblob : t'.contents.blob id = t.contents.blob id) :
    SqliteProfileStore.get t' id = SqliteProfileStore.get t id := by
  have hlookup : t'.profiles.lookup id = t.profiles.lookup id := hrow
  have hlookup' : t'.blobs.lookup id = t.blobs.lookup id := hblob
  rw [SqliteProfileStore.get, SqliteProfileStore.get, hlookup, hlookup']

theorem Effect.get_other {call : Call} {status : Status} (h : Effect call t t' status) {id : String}
    (hid : id ≠ call.target) : SqliteProfileStore.get t' id = SqliteProfileStore.get t id := by
  cases h with
  | failed _ heq => rw [heq]
  | wrote p _ hwritten hcontents =>
    rw [target_of_written hwritten] at hid
    refine get_congr ?_ ?_
    · rw [hcontents, Contents.row_write_of_ne _ _ hid]
    · rw [hcontents, Contents.blob_write_of_ne _ _ hid]
  | removed id' _ hrequest hcontents =>
    have htarget : call.target = id' := by rw [Call.target, hrequest]
    rw [htarget] at hid
    refine get_congr ?_ ?_
    · rw [hcontents, Contents.row_remove_of_ne _ hid]
    · rw [hcontents, Contents.blob_remove_of_ne _ hid]
  | recorded id' _ _ p _ hrequest hget hcontents =>
    have htarget : call.target = p.id := by
      rw [Call.target, hrequest, SqliteProfileStore.id_of_get hget]
    rw [htarget] at hid
    refine get_congr ?_ ?_
    · rw [hcontents]
      exact Contents.row_write_of_ne _ _ hid
    · rw [hcontents]
      exact Contents.blob_write_of_ne _ _ hid

theorem withoutSource_eq {p : Profile} (h : p.sourceConfig = "") :
    { p with sourceConfig := "" } = p := by
  rw [← h]

/-- What is stored, less its source, is what the rows hold. -/
theorem stored_iff (hc : c.Lawful) (h : Encodes c r t) {p : Profile} :
    (∃ id, t.profiles.lookup id = some p) ↔
      ∃ id q, Rows.loadById c id r = .ok q ∧ p = { q with sourceConfig := "" } := by
  constructor
  · rintro ⟨id, hp⟩
    refine ⟨id, _, (h.loadById hc id).trans (SqliteProfileStore.get_of_row hp), ?_⟩
    exact (withoutSource_eq (sourceConfig_of_row h hp)).symm
  · rintro ⟨id, q, hload, rfl⟩
    rw [h.loadById hc] at hload
    obtain ⟨row, hrow, rfl⟩ := SqliteProfileStore.get_eq_ok hload
    refine ⟨id, hrow.trans (congrArg some ?_)⟩
    exact (withoutSource_eq (sourceConfig_of_row h hrow)).symm

namespace Effect

variable {call : Call} {status : Status}

theorem contents_written (h : Effect call t t' status) {p : Profile} (hwritten : call.written = some p)
    (hok : status.isError = false) : t'.contents = t.contents.write p := by
  cases h with
  | failed herror _ => rw [hok] at herror; cases herror
  | wrote p' _ hwritten' hcontents =>
    obtain rfl := Option.some.inj (hwritten.symm.trans hwritten')
    exact hcontents
  | removed _ _ hrequest _ => exact absurd hrequest (request_of_written hwritten _)
  | recorded _ _ _ _ _ hrequest _ _ =>
    rw [Call.written, hrequest] at hwritten
    cases hwritten

theorem contents_removed (h : Effect call t t' status) {id : String}
    (hrequest : call.request = .remove id) (hok : status.isError = false) :
    t'.contents = t.contents.remove id := by
  cases h with
  | failed herror _ => rw [hok] at herror; cases herror
  | wrote _ _ hwritten _ => exact absurd hrequest (request_of_written hwritten _)
  | removed _ _ hrequest' hcontents =>
    cases hrequest.symm.trans hrequest'
    exact hcontents
  | recorded _ _ _ _ _ hrequest' _ _ => cases hrequest.symm.trans hrequest'

/-- An `add` or an `update` that returned ok is read back. -/
theorem get_written (h : Effect call t t' status) {p : Profile}
    (hwritten : call.written = some p) (hok : status.isError = false) :
    SqliteProfileStore.get t' p.id =
      .ok { p.stored with sourceConfig := (t'.contents.blob p.id).getD "" } := by
  have hcontents := h.contents_written hwritten hok
  rw [SqliteProfileStore.get_write hcontents, hcontents, Contents.blob_write_self]

end Effect

/-- After any sequence of calls: what an `add` or an `update` wrote is read
back with the last source, the other profiles are untouched, and what is listed
are the stored profiles that meet the query, in its order and cut to its limit. -/
theorem written_is_read (hc : c.Lawful) (calls : List Call) :
    (∀ call p, call.written = some p →
      (call.perform c (session c calls).rows).2.isError = false →
      Rows.loadById c p.id ((session c calls).call c call).rows =
        .ok { p.stored with
          sourceConfig := lastSource p.id ((session c calls).call c call).done }) ∧
    (∀ call id, id ≠ call.target →
      Rows.loadById c id ((session c calls).call c call).rows =
        Rows.loadById c id (session c calls).rows) ∧
    ∀ query out, Lists c (session c calls).rows query out ↔
      ∃ full : List Profile, full.Nodup ∧ full.Pairwise (InOrder query.sort) ∧
        (∀ p, p ∈ full ↔ Meets query p ∧ ∃ id q,
          Rows.loadById c id (session c calls).rows = .ok q ∧ p = { q with sourceConfig := "" }) ∧
        out = cut query.limit full := by
  obtain ⟨t, h⟩ := inv_session hc calls
  refine ⟨fun call p hwritten hok => ?_, fun call id hid => ?_, fun query out => ?_⟩
  · obtain ⟨t', h', heffect⟩ := h.call hc call
    rw [h'.encodes.loadById hc, ← h'.source, heffect.get_written hwritten hok]
  · obtain ⟨t', h', heffect⟩ := h.call hc call
    rw [h'.encodes.loadById hc, h.encodes.loadById hc, heffect.get_other hid]
  · rw [lists_iff_tables hc h.encodes]
    simp only [stored_iff hc h.encodes]

/-! ## A profile added twice -/

/-- A JSON library and a DPAPI, of one document and one source. -/
noncomputable def single (document : Doc) (text source : String) (payload : List UInt8) : Codecs where
  dump d := open Classical in if d = document then some text else none
  parse t := if t = text then .ok document else .error (Err.parse "malformed JSON")
  cryptoSeal _ plain :=
    if plain = source then .ok payload else .error (Err.make .cryptoFailure "CryptProtectData failed")
  cryptoUnseal p :=
    if p = payload then .ok source
    else .error (Err.make .integrityViolation "CryptUnprotectData failed")

theorem single_lawful (document : Doc) (text source : String) {payload : List UInt8}
    (h : payload ≠ []) : (single document text source payload).Lawful where
  parse_dump d t hd := by
    simp only [single, Option.ite_none_right_eq_some, Option.some.injEq] at hd
    obtain ⟨rfl, rfl⟩ := hd
    exact if_pos rfl
  unseal_seal salt plain p hp := by
    simp only [single] at hp
    split at hp
    next heq =>
      cases hp
      exact ⟨by rw [heq]; exact if_pos rfl, h⟩
    next => cases hp
  isError_seal salt plain status hs := by
    simp only [single] at hs
    split at hs
    next => cases hs
    next =>
      cases hs
      rfl

/-- A profile that passes every check, with a source. -/
def sample (source : String) : Profile := { SqliteProfileStore.plainProfile "a" with sourceConfig := source }

/-- The first millisecond. -/
def sampleEnv : Rows.Env where
  newId := ""
  connectedAt := 0
  now := 10000
  salt := 0
  sql := .ok

theorem inI64_zero : InI64 0 := ⟨by decide, by decide⟩

theorem inI64_now : InI64 sampleEnv.now := ⟨by decide, by decide⟩

theorem sample_representable (source : String) : (sample source).Representable where
  tlsWrapMode := by
    show -2 ^ 31 ≤ (0 : Int) ∧ (0 : Int) < 2 ^ 31
    decide
  createdAt := inI64_zero
  modifiedAt := inI64_zero
  lastConnectedAt := inI64_zero

def addSample (source : String) : Call where
  request := .add (sample source)
  env := sampleEnv
  representable p hp := by
    cases hp
    exact sample_representable source
  now := inI64_now
  connectedAt := inI64_zero

def removeSample : Call where
  request := .remove "a"
  env := sampleEnv
  representable p hp := by cases hp
  now := inI64_now
  connectedAt := inI64_zero

/-- The document of the sample. -/
def sampleDocument : Doc := ((sample "").added "" 10000).toJson true

def sampleText : String :=
  "\x7b\"authMethod\":\"static-key\",\"certificates\":\x7b\"caPem\":\"\"," ++
  "\"certificatePem\":\"\",\"peerFingerprintSha256\":\"\",\"privateKeyTarget\":\"\"," ++
  "\"storeThumbprint\":\"\",\"tlsAuthKeyTarget\":\"\",\"tlsWrapMode\":0," ++
  "\"verifyX509Name\":\"\"\x7d,\"credentials\":\x7b\"credentialTarget\":\"\"," ++
  "\"requiresTotp\":false,\"savePassword\":false,\"userName\":\"\"\x7d,\"dns\":\x7b" ++
  "\"blockOutsideDns\":true,\"dohTemplate\":\"\",\"searchDomains\":[],\"servers\":[]," ++
  "\"useServerPushed\":true\x7d,\"engine\":\"openvpn\",\"engineId\":\"\",\"id\":\"a\"," ++
  "\"metadata\":\x7b\"city\":\"\",\"connectCount\":0,\"country\":\"\",\"createdAt\":1," ++
  "\"favorite\":false,\"imageRef\":\"\",\"lastConnectedAt\":0,\"modifiedAt\":1," ++
  "\"notes\":\"\",\"tags\":[],\"totalBytesReceived\":0,\"totalBytesSent\":0\x7d," ++
  "\"name\":\"a\",\"options\":\x7b\"allowCompression\":false," ++
  "\"authDigestOverride\":\"\",\"autoConnect\":false,\"autoReconnect\":true," ++
  "\"blockIpv6\":true,\"cipherOverride\":\"\",\"proxyUrl\":\"\"," ++
  "\"redirectGateway\":true,\"shuffleRemotes\":false\x7d,\"remotes\":[\x7b" ++
  "\"host\":\"vpn.example.com\",\"label\":\"\",\"port\":1194,\"transport\":\"udp\"\x7d]" ++
  ",\"schema\":1,\"sourceConfig\":\"\",\"sourceHash\":\"\"\x7d"

noncomputable def sampleCodecs : Codecs := single sampleDocument sampleText "client\n" [1]

theorem sampleCodecs_lawful : sampleCodecs.Lawful :=
  single_lawful sampleDocument sampleText "client\n" (List.cons_ne_nil _ _)

theorem addSample_ok {source : String} (hs : source = "" ∨ source = "client\n") (hid : "a" ∉ r.profiles)
    (hname : r.nameTaken "a" "a" = false) :
    ((addSample source).perform sampleCodecs r).2 = .ok := by
  have hvalid : ((sample source).added "" 10000).validate.isError = false := by
    rcases hs with rfl | rfl <;> decide +kernel
  refine Rows.add_ok hvalid rfl hid hname (if_pos rfl) fun hempty => ⟨[1], if_pos ?_⟩
  rcases hs with rfl | rfl
  · cases hempty
  · rfl

/-- A profile with a source is added, removed, and added again without: its
source is gone, and its creation time is set. -/
theorem readded_without_source : ¬ ∀ c : Codecs, c.Lawful →
    ∀ (calls : List Call) (call : Call) (p q : Profile), call.request = .add p →
      (call.perform c (session c calls).rows).2.isError = false →
      Rows.loadById c p.id ((session c calls).call c call).rows = .ok q →
        q.sourceConfig = (sources p.id ((session c calls).call c call).done).head?.getD "" ∨
          q.metadata.createdAt = storedTime p.metadata.createdAt := by
  intro hall
  have hc := sampleCodecs_lawful
  -- the profile is added
  have hok₁ := @addSample_ok {} "client\n" (.inr rfl) (AList.notMem_empty _) rfl
  obtain ⟨t₁, h₁, heffect₁⟩ := inv_empty.call hc (addSample "client\n")
  have hwritten₁ := heffect₁.contents_written rfl (congrArg Status.isError hok₁)
  have hget₁ := heffect₁.get_written rfl (congrArg Status.isError hok₁)
  -- and removed
  have hok₂ : (removeSample.perform sampleCodecs _).2 = .ok :=
    Rows.remove_ok ((h₁.encodes.loadById hc "a").trans hget₁) rfl
  obtain ⟨t₂, h₂, heffect₂⟩ := h₁.call hc removeSample
  have hremoved₂ := heffect₂.contents_removed rfl (congrArg Status.isError hok₂)
  have hnone : ∀ id row, t₂.profiles.lookup id ≠ some row := by
    intro id row hrow
    have hrow' : t₂.contents.row id = some row := hrow
    rw [hremoved₂, Contents.row_remove_eq_some, hwritten₁] at hrow'
    rw [Contents.row_write_of_ne _ _ hrow'.1] at hrow'
    cases hrow'.2
  have hid : "a" ∉ (session sampleCodecs [addSample "client\n", removeSample]).rows.profiles := by
    show "a" ∉ (Session.call sampleCodecs (Session.call sampleCodecs {} _) removeSample).rows.profiles
    rw [h₂.encodes.profiles.mem_iff, ← AList.lookup_eq_none, Option.eq_none_iff_forall_ne_some]
    exact hnone "a"
  have hname := (h₂.encodes.nameTaken "a" "a").mpr
    (Tables.nameTaken_eq_false.mpr fun id row hrow => absurd hrow (hnone id row))
  -- and added again
  have hok₃ := addSample_ok (.inl rfl) hid hname
  obtain ⟨t₃, h₃, heffect₃⟩ := h₂.call hc (addSample "")
  have hget₃ := heffect₃.get_written rfl (congrArg Status.isError hok₃)
  have hdone : ((session sampleCodecs [addSample "client\n", removeSample]).call sampleCodecs
      (addSample "")).done =
        [(addSample "", .ok), (removeSample, .ok), (addSample "client\n", .ok)] := by
    show [(addSample "", _), (removeSample, _), (addSample "client\n", _)] = _
    rw [hok₁, hok₂, hok₃]
  rcases hall sampleCodecs hc [addSample "client\n", removeSample] (addSample "") (sample "") _ rfl
    (congrArg Status.isError hok₃) ((h₃.encodes.loadById hc "a").trans hget₃) with hsource | hcreated
  · have hlast := (h₃.source "a").trans (congrArg (lastSource "a") hdone)
    have hfirst := congrArg (fun done => (sources "a" done).head?.getD "") hdone
    exact absurd (hlast.symm.trans (hsource.trans hfirst)) (by decide +kernel)
  · have hne : storedTime ((sample "").added "" 10000).metadata.createdAt ≠
        storedTime (sample "").metadata.createdAt := by decide +kernel
    exact hne hcreated

/-- The sample is read back with its source. -/
theorem written_is_read_sample :
    Rows.loadById sampleCodecs "a" (session sampleCodecs [addSample "client\n"]).rows =
      .ok { ((sample "").added "" 10000).stored with sourceConfig := "client\n" } := by
  have hok := @addSample_ok {} "client\n" (.inr rfl) (AList.notMem_empty _) rfl
  have hread := (written_is_read sampleCodecs_lawful []).1 (addSample "client\n") _ rfl
    (congrArg Status.isError hok)
  have hdone : ((session sampleCodecs []).call sampleCodecs (addSample "client\n")).done =
      [(addSample "client\n", .ok)] := by
    show [(addSample "client\n", _)] = _
    exact congrArg (fun status => [(addSample "client\n", status)]) hok
  rw [hdone] at hread
  exact hread.trans (by decide +kernel)

end NovaVpn.Profiles.History
