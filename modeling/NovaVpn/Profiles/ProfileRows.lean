import NovaVpn.Profiles.ProfileJson
import NovaVpn.Profiles.ProfileStore

/-!
# Profiles as rows

`Profiles/SqliteProfileStore.cpp` with what it binds to its statements: the
row of a profile is its JSON document and columns that repeat parts of it, its
tags are rows of their own, and its source is sealed into a blob. `loadById`
reads the document and the blob; no function reads the other columns.

`add_ok` and `remove_ok` say what makes a call succeed. What the rows stand
for is in `RowsEncode`.
-/

namespace NovaVpn.Profiles

open NovaVpn.Framework

/-- What the store uses of the JSON library and of DPAPI. `dump` throws on text
that is not UTF-8; the number is what DPAPI adds to a text at random. -/
structure Codecs where
  dump : Doc → Option String
  parse : String → Result Doc
  cryptoSeal : Nat → String → Result (List UInt8)
  cryptoUnseal : List UInt8 → Result String

/-- Parsing undoes dumping, unsealing undoes sealing, what is sealed is not
empty, and no result carries an ok status for its error. -/
structure Codecs.Lawful (c : Codecs) : Prop where
  parse_dump : ∀ document text, c.dump document = some text → c.parse text = .ok document
  unseal_seal : ∀ salt plain payload, c.cryptoSeal salt plain = .ok payload →
    c.cryptoUnseal payload = .ok plain ∧ payload ≠ []
  isError_seal : ∀ salt plain status, c.cryptoSeal salt plain = .error status → status.isError = true

/-! ## Rows -/

/-- A row of `profiles`, less its id. -/
structure ProfileRow where
  name : String
  engine : String
  engineId : String
  authMethod : String
  credentialTarget : String
  userName : String
  savePassword : Int
  requiresTotp : Int
  document : String
  sourceHash : String
  country : String
  city : String
  favorite : Int
  imageRef : String
  createdAt : Int
  modifiedAt : Int
  lastConnectedAt : Int
  connectCount : Int
  totalBytesSent : Int
  totalBytesRecv : Int

/-- A row of `profile_blobs`, less its id. -/
structure BlobRow where
  payload : List UInt8
  payloadLen : Int
  sealedAt : Int

/-- `static_cast<i64>` of a `u64`. -/
def toI64 (n : UInt64) : Int := n.toBitVec.toInt

/-- What `writeProfileRow` binds. -/
def Profile.row (p : Profile) (document : String) : ProfileRow where
  name := p.name
  engine := p.engine.toString
  engineId := p.engineId
  authMethod := p.authMethod.toString
  credentialTarget := p.credentials.credentialTarget
  userName := p.credentials.userName
  savePassword := if p.credentials.savePassword then 1 else 0
  requiresTotp := if p.credentials.requiresTotp then 1 else 0
  document
  sourceHash := p.sourceHash
  country := p.metadata.country
  city := p.metadata.city
  favorite := if p.metadata.favorite then 1 else 0
  imageRef := p.metadata.imageRef
  createdAt := toMillis p.metadata.createdAt
  modifiedAt := toMillis p.metadata.modifiedAt
  lastConnectedAt := toMillis p.metadata.lastConnectedAt
  connectCount := toI64 p.metadata.connectCount
  totalBytesSent := toI64 p.metadata.totalBytesSent
  totalBytesRecv := toI64 p.metadata.totalBytesReceived

structure Rows where
  profiles : AList fun _ : String => ProfileRow := ∅
  tags : Finset (String × String) := ∅
  blobs : AList fun _ : String => BlobRow := ∅

namespace Rows

open SqliteProfileStore (constraintFailed)

/-! ## Statements -/

/-- Whether another row has the name. -/
def nameTaken (r : Rows) (id name : String) : Bool :=
  r.profiles.entries.any fun e => e.1 ≠ id && e.2.name = name

/-- `INSERT INTO profiles`. -/
def insertProfile (id : String) (row : ProfileRow) (r : Rows) : Result Rows :=
  if id ∈ r.profiles then .error constraintFailed
  else if r.nameTaken id row.name then .error constraintFailed
  else .ok { r with profiles := r.profiles.insert id row }

/-- `UPDATE profiles … WHERE id=?1`, which leaves `created_at` alone. -/
def updateProfile (id : String) (row : ProfileRow) (r : Rows) : Result Rows :=
  match r.profiles.lookup id with
  | none => .ok r
  | some old =>
    if r.nameTaken id row.name then .error constraintFailed
    else .ok { r with profiles := r.profiles.insert id { row with createdAt := old.createdAt } }

/-- `DELETE FROM profile_tags WHERE profile_id = …`. -/
def deleteTags (id : String) (r : Rows) : Rows :=
  { r with tags := r.tags.filter fun e => e.1 ≠ id }

/-- `INSERT OR IGNORE INTO profile_tags`. -/
def insertTag (id : String) (r : Rows) (tag : String) : Result Rows :=
  if id ∈ r.profiles then .ok { r with tags := insert (id, tag) r.tags }
  else .error constraintFailed

/-- `INSERT OR REPLACE INTO profile_blobs`. -/
def insertBlob (id : String) (blob : BlobRow) (r : Rows) : Result Rows :=
  if id ∈ r.profiles then .ok { r with blobs := r.blobs.insert id blob }
  else .error constraintFailed

/-- `DELETE FROM profiles WHERE id = ?1`; the tags and the blob cascade. -/
def deleteProfile (id : String) (r : Rows) : Rows where
  profiles := r.profiles.erase id
  tags := r.tags.filter fun e => e.1 ≠ id
  blobs := r.blobs.erase id

/-! ## The calls -/

/-- What a call meets: the uuid that is made if one is, the time when a
connection is recorded and the time of the change, what DPAPI adds, and an
error if SQLite fails for a reason of its own. -/
structure Env where
  newId : String
  connectedAt : SystemTime
  now : SystemTime
  salt : Nat
  sql : Status

/-- An exception that goes through the store. -/
def thrown : Status := Err.make .unknown "exception"

variable (c : Codecs)

def writeProfileRow (p : Profile) (isUpdate : Bool) (r : Rows) : Result Rows :=
  let forStorage := { p with sourceConfig := "" }
  match c.dump (forStorage.toJson true) with
  | none => .error thrown
  | some document =>
    if isUpdate then r.updateProfile p.id (p.row document)
    else r.insertProfile p.id (p.row document)

def writeTags (p : Profile) (r : Rows) : Result Rows := p.metadata.tags.foldlM (insertTag p.id) r

def sealSource (p : Profile) (env : Env) (r : Rows) : Result Rows :=
  if p.sourceConfig.isEmpty then .ok r
  else do
    let payload ← c.cryptoSeal env.salt p.sourceConfig
    r.insertBlob p.id { payload, payloadLen := payload.length, sealedAt := toMillis env.now }

/-- A transaction that ends with `COMMIT`, or leaves no trace. -/
def transaction (sql : Status) (body : Rows → Result Rows) (r : Rows) : Rows × Status :=
  if sql.isError then (r, sql)
  else
    match body r with
    | .ok r' => (r', .ok)
    | .error status => (r, status)

def parseDocument (text : String) : Doc :=
  match c.parse text with
  | .ok document => document
  | .error _ => .object

def unsealSource (p : Profile) (r : Rows) : Result Profile :=
  match r.blobs.lookup p.id with
  | none => .ok p
  | some blob =>
    if blob.payload.isEmpty then .ok p
    else do
      let plain ← c.cryptoUnseal blob.payload
      .ok { p with sourceConfig := plain }

/-- `get` is this. -/
def loadById (id : String) (r : Rows) : Result Profile :=
  match r.profiles.lookup id with
  | none => .error (Err.notFound ("no profile with id " ++ id))
  | some row => do
    let p ← fromJson (parseDocument c row.document).value
    unsealSource c p r

def addBody (p : Profile) (env : Env) (r : Rows) : Result Rows := do
  let r ← writeProfileRow c p false r
  let r ← writeTags p r
  sealSource c p env r

def updateBody (p : Profile) (env : Env) (r : Rows) : Result Rows := do
  let r ← writeProfileRow c p true r
  let r ← writeTags p (r.deleteTags p.id)
  if p.sourceConfig.isEmpty then .ok r else sealSource c p env r

/-- The status, and the id if it is ok. -/
def add (p : Profile) (env : Env) (r : Rows) : Rows × Status × String :=
  let p := p.added env.newId env.now
  if p.validate.isError then (r, p.validate, "")
  else
    let done := transaction env.sql (addBody c p env) r
    (done.1, done.2, p.id)

def update (p : Profile) (env : Env) (r : Rows) : Rows × Status :=
  let p := p.modified env.now
  if p.validate.isError then (r, p.validate)
  else
    match loadById c p.id r with
    | .error status => (r, status)
    | .ok _ => transaction env.sql (updateBody c p env) r

/-- `remove` up to the vault. -/
def remove (id : String) (env : Env) (r : Rows) : Rows × Status :=
  match loadById c id r with
  | .error status => (r, status)
  | .ok _ => transaction env.sql (fun r => .ok (r.deleteProfile id)) r

/-- What `recordConnection` changes. -/
def connected (p : Profile) (sent received : UInt64) (now : SystemTime) : Profile :=
  { p with metadata := { p.metadata with
      lastConnectedAt := now
      connectCount := p.metadata.connectCount + 1
      totalBytesSent := p.metadata.totalBytesSent + sent
      totalBytesReceived := p.metadata.totalBytesReceived + received } }

def recordConnection (id : String) (sent received : UInt64) (env : Env) (r : Rows) :
    Rows × Status :=
  match loadById c id r with
  | .error status => (r, status)
  | .ok p => update c (connected p sent received env.connectedAt) env r

/-! What makes an `add` succeed: the id and the name are free, and the texts can
be dumped and sealed. -/

variable {c} {p : Profile} {env : Env} {r : Rows}

theorem writeTags_ok (h : p.id ∈ r.profiles) :
    ∃ r', writeTags p r = .ok r' ∧ r'.profiles = r.profiles := by
  unfold writeTags
  generalize p.metadata.tags = tags
  induction tags generalizing r with
  | nil => exact ⟨r, rfl, rfl⟩
  | cons tag tags ih =>
    rw [List.foldlM_cons, insertTag, if_pos h]
    exact ih (r := { r with tags := insert (p.id, tag) r.tags }) h

theorem sealSource_ok (h : p.id ∈ r.profiles) (hseal : p.sourceConfig.isEmpty = false →
      ∃ payload, c.cryptoSeal env.salt p.sourceConfig = .ok payload) :
    ∃ r', sealSource c p env r = .ok r' := by
  unfold sealSource
  split
  next => exact ⟨r, rfl⟩
  next hempty =>
    obtain ⟨payload, hpayload⟩ := hseal (Bool.eq_false_iff.mpr hempty)
    rw [hpayload]
    exact ⟨_, if_pos h⟩

theorem addBody_ok {document : String} (hid : p.id ∉ r.profiles)
    (hname : r.nameTaken p.id p.name = false)
    (hdump : c.dump ({ p with sourceConfig := "" }.toJson true) = some document)
    (hseal : p.sourceConfig.isEmpty = false →
      ∃ payload, c.cryptoSeal env.salt p.sourceConfig = .ok payload) :
    ∃ r', addBody c p env r = .ok r' := by
  have hrow : writeProfileRow c p false r =
      .ok { r with profiles := r.profiles.insert p.id (p.row document) } := by
    simp only [writeProfileRow]
    rw [hdump]
    show r.insertProfile _ _ = _
    rw [insertProfile, if_neg hid, if_neg]
    rw [Bool.eq_false_iff] at hname
    exact hname
  have hmem : p.id ∈ r.profiles.insert p.id (p.row document) :=
    (AList.mem_insert r.profiles).mpr (.inl rfl)
  obtain ⟨r₁, htags, hprofiles⟩ := @writeTags_ok p { r with profiles := r.profiles.insert p.id _ } hmem
  have hmem' : p.id ∈ r₁.profiles := by
    rw [hprofiles]
    exact hmem
  obtain ⟨r₂, hsealed⟩ := sealSource_ok hmem' hseal
  exact ⟨r₂, Result.bind_eq_ok_iff.mpr ⟨_, hrow, Result.bind_eq_ok_iff.mpr ⟨_, htags, hsealed⟩⟩⟩

theorem add_ok {document : String}
    (hvalid : (p.added env.newId env.now).validate.isError = false) (hsql : env.sql.isError = false)
    (hid : (p.added env.newId env.now).id ∉ r.profiles)
    (hname : r.nameTaken (p.added env.newId env.now).id p.name = false)
    (hdump : c.dump (Profile.toJson { p.added env.newId env.now with sourceConfig := "" } true) =
      some document)
    (hseal : p.sourceConfig.isEmpty = false →
      ∃ payload, c.cryptoSeal env.salt p.sourceConfig = .ok payload) :
    (add c p env r).2.1 = .ok := by
  obtain ⟨r', hbody⟩ := @addBody_ok c (p.added env.newId env.now) env r _ hid hname hdump hseal
  simp only [add]
  rw [if_neg (by rw [hvalid]; decide)]
  show (transaction env.sql (addBody c (p.added env.newId env.now) env) r).2 = .ok
  rw [transaction, if_neg (by rw [hsql]; decide), hbody]

theorem remove_ok {id : String} (hload : loadById c id r = .ok p) (hsql : env.sql.isError = false) :
    (remove c id env r).2 = .ok := by
  rw [remove, hload]
  show (transaction env.sql _ r).2 = .ok
  rw [transaction, if_neg (by rw [hsql]; decide)]

end Rows

end NovaVpn.Profiles
