import Mathlib.Logic.Function.Basic
import NovaVpn.Core.Status

/-!
# The catalogue file

`SqliteDatabase::open` makes a dozen calls into SQLite, each of which can fail.
SQLite is not modelled: a `Sqlite` says how it answers the calls of one
`open()`, which fail and which give a row. What is modelled is the file, as far
as `open` depends on it: whether it is a database at all, what
`integrity_check` says of it, its `user_version`, and its tables with their
rows. A file that is no database can be opened, and fails the first statement
that reads it.
-/

namespace NovaVpn.Database

/-- `classifySqlite`. -/
def classifySqlite : UInt32 → ErrorCode
  | 0 | 100 | 101 => .ok
  | 3 | 23 | 8 => .permissionDenied
  | 5 | 6 => .unavailable
  | 12 => .notFound
  | 19 => .alreadyExists
  | 11 | 26 => .checksumMismatch
  | 21 | 25 => .invalidArgument
  | 7 => .outOfMemory
  | 9 => .cancelled
  | _ => .ioError

/-- How a call into SQLite fails: its code, the text of the code, and the
message of the connection if there is one. -/
structure Failure where
  code : UInt32
  errstr : String
  errmsg : Option String := none
  failed : classifySqlite code ≠ .ok := by decide
  deriving DecidableEq, Repr

/-- `sqliteError`. -/
def sqliteError (f : Failure) (context : String) : Status :=
  let detail := match f.errmsg with
    | some detail => if detail ≠ f.errstr then " (" ++ detail ++ ")" else ""
    | none => ""
  { code := classifySqlite f.code
    message := context ++ ": " ++ f.errstr ++ detail
    platformCode := f.code }

@[simp] theorem isError_sqliteError (f : Failure) (context : String) :
    (sqliteError f context).isError = true := by
  simp [Status.isError, sqliteError, f.failed]

/-- The calls of `open()`. Those of a migration name its version. -/
inductive Call where
  | openV2
  | journalMode | synchronous | foreignKeys
  | prepareIntegrity | stepIntegrity
  | prepareVersion | stepVersion
  | begin (version : Int) | migrate (version : Int) | setVersion (version : Int)
  | commit (version : Int)
  deriving DecidableEq, Repr

/-- How SQLite answers the calls of one `open()`. -/
structure Sqlite where
  fails : Call → Option Failure := fun _ => none
  /-- Whether a statement that was stepped has a row. -/
  row : Call → Bool := fun _ => true
  /-- How `CREATE` fails if the name is taken. -/
  taken : String → Failure := fun name =>
    { code := 1, errstr := "SQL logic error", errmsg := some ("table " ++ name ++ " already exists") }

/-! ## Schema -/

/-- `Migration`, with the names of the tables and indexes that its SQL creates. -/
structure Migration where
  version : Int
  description : String
  sql : String
  creates : List String
  deriving Repr

/-- The SQL of the initial schema. -/
def kV1 : String := "
CREATE TABLE profiles (
    id                  TEXT PRIMARY KEY NOT NULL,
    name                TEXT NOT NULL UNIQUE,
    engine              TEXT NOT NULL DEFAULT 'openvpn',
    engine_id           TEXT NOT NULL DEFAULT '',
    auth_method         TEXT NOT NULL,
    credential_target   TEXT NOT NULL DEFAULT '',
    user_name           TEXT NOT NULL DEFAULT '',
    save_password       INTEGER NOT NULL DEFAULT 0,
    requires_totp       INTEGER NOT NULL DEFAULT 0,
    document            TEXT NOT NULL,          -- profile JSON without secrets
    source_hash         TEXT NOT NULL DEFAULT '',
    country             TEXT NOT NULL DEFAULT '',
    city                TEXT NOT NULL DEFAULT '',
    favorite            INTEGER NOT NULL DEFAULT 0,
    image_ref           TEXT NOT NULL DEFAULT '',
    created_at          INTEGER NOT NULL,
    modified_at         INTEGER NOT NULL,
    last_connected_at   INTEGER NOT NULL DEFAULT 0,
    connect_count       INTEGER NOT NULL DEFAULT 0,
    total_bytes_sent    INTEGER NOT NULL DEFAULT 0,
    total_bytes_recv    INTEGER NOT NULL DEFAULT 0
);
CREATE INDEX idx_profiles_favorite  ON profiles(favorite, name);
CREATE INDEX idx_profiles_recent    ON profiles(last_connected_at DESC);
CREATE INDEX idx_profiles_country   ON profiles(country, name);

CREATE TABLE profile_tags (
    profile_id  TEXT NOT NULL REFERENCES profiles(id) ON DELETE CASCADE,
    tag         TEXT NOT NULL,
    PRIMARY KEY (profile_id, tag)
);
CREATE INDEX idx_profile_tags_tag ON profile_tags(tag);

CREATE TABLE profile_blobs (
    profile_id  TEXT PRIMARY KEY NOT NULL REFERENCES profiles(id) ON DELETE CASCADE,
    payload     BLOB NOT NULL,      -- DPAPI(machine)-sealed .ovpn source
    payload_len INTEGER NOT NULL,
    sealed_at   INTEGER NOT NULL
);

CREATE TABLE routing_rules (
    id              TEXT PRIMARY KEY NOT NULL,
    kind            TEXT NOT NULL,          -- ip | domain | application | country
    name            TEXT NOT NULL DEFAULT '',
    enabled         INTEGER NOT NULL DEFAULT 1,
    priority        INTEGER NOT NULL DEFAULT 0,
    disposition     TEXT NOT NULL,          -- tunnel | direct | block
    tunnel_id       TEXT NOT NULL DEFAULT '',
    match_value     TEXT NOT NULL,          -- CIDR, pattern, path or country code
    match_port      INTEGER,
    match_transport TEXT,
    notes           TEXT NOT NULL DEFAULT '',
    created_at      INTEGER NOT NULL
);
CREATE INDEX idx_routing_rules_kind ON routing_rules(kind, enabled, priority DESC);

CREATE TABLE split_tunnel_apps (
    image_path       TEXT PRIMARY KEY NOT NULL COLLATE NOCASE,
    display_name     TEXT NOT NULL DEFAULT '',
    publisher        TEXT NOT NULL DEFAULT '',
    enabled          INTEGER NOT NULL DEFAULT 1,
    tunnel_id        TEXT NOT NULL DEFAULT '',
    include_children INTEGER NOT NULL DEFAULT 1,
    is_packaged      INTEGER NOT NULL DEFAULT 0,
    package_family   TEXT NOT NULL DEFAULT '',
    icon_png         BLOB,
    added_at         INTEGER NOT NULL
);

CREATE TABLE connection_log (
    id              INTEGER PRIMARY KEY AUTOINCREMENT,
    profile_id      TEXT NOT NULL,
    tunnel_id       TEXT NOT NULL DEFAULT '',
    session_id      TEXT NOT NULL DEFAULT '',
    started_at      INTEGER NOT NULL,
    connected_at    INTEGER,
    ended_at        INTEGER,
    end_reason      TEXT NOT NULL DEFAULT '',
    error_code      INTEGER NOT NULL DEFAULT 0,
    remote_endpoint TEXT NOT NULL DEFAULT '',
    local_address   TEXT NOT NULL DEFAULT '',
    cipher          TEXT NOT NULL DEFAULT '',
    bytes_sent      INTEGER NOT NULL DEFAULT 0,
    bytes_recv      INTEGER NOT NULL DEFAULT 0,
    attempts        INTEGER NOT NULL DEFAULT 1
);
CREATE INDEX idx_connection_log_profile ON connection_log(profile_id, started_at DESC);
CREATE INDEX idx_connection_log_time    ON connection_log(started_at DESC);

CREATE TABLE traffic_daily (
    profile_id  TEXT NOT NULL,
    day         INTEGER NOT NULL,       -- days since the Unix epoch, UTC
    bytes_sent  INTEGER NOT NULL DEFAULT 0,
    bytes_recv  INTEGER NOT NULL DEFAULT 0,
    seconds     INTEGER NOT NULL DEFAULT 0,
    PRIMARY KEY (profile_id, day)
);

CREATE TABLE settings (
    key         TEXT PRIMARY KEY NOT NULL,
    value       TEXT NOT NULL,
    updated_at  INTEGER NOT NULL
);

CREATE TABLE owned_routes (
    destination      TEXT NOT NULL,
    interface_index  INTEGER NOT NULL,
    next_hop         TEXT NOT NULL DEFAULT '',
    metric           INTEGER NOT NULL DEFAULT 0,
    tunnel_id        TEXT NOT NULL DEFAULT '',
    created_at       INTEGER NOT NULL,
    PRIMARY KEY (destination, interface_index)
);
"

def initialSchema : Migration where
  version := 1
  description := "initial schema"
  sql := kV1
  creates := ["profiles", "idx_profiles_favorite", "idx_profiles_recent", "idx_profiles_country",
    "profile_tags", "idx_profile_tags_tag", "profile_blobs", "routing_rules",
    "idx_routing_rules_kind", "split_tunnel_apps", "connection_log", "idx_connection_log_profile",
    "idx_connection_log_time", "traffic_daily", "settings", "owned_routes"]

/-- `kMigrations`. -/
def migrations : List Migration := [initialSchema]

/-- `version::kDatabaseSchema`. -/
def kDatabaseSchema : Int := 1

/-! ## Files -/

/-- What a database holds. An index is an object without rows of its own. -/
structure Contents (Row : Type) where
  /-- What `PRAGMA integrity_check` answers. -/
  integrity : String := "ok"
  userVersion : Int := 0
  objects : List (String × List Row) := []
  deriving DecidableEq, Repr

/-- What lies at a path. -/
inductive File (Row : Type) where
  | database (c : Contents Row)
  /-- Bytes that are no database. -/
  | other (bytes : List UInt8)
  deriving DecidableEq, Repr

abbrev Files (Row : Type) := String → Option (File Row)

/-- The files and an object of class `SqliteDatabase`. -/
structure State (Row : Type) where
  files : Files Row
  /-- `m_db`: the path that the handle is open on. -/
  db : Option String := none
  schemaVersion : Int := 0
  /-- The renames that took place, newest first. -/
  renamed : List (String × String) := []

variable {Row : Type}

/-! ## The calls on an open file -/

def notADatabase : Failure := { code := 26, errstr := "file is not a database" }

/-- A call that reads the file. -/
def Sqlite.read (q : Sqlite) (file : File Row) (call : Call) : Except Failure (Contents Row) :=
  match q.fails call, file with
  | some f, _ => .error f
  | none, .other _ => .error notADatabase
  | none, .database c => .ok c

/-- `execUnlocked` with a handle, and `SqliteTransaction::exec`. -/
def Sqlite.exec (q : Sqlite) (file : File Row) (call : Call) (sql : String) :
    Except Status (Contents Row) :=
  (q.read file call).mapError (sqliteError · sql)

/-- The PRAGMAs that configure the connection. -/
def Sqlite.configure (q : Sqlite) (file : File Row) : Except Status Unit := do
  let _ ← q.exec file .journalMode "PRAGMA journal_mode=WAL"
  let _ ← q.exec file .synchronous "PRAGMA synchronous=NORMAL"
  let _ ← q.exec file .foreignKeys "PRAGMA foreign_keys=ON"

/-- `verifyIntegrityUnlocked`. -/
def Sqlite.verifyIntegrityUnlocked (q : Sqlite) (file : File Row) : Except Status Unit := do
  let _ ← q.exec file .prepareIntegrity "prepare"
  let c ← q.exec file .stepIntegrity "step"
  if q.row .stepIntegrity = false then
    .error { code := .ioError, message := "integrity_check returned no rows" }
  else if c.integrity ≠ "ok" then
    .error { code := .checksumMismatch
             message := "database integrity check failed: " ++ c.integrity }
  else .ok ()

/-- `userVersionUnlocked`: zero if it cannot be read. -/
def Sqlite.userVersionUnlocked (q : Sqlite) (file : File Row) : Int :=
  match q.read file .prepareVersion, q.read file .stepVersion with
  | .ok _, .ok c => if q.row .stepVersion then c.userVersion else 0
  | _, _ => 0

/-- The statements of a migration, up to the first whose name is taken. -/
def Contents.create (q : Sqlite) : List String → Contents Row → Except Failure (Contents Row)
  | [], c => .ok c
  | name :: names, c =>
    if name ∈ c.objects.map Prod.fst then .error (q.taken name)
    else create q names { c with objects := c.objects ++ [(name, [])] }

/-- One migration, in a transaction of its own: an error leaves the file as it
was. -/
def Migration.run (m : Migration) (q : Sqlite) (file : File Row) : Except Status (File Row) := do
  let _ ← q.exec file (.begin m.version) "BEGIN IMMEDIATE"
  let c ← ((q.read file (.migrate m.version)).bind (Contents.create q m.creates)).mapError
    fun f => (sqliteError f m.sql).withContext ("migration to v" ++ toString m.version)
  let _ ← q.exec file (.setVersion m.version) ("PRAGMA user_version=" ++ toString m.version)
  let _ ← q.exec file (.commit m.version) "COMMIT"
  return .database { c with userVersion := m.version }

/-- The loop of `migrateUnlocked`: the version reached, or the error it stopped
with, and the file. -/
def Sqlite.migrateFrom (q : Sqlite) : List Migration → Int → File Row →
    Except Status Int × File Row
  | [], current, file => (.ok current, file)
  | m :: ms, current, file =>
    if m.version ≤ current then migrateFrom q ms current file
    else match m.run q file with
      | .error status => (.error status, file)
      | .ok file => migrateFrom q ms m.version file

/-! ## Errors are errors -/

/-- What a failed step reports is not `Ok`. -/
def Reports {α : Type} (r : Result α) : Prop :=
  ∀ status, r = .error status → status.isError = true

theorem reports_ok {α : Type} (a : α) : Reports (.ok a) := by
  intro status h
  cases h

theorem reports_error {α : Type} {status : Status} (h : status.isError = true) :
    Reports (.error status : Result α) := by
  rintro status' ⟨⟩
  exact h

theorem Reports.bind {α β : Type} {r : Result α} {f : α → Result β} (h : Reports r)
    (hf : ∀ a, Reports (f a)) : Reports (r >>= f) := by
  intro status he
  cases r with
  | error e => exact h status (by cases he; rfl)
  | ok a => exact hf a status he

@[simp] theorem mapError_error {α : Type} (g : Failure → Status) (f : Failure) :
    (Except.error f : Except Failure α).mapError g = .error (g f) := rfl

@[simp] theorem mapError_ok {α : Type} (g : Failure → Status) (a : α) :
    (Except.ok a : Except Failure α).mapError g = .ok a := rfl

theorem reports_mapError {α : Type} {g : Failure → Status} (hg : ∀ f, (g f).isError = true)
    (r : Except Failure α) : Reports (r.mapError g) := by
  intro status he
  cases r with
  | error f =>
    cases he
    exact hg f
  | ok a => cases he

theorem reports_exec (q : Sqlite) (file : File Row) (call : Call) (sql : String) :
    Reports (q.exec file call sql) :=
  reports_mapError (fun f => isError_sqliteError f sql) _

theorem reports_configure (q : Sqlite) (file : File Row) : Reports (q.configure file) :=
  (reports_exec q file _ _).bind fun _ => (reports_exec q file _ _).bind fun _ =>
    (reports_exec q file _ _).bind fun _ => reports_ok _

theorem reports_verifyIntegrity (q : Sqlite) (file : File Row) :
    Reports (q.verifyIntegrityUnlocked file) := by
  refine (reports_exec q file _ _).bind fun _ => (reports_exec q file _ _).bind fun c => ?_
  split
  · exact reports_error rfl
  · split
    · exact reports_error rfl
    · exact reports_ok _

theorem Migration.reports_run (m : Migration) (q : Sqlite) (file : File Row) :
    Reports (m.run q file) := by
  refine (reports_exec q file _ _).bind fun _ => ?_
  refine (reports_mapError (fun f => ?_) _).bind fun c => ?_
  · rw [Status.isError_withContext, isError_sqliteError]
  · exact (reports_exec q file _ _).bind fun _ => (reports_exec q file _ _).bind fun _ =>
      reports_ok _

/-! ## When the calls succeed -/

theorem Sqlite.exec_database {q : Sqlite} {c : Contents Row} {call : Call} {sql : String} :
    q.exec (.database c) call sql =
      match q.fails call with
      | some f => .error (sqliteError f sql)
      | none => .ok c := by
  unfold Sqlite.exec Sqlite.read
  cases q.fails call <;> rfl

/-- None of the PRAGMAs fails. -/
def Sqlite.Configures (q : Sqlite) : Prop :=
  q.fails .journalMode = none ∧ q.fails .synchronous = none ∧ q.fails .foreignKeys = none

instance (q : Sqlite) : Decidable q.Configures := inferInstanceAs (Decidable (_ ∧ _))

theorem Sqlite.configure_eq_ok_iff {q : Sqlite} {file : File Row} :
    q.configure file = .ok () ↔ (∃ c, file = .database c) ∧ q.Configures := by
  cases file with
  | other bytes =>
    have h : ∃ status, q.exec (.other bytes : File Row) .journalMode "PRAGMA journal_mode=WAL" =
        .error status := by
      unfold exec read
      cases q.fails .journalMode <;> exact ⟨_, rfl⟩
    obtain ⟨status, h⟩ := h
    simp [configure, h, bind, Except.bind]
  | database c =>
    unfold configure Configures
    simp only [exec_database]
    cases q.fails .journalMode <;> cases q.fails .synchronous <;> cases q.fails .foreignKeys <;>
      simp [bind, Except.bind, pure, Except.pure]

/-- The integrity check runs. -/
def Sqlite.Checks (q : Sqlite) : Prop :=
  q.fails .prepareIntegrity = none ∧ q.fails .stepIntegrity = none ∧ q.row .stepIntegrity = true

instance (q : Sqlite) : Decidable q.Checks := inferInstanceAs (Decidable (_ ∧ _))

theorem Sqlite.verifyIntegrity_eq_ok_iff {q : Sqlite} {c : Contents Row} :
    q.verifyIntegrityUnlocked (.database c) = .ok () ↔ q.Checks ∧ c.integrity = "ok" := by
  unfold verifyIntegrityUnlocked Checks
  simp only [exec_database]
  cases q.fails .prepareIntegrity <;> cases q.fails .stepIntegrity <;>
    cases q.row .stepIntegrity <;> by_cases hi : c.integrity = "ok" <;>
    simp [bind, Except.bind, hi]

/-- None of the names is taken. -/
def Contents.Free (c : Contents Row) (names : List String) : Prop :=
  ∀ name ∈ names, name ∉ c.objects.map Prod.fst

instance (c : Contents Row) (names : List String) : Decidable (c.Free names) :=
  inferInstanceAs (Decidable (∀ name ∈ names, _))

/-- A database with empty objects of the given names added to it. -/
def Contents.added (c : Contents Row) (names : List String) : Contents Row :=
  { c with objects := c.objects ++ names.map fun name => (name, []) }

theorem Contents.create_of_free {q : Sqlite} {names : List String} (hd : names.Nodup)
    {c : Contents Row} (h : c.Free names) : c.create q names = .ok (c.added names) := by
  induction names generalizing c with
  | nil => simp [create, added]
  | cons name names ih =>
    rw [List.nodup_cons] at hd
    obtain ⟨hname, hrest⟩ := List.forall_mem_cons.mp h
    have hfree : ({ c with objects := c.objects ++ [(name, [])] } : Contents Row).Free names := by
      intro n hn
      rw [List.map_append, List.mem_append, not_or]
      refine ⟨hrest n hn, fun hmem => ?_⟩
      have hn' : n = name := by simpa using hmem
      exact hd.1 (hn' ▸ hn)
    rw [create, if_neg hname, ih hd.2 hfree]
    simp [added]

theorem Contents.free_of_create {q : Sqlite} {names : List String} {c c' : Contents Row}
    (h : c.create q names = .ok c') : c.Free names := by
  induction names generalizing c with
  | nil => exact fun name hname => absurd hname List.not_mem_nil
  | cons name names ih =>
    rw [create] at h
    split at h
    · cases h
    · rename_i hname
      refine List.forall_mem_cons.mpr ⟨hname, fun n hn hmem => ih h n hn ?_⟩
      rw [List.map_append]
      exact List.mem_append_left _ hmem

/-- The migration runs on a database. -/
def Migration.Runs (m : Migration) (q : Sqlite) (c : Contents Row) : Prop :=
  q.fails (.begin m.version) = none ∧ q.fails (.migrate m.version) = none ∧
    q.fails (.setVersion m.version) = none ∧ q.fails (.commit m.version) = none ∧
    c.Free m.creates

instance (m : Migration) (q : Sqlite) (c : Contents Row) : Decidable (m.Runs q c) :=
  inferInstanceAs (Decidable (_ ∧ _))

/-- A database with the objects of a migration added to it. -/
def Migration.applied (m : Migration) (c : Contents Row) : Contents Row :=
  { c.added m.creates with userVersion := m.version }

theorem Migration.run_eq_ok_iff {m : Migration} (hm : m.creates.Nodup) {q : Sqlite}
    {c : Contents Row} {file : File Row} :
    m.run q (.database c) = .ok file ↔ m.Runs q c ∧ file = .database (m.applied c) := by
  unfold Migration.run Migration.Runs
  simp only [Sqlite.exec_database, Sqlite.read]
  cases q.fails (.begin m.version) with
  | some f => simp [bind, Except.bind]
  | none =>
    cases q.fails (.migrate m.version) with
    | some f => simp [bind, Except.bind]
    | none =>
      by_cases hfree : c.Free m.creates
      · have hc := Contents.create_of_free (q := q) hm hfree
        cases q.fails (.setVersion m.version) with
        | some f => simp [bind, Except.bind, hc]
        | none =>
          cases q.fails (.commit m.version) with
          | some f => simp [bind, Except.bind, hc]
          | none =>
            simp [bind, Except.bind, hc, pure, Except.pure, hfree, Migration.applied, eq_comm]
      · cases hc : c.create q m.creates with
        | error f => simp [bind, Except.bind, hc, hfree]
        | ok c' => exact absurd (Contents.free_of_create hc) hfree

/-- `c'` is what a database becomes that is only added to. -/
def Contents.Extends (c' c : Contents Row) : Prop :=
  c'.integrity = c.integrity ∧ c.objects <+: c'.objects

theorem Contents.Extends.refl (c : Contents Row) : c.Extends c := ⟨rfl, List.prefix_rfl⟩

theorem Contents.Extends.trans {c₁ c₂ c₃ : Contents Row} (h : c₂.Extends c₁)
    (h' : c₃.Extends c₂) : c₃.Extends c₁ :=
  ⟨h'.1.trans h.1, h.2.trans h'.2⟩

theorem Migration.extends_applied (m : Migration) (c : Contents Row) : (m.applied c).Extends c :=
  ⟨rfl, List.prefix_append _ _⟩

theorem migrations_nodup : ∀ m ∈ migrations, m.creates.Nodup := by
  decide

/-- However far the loop comes, the database is only added to. -/
theorem Sqlite.migrateFrom_extends (q : Sqlite) {ms : List Migration}
    (hms : ∀ m ∈ ms, m.creates.Nodup) (current : Int) (c : Contents Row) :
    ∃ c', (q.migrateFrom ms current (.database c)).2 = .database c' ∧ c'.Extends c := by
  induction ms generalizing current c with
  | nil => exact ⟨c, rfl, .refl c⟩
  | cons m ms ih =>
    rw [List.forall_mem_cons] at hms
    rw [migrateFrom]
    split
    · exact ih hms.2 current c
    · cases hr : m.run q (.database c) with
      | error status => exact ⟨c, rfl, .refl c⟩
      | ok file =>
        obtain ⟨-, rfl⟩ := (Migration.run_eq_ok_iff hms.1).mp hr
        obtain ⟨c', hc', hext⟩ := ih hms.2 m.version (m.applied c)
        exact ⟨c', hc', (m.extends_applied c).trans hext⟩

/-- The version read is one this build knows, and what is pending after it
runs. -/
def Sqlite.Migrates (q : Sqlite) (c : Contents Row) : Prop :=
  q.userVersionUnlocked (.database c) ≤ kDatabaseSchema ∧
    ∀ m ∈ migrations, q.userVersionUnlocked (.database c) < m.version → m.Runs q c

instance (q : Sqlite) (c : Contents Row) : Decidable (q.Migrates c) :=
  inferInstanceAs (Decidable (_ ∧ _))

/-! ## Opening and closing -/

namespace State

def putFile (s : State Row) (path : String) (file : File Row) : State Row :=
  { s with files := Function.update s.files path (some file) }

/-- What a handle on `path` is on: an empty database if there was nothing. -/
def fileAt (s : State Row) (path : String) : File Row :=
  (s.files path).getD (.database {})

/-- `sqlite3_open_v2` that succeeds. -/
def attach (path : String) (s : State Row) : State Row :=
  { s.putFile path (s.fileAt path) with db := some path }

/-- `migrateUnlocked`, with the handle on `path`. -/
def migrateUnlocked (q : Sqlite) (path : String) (s : State Row) : Status × State Row :=
  let file := s.fileAt path
  match q.migrateFrom migrations (q.userVersionUnlocked file) file with
  | (.error status, file) => (status, s.putFile path file)
  | (.ok current, file) =>
    let s := { s.putFile path file with schemaVersion := current }
    if current > kDatabaseSchema then
      ({ code := .serviceVersion
         message := "database schema v" ++ toString current ++
           " is newer than this build supports (v" ++ toString kDatabaseSchema ++ ")" }, s)
    else (.ok, s)

/-- `SqliteDatabase::open`. -/
def openAt (q : Sqlite) (path : String) (s : State Row) : Status × State Row :=
  if s.db.isSome then (Err.invalidState "database already open", s)
  else match q.fails .openV2 with
    | some f => (sqliteError f ("open " ++ path), s)
    | none =>
      let s := s.attach path
      match q.configure (s.fileAt path) with
      -- returns without closing the handle
      | .error status => (status, s)
      | .ok () =>
        match q.verifyIntegrityUnlocked (s.fileAt path) with
        | .error status => (status, { s with db := none })
        | .ok () =>
          let migration := s.migrateUnlocked q path
          if migration.1.isError then (migration.1, { migration.2 with db := none })
          else (.ok, migration.2)

/-- `SqliteDatabase::close`. -/
def close (s : State Row) : State Row := { s with db := none }

/-- `std::filesystem::rename`. It fails while a handle on the file is open, the
object's or one of another process (`held`). -/
def rename (held : Bool) (source target : String) (s : State Row) : State Row :=
  match s.files source with
  | none => s
  | some file =>
    if held || s.db = some source then s
    else
      { s with
        files := Function.update (Function.update s.files target (some file)) source none
        renamed := (source, target) :: s.renamed }

/-! ## What `open` leaves behind -/

@[simp] theorem putFile_db (s : State Row) (path : String) (file : File Row) :
    (s.putFile path file).db = s.db := rfl

@[simp] theorem putFile_renamed (s : State Row) (path : String) (file : File Row) :
    (s.putFile path file).renamed = s.renamed := rfl

@[simp] theorem putFile_files_self (s : State Row) (path : String) (file : File Row) :
    (s.putFile path file).files path = some file := by
  simp [putFile]

@[simp] theorem attach_db (s : State Row) (path : String) : (s.attach path).db = some path := rfl

@[simp] theorem fileAt_attach (s : State Row) (path : String) :
    (s.attach path).fileAt path = s.fileAt path := by
  simp [attach, putFile, fileAt]

/-- `open` on a closed object, where it goes: SQLite does not open the file; a
PRAGMA fails; the integrity check fails; the migrations are run. -/
theorem openAt_cases (q : Sqlite) (path : String) {s : State Row} (hs : s.db = none) :
    (∃ f, q.fails .openV2 = some f ∧ s.openAt q path = (sqliteError f ("open " ++ path), s)) ∨
    (q.fails .openV2 = none ∧ ∃ status, q.configure (s.fileAt path) = .error status ∧
      s.openAt q path = (status, s.attach path)) ∨
    (q.fails .openV2 = none ∧ q.configure (s.fileAt path) = .ok () ∧
      ∃ status, q.verifyIntegrityUnlocked (s.fileAt path) = .error status ∧
      s.openAt q path = (status, (s.attach path).close)) ∨
    (q.fails .openV2 = none ∧ q.configure (s.fileAt path) = .ok () ∧
      q.verifyIntegrityUnlocked (s.fileAt path) = .ok () ∧
      s.openAt q path =
        let migration := (s.attach path).migrateUnlocked q path
        if migration.1.isError then (migration.1, migration.2.close) else (.ok, migration.2)) := by
  unfold openAt
  simp only [hs, Option.isSome_none, Bool.false_eq_true, ite_false, fileAt_attach]
  cases ho : q.fails .openV2 with
  | some f => exact .inl ⟨f, rfl, rfl⟩
  | none =>
    refine .inr ?_
    cases hc : q.configure (s.fileAt path) with
    | error status => exact .inl ⟨rfl, status, rfl, rfl⟩
    | ok u =>
      refine .inr ?_
      cases hv : q.verifyIntegrityUnlocked (s.fileAt path) with
      | error status => exact .inl ⟨rfl, rfl, status, rfl, rfl⟩
      | ok v => exact .inr ⟨rfl, rfl, rfl, rfl⟩

theorem migrateUnlocked_isError {q : Sqlite} {path : String} {s : State Row} {c : Contents Row}
    (hc : s.fileAt path = .database c) :
    (s.migrateUnlocked q path).1.isError = false ↔ q.Migrates c := by
  have hd : initialSchema.creates.Nodup := migrations_nodup _ List.mem_cons_self
  unfold Sqlite.Migrates
  simp only [migrateUnlocked, hc, migrations, List.forall_mem_singleton]
  generalize q.userVersionUnlocked (.database c) = current
  have hk : kDatabaseSchema = initialSchema.version := rfl
  by_cases hv : initialSchema.version ≤ current
  · -- nothing is pending
    simp only [Sqlite.migrateFrom, if_pos hv, Int.not_lt.mpr hv, false_imp_iff, and_true]
    by_cases hgt : current > kDatabaseSchema
    · simp [hgt, Int.not_le.mpr hgt, Status.isError]
    · simp [hgt, Int.not_lt.mp hgt]
  · have hlt : current < initialSchema.version := Int.not_le.mp hv
    have hle : current ≤ kDatabaseSchema := by omega
    simp only [Sqlite.migrateFrom, if_neg hv, hle, hlt, true_and, forall_const]
    cases hr : initialSchema.run q (.database c) with
    | error status =>
      have he := initialSchema.reports_run q (.database c) status hr
      refine ⟨fun h => absurd he (by simp [h]), fun h => ?_⟩
      have hok := (Migration.run_eq_ok_iff hd).mpr ⟨h, rfl⟩
      rw [hr] at hok
      cases hok
    | ok file =>
      refine ⟨fun _ => ((Migration.run_eq_ok_iff hd).mp hr).1, fun _ => ?_⟩
      simp [hk]

/-- Whatever comes of the migrations, they only add to the database. -/
theorem migrateUnlocked_extends (q : Sqlite) {path : String} {s : State Row} {c : Contents Row}
    (hc : s.fileAt path = .database c) :
    ∃ c', (s.migrateUnlocked q path).2.files path = some (.database c') ∧ c'.Extends c ∧
      (s.migrateUnlocked q path).2.renamed = s.renamed ∧
      (s.migrateUnlocked q path).2.db = s.db := by
  obtain ⟨c', hc', hext⟩ :=
    q.migrateFrom_extends migrations_nodup (q.userVersionUnlocked (.database c)) c
  refine ⟨c', ?_⟩
  simp only [migrateUnlocked, hc]
  rcases hr : q.migrateFrom migrations (q.userVersionUnlocked (.database c)) (.database c) with
    ⟨r, file⟩
  have hfile : file = .database c' := by rwa [hr] at hc'
  cases r with
  | error status => simp [hfile, hext]
  | ok current =>
    by_cases hk : current > kDatabaseSchema <;> simp [hk, hfile, hext]

/-- `open` renames nothing, and only adds to a database. -/
theorem openAt_renamed (q : Sqlite) (path : String) (s : State Row) :
    (s.openAt q path).2.renamed = s.renamed := by
  by_cases hs : s.db = none
  · obtain ⟨f, -, h⟩ | ⟨-, status, -, h⟩ | ⟨-, -, status, -, h⟩ | ⟨-, hc, -, h⟩ :=
      openAt_cases q path hs
    · rw [h]
    · rw [h]
      rfl
    · rw [h]
      rfl
    · obtain ⟨⟨c, hfile⟩, -⟩ := Sqlite.configure_eq_ok_iff.mp hc
      obtain ⟨c', -, -, hr, -⟩ :=
        migrateUnlocked_extends q ((fileAt_attach s path).trans hfile)
      rw [h]
      dsimp only
      split <;> exact hr
  · unfold openAt
    rw [if_pos (Option.isSome_iff_ne_none.mpr hs)]

theorem openAt_extends (q : Sqlite) {path : String} {s : State Row} {c : Contents Row}
    (hfile : s.files path = some (.database c)) :
    ∃ c', (s.openAt q path).2.files path = some (.database c') ∧ c'.Extends c := by
  have hat : s.fileAt path = .database c := by simp [fileAt, hfile]
  have hattach : (s.attach path).files path = some (.database c) := by simp [attach, hat]
  by_cases hs : s.db = none
  · obtain ⟨f, -, h⟩ | ⟨-, status, -, h⟩ | ⟨-, -, status, -, h⟩ | ⟨-, -, -, h⟩ :=
      openAt_cases q path hs
    · exact ⟨c, by rw [h, hfile], .refl c⟩
    · exact ⟨c, by rw [h, hattach], .refl c⟩
    · exact ⟨c, by rw [h]; exact hattach, .refl c⟩
    · obtain ⟨c', hc', hext, -, -⟩ := migrateUnlocked_extends q ((fileAt_attach s path).trans hat)
      refine ⟨c', ?_, hext⟩
      rw [h]
      dsimp only
      split <;> exact hc'
  · unfold openAt
    rw [if_pos (Option.isSome_iff_ne_none.mpr hs)]
    exact ⟨c, hfile, .refl c⟩

end State

end NovaVpn.Database
