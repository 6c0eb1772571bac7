import NovaVpn.Database.SqliteDatabase
import NovaVpn.Framework.Transactions

/-!
# Migrations, statement by statement

`migrateUnlocked` for any list of migrations, over a connection: each migration
is a transaction of its own, which is rolled back by the destructor unless
`COMMIT` was tried. Wherever SQLite fails, what is committed is what the first
of the migrations make of the file that are beyond the version the loop starts
from (`migrateFrom_cases`). This is the version of the file unless that cannot
be read and counts as 0 (`unread_version_downgrades`), and a file that is too
new is found out after the loop: `never_half_iff`. `migrateUnlocked_upgrades`:
this is how `open()` migrates a file.
-/

namespace NovaVpn.Database

open NovaVpn.Framework

/-- What a database holds: a schema, and the version that it is said to have. -/
structure Disk (S : Type) where
  schema : S
  userVersion : Int
  deriving DecidableEq

/-- A migration, with what each statement of its SQL does to a schema. -/
structure Upgrade (S : Type) where
  version : Int
  description : String
  sql : String
  script : List (S → Except Failure S)

/-- The statements of `migrateUnlocked`; those of a migration name its version. -/
inductive Statement where
  | prepareVersion | stepVersion
  | begin (version : Int)
  | script (version : Int) (k : Nat)
  | setVersion (version : Int)
  | commit (version : Int)
  | rollback (version : Int)
  deriving DecidableEq

/-- How SQLite answers them. -/
structure Answers where
  fails : Statement → Option Failure := fun _ => none
  /-- Whether `PRAGMA user_version` has a row. -/
  versionRow : Bool := true

/-- The connection, `m_schemaVersion`, and what was logged: the version and the
description of each applied migration, the oldest first. -/
structure Handle (S : Type) where
  connection : Connection (Disk S)
  schemaVersion : Int := 0
  log : List (Int × String) := []

variable {S : Type}

/-! ## The source -/

/-- What is logged of an applied migration. -/
def Upgrade.event (m : Upgrade S) : Int × String := (m.version, m.description)

namespace Answers

/-- `userVersionUnlocked`. -/
def userVersionUnlocked (q : Answers) (d : Disk S) : Int :=
  if (q.fails .prepareVersion).isSome then 0
  else if (q.fails .stepVersion).isSome || !q.versionRow then 0
  else d.userVersion

/-- `SqliteTransaction::begin`. -/
def begin (q : Answers) (version : Int) (c : Connection (Disk S)) :
    Except Failure (Connection (Disk S)) :=
  match q.fails (.begin version), c.working with
  | some f, _ => .error f
  | none, some _ =>
    .error { code := 1, errstr := "cannot start a transaction within a transaction" }
  | none, none => .ok { c with working := some c.committed }

/-- `sqlite3_exec` of the SQL of a migration from its statement `k` on: how far
it comes, and how it fails. -/
def execScript (q : Answers) (version : Int) :
    Nat → List (S → Except Failure S) → S → S × Option Failure
  | _, [], s => (s, none)
  | k, statement :: rest, s =>
    match q.fails (.script version k) with
    | some f => (s, some f)
    | none =>
      match statement s with
      | .error f => (s, some f)
      | .ok s => execScript q version (k + 1) rest s

/-- `SqliteTransaction::commit`. -/
def commit (q : Answers) (version : Int) (c : Connection (Disk S)) :
    Except Failure (Connection (Disk S)) :=
  match q.fails (.commit version), c.working with
  | some f, _ => .error f
  | none, none => .error { code := 1, errstr := "cannot commit - no transaction is active" }
  | none, some d => .ok { committed := d }

/-- `SqliteTransaction::rollback`, whose error nobody looks at. -/
def rollback (q : Answers) (version : Int) (c : Connection (Disk S)) : Connection (Disk S) :=
  if (q.fails (.rollback version)).isSome then c else c.rollback

/-- The body of the loop of `migrateUnlocked`. An early return rolls back,
unless it comes from `commit`. -/
def migrate (q : Answers) (m : Upgrade S) (c : Connection (Disk S)) :
    Except Status Unit × Connection (Disk S) :=
  match q.begin m.version c with
  | .error f => (.error (sqliteError f "BEGIN IMMEDIATE"), q.rollback m.version c)
  | .ok c =>
    let ran := q.execScript m.version 0 m.script c.view.schema
    let c := c.write { c.view with schema := ran.1 }
    match ran.2 with
    | some f =>
      (.error ((sqliteError f m.sql).withContext ("migration to v" ++ toString m.version)),
        q.rollback m.version c)
    | none =>
      match q.fails (.setVersion m.version) with
      | some f =>
        (.error (sqliteError f ("PRAGMA user_version=" ++ toString m.version)),
          q.rollback m.version c)
      | none =>
        let c := c.write { c.view with userVersion := m.version }
        match q.commit m.version c with
        | .error f => (.error (sqliteError f "COMMIT"), c)
        | .ok c => (.ok (), c)

/-- The loop of `migrateUnlocked`. -/
def migrateFrom (q : Answers) : List (Upgrade S) → Int → Handle S → Except Status Int × Handle S
  | [], current, h => (.ok current, h)
  | m :: ms, current, h =>
    if m.version ≤ current then migrateFrom q ms current h
    else
      match q.migrate m h.connection with
      | (.error status, c) => (.error status, { h with connection := c })
      | (.ok (), c) => migrateFrom q ms m.version { h with connection := c, log := h.log ++ [m.event] }

/-- `migrateUnlocked`. -/
def migrateUnlocked (q : Answers) (ms : List (Upgrade S)) (h : Handle S) : Status × Handle S :=
  match q.migrateFrom ms (q.userVersionUnlocked h.connection.view) h with
  | (.error status, h) => (status, h)
  | (.ok current, h) =>
    (if kDatabaseSchema < current then
        { code := .serviceVersion
          message := "database schema v" ++ toString current ++
            " is newer than this build supports (v" ++ toString kDatabaseSchema ++ ")" }
      else .ok, { h with schemaVersion := current })

end Answers

/-! ## What migrations make of a file -/

/-- What a migration makes of a file. -/
def Upgrade.applied (m : Upgrade S) (d : Disk S) : Option (Disk S) :=
  (runScript (m.script.map fun statement s => (statement s).toOption) d.schema).map fun schema =>
    { schema, userVersion := m.version }

def applyAll : List (Upgrade S) → Disk S → Option (Disk S)
  | [], d => some d
  | m :: ms, d => (m.applied d).bind (applyAll ms)

/-- The migrations that a file of the version lacks. -/
def pending (ms : List (Upgrade S)) (version : Int) : List (Upgrade S) :=
  ms.filter fun m => version < m.version

/-- The version that migrations come to. -/
def lastVersion (ms : List (Upgrade S)) (version : Int) : Int :=
  (ms.getLast?.map Upgrade.version).getD version

/-- What is committed of a migration: nothing if one of its statements fails. -/
def Answers.committed (q : Answers) (m : Upgrade S) (d : Disk S) : Option (Disk S) :=
  if (q.fails (.begin m.version)).isSome || (q.fails (.setVersion m.version)).isSome ||
      (q.fails (.commit m.version)).isSome then none
  else
    match q.execScript m.version 0 m.script d.schema with
    | (schema, none) => some { schema, userVersion := m.version }
    | (_, some _) => none

def Answers.committedAll (q : Answers) : List (Upgrade S) → Disk S → Option (Disk S)
  | [], d => some d
  | m :: ms, d => (q.committed m d).bind (committedAll q ms)

/-- The handle that `open` has just opened on a file. -/
def Handle.opened (d : Disk S) (schemaVersion : Int) : Handle S :=
  { connection := { committed := d }, schemaVersion }

/-- What a run that starts on `before` has to leave. -/
structure NeverHalf (ms : List (Upgrade S)) (before : Disk S) (status : Status) (after : Handle S) :
    Prop where
  /-- Some of the pending migrations, in order, and all of them if it is ok. -/
  first : ∃ done rest, pending ms before.userVersion = done ++ rest ∧
    applyAll done before = some after.connection.committed ∧
    after.log = done.map Upgrade.event ∧ (status.isError = false → rest = [])
  version : status.isError = false → after.schemaVersion = after.connection.committed.userVersion
  newer : kDatabaseSchema < before.userVersion →
    after.connection.committed = before ∧ status.isError = true

/-- The `user_version` is read as it is. -/
def Answers.ReadsVersion (q : Answers) (d : Disk S) : Prop :=
  ((q.fails .prepareVersion).isNone && (q.fails .stepVersion).isNone && q.versionRow) = true ∨
    d.userVersion = 0

/-- The version counts as what it is, and a file that is too new has nothing
pending; or it is as if it did; or the first transaction fails. -/
def Answers.Keeps (q : Answers) (ms : List (Upgrade S)) (d : Disk S) : Prop :=
  (q.ReadsVersion d ∧ (kDatabaseSchema < d.userVersion → pending ms d.userVersion = [])) ∨
    (d.userVersion ≤ kDatabaseSchema ∧ pending ms 0 = pending ms d.userVersion ∧
      pending ms 0 ≠ []) ∨
    ∃ m, (pending ms (q.userVersionUnlocked d)).head? = some m ∧ q.committed m d = none

/-! ## One migration -/

section One

variable {q : Answers} {m : Upgrade S} {ms : List (Upgrade S)} {d d' : Disk S}

theorem execScript_none {version : Int} {k : Nat} {script : List (S → Except Failure S)} {s s' : S}
    (h : q.execScript version k script s = (s', none)) :
    runScript (script.map fun statement s => (statement s).toOption) s = some s' := by
  induction script generalizing k s with
  | nil =>
    cases h
    rfl
  | cons statement rest ih =>
    rw [Answers.execScript] at h
    split at h
    · cases h
    · split at h
      · cases h
      next s₁ hs =>
        rw [List.map_cons, runScript, hs]
        exact ih h

/-- The transaction of a migration makes of the file what the migration does. -/
theorem applied_of_committed (h : q.committed m d = some d') : m.applied d = some d' := by
  unfold Answers.committed at h
  split at h
  · cases h
  · split at h
    next schema hscript =>
      cases h
      rw [Upgrade.applied, execScript_none hscript]
      rfl
    next => cases h

theorem userVersion_of_committed (h : q.committed m d = some d') : d'.userVersion = m.version := by
  obtain ⟨schema, -, rfl⟩ := Option.map_eq_some_iff.mp (applied_of_committed h)
  rfl

@[simp] theorem committed_rollback (version : Int) (c : Connection (Disk S)) :
    (q.rollback version c).committed = c.committed := by
  unfold Answers.rollback
  split <;> rfl

/-- A migration is committed, or it ends in an error and the file is as it was. -/
theorem migrate_cases {c : Connection (Disk S)} (hc : c.working = none) :
    (∃ d, q.committed m c.committed = some d ∧ q.migrate m c = (.ok (), { committed := d })) ∨
      q.committed m c.committed = none ∧ ∃ status c', q.migrate m c = (.error status, c') ∧
        status.isError = true ∧ c'.committed = c.committed := by
  obtain ⟨d, working⟩ := c
  cases hc
  cases hbegin : q.fails (.begin m.version) with
  | some f =>
    refine Or.inr ⟨by simp [Answers.committed, hbegin], ?_⟩
    simp only [Answers.migrate, Answers.begin, hbegin]
    exact ⟨_, _, rfl, isError_sqliteError _ _, committed_rollback _ _⟩
  | none =>
    have hstart : q.begin m.version { committed := d } = .ok { committed := d, working := some d } := by
      simp [Answers.begin, hbegin]
    rcases hscript : q.execScript m.version 0 m.script d.schema with ⟨schema, _ | f⟩
    · cases hset : q.fails (.setVersion m.version) with
      | some f =>
        refine Or.inr ⟨by simp [Answers.committed, hset], ?_⟩
        simp only [Answers.migrate, hstart, Connection.view, Connection.write, Option.getD_some,
          hscript, hset]
        exact ⟨_, _, rfl, isError_sqliteError _ _, committed_rollback _ _⟩
      | none =>
        cases hcommit : q.fails (.commit m.version) with
        | some f =>
          refine Or.inr ⟨by simp [Answers.committed, hcommit], ?_⟩
          simp only [Answers.migrate, hstart, Connection.view, Connection.write, Option.getD_some,
            hscript, hset, Answers.commit, hcommit]
          exact ⟨_, _, rfl, isError_sqliteError _ _, rfl⟩
        | none =>
          refine Or.inl ⟨{ schema, userVersion := m.version }, ?_, ?_⟩
          · simp [Answers.committed, hbegin, hset, hcommit, hscript]
          · simp [Answers.migrate, hstart, Connection.view, Connection.write, hscript, hset,
              Answers.commit, hcommit]
    · refine Or.inr ⟨by simp [Answers.committed, hscript], ?_⟩
      simp only [Answers.migrate, hstart, Connection.view, Connection.write, Option.getD_some,
        hscript]
      refine ⟨_, _, rfl, ?_, committed_rollback _ _⟩
      rw [Status.isError_withContext, isError_sqliteError]

end One

/-! ## Many -/

section Many

variable {q : Answers} {m : Upgrade S} {ms : List (Upgrade S)} {d d' : Disk S} {version : Int}

theorem applyAll_of_committedAll (h : q.committedAll ms d = some d') :
    applyAll ms d = some d' := by
  induction ms generalizing d with
  | nil => exact h
  | cons m ms ih =>
    obtain ⟨d₁, hd₁, hrest⟩ := Option.bind_eq_some_iff.mp h
    rw [applyAll, applied_of_committed hd₁]
    exact ih hrest

theorem lastVersion_cons : lastVersion (m :: ms) version = lastVersion ms m.version := by
  unfold lastVersion
  rw [List.getLast?_cons]
  cases ms.getLast? <;> rfl

theorem userVersion_of_committedAll (h : q.committedAll ms d = some d') :
    d'.userVersion = lastVersion ms d.userVersion := by
  induction ms generalizing d with
  | nil =>
    cases h
    rfl
  | cons m ms ih =>
    obtain ⟨d₁, hd₁, hrest⟩ := Option.bind_eq_some_iff.mp h
    rw [ih hrest, lastVersion_cons, userVersion_of_committed hd₁]

theorem lt_lastVersion (h : ∀ m ∈ ms, version < m.version) (hne : ms ≠ []) :
    version < lastVersion ms version := by
  rw [lastVersion, List.getLast?_eq_some_getLast hne]
  exact h _ (List.getLast_mem hne)

theorem pending_eq_self (h : ∀ m ∈ ms, version < m.version) : pending ms version = ms :=
  List.filter_eq_self.mpr fun m hm => decide_eq_true (h m hm)

/-- Versions increase, so after the first that is beyond it all are. -/
theorem pending_cons_of_lt (hm : ∀ n ∈ ms, m.version < n.version) (hv : version < m.version) :
    pending (m :: ms) version = m :: ms := by
  apply pending_eq_self
  rw [List.forall_mem_cons]
  exact ⟨hv, fun n hn => Int.lt_trans hv (hm n hn)⟩

theorem pending_cons_of_le (hv : m.version ≤ version) :
    pending (m :: ms) version = pending ms version :=
  List.filter_cons_of_neg (by simpa using hv)

theorem lt_of_mem_pending (h : m ∈ pending ms version) : version < m.version :=
  of_decide_eq_true (List.mem_filter.mp h).2

/-- What is pending is what is not before the first that is. -/
theorem pending_of_head {first : Upgrade S} (hs : ms.Pairwise (·.version < ·.version))
    (h : (pending ms version).head? = some first) :
    pending ms version = ms.filter (first.version ≤ ·.version) := by
  induction ms with
  | nil => rfl
  | cons m ms ih =>
    obtain ⟨hm, hs⟩ := List.pairwise_cons.mp hs
    by_cases hv : version < m.version
    · rw [pending_cons_of_lt hm hv] at h ⊢
      cases h
      symm
      rw [List.filter_eq_self, List.forall_mem_cons]
      exact ⟨decide_eq_true (Int.le_refl _), fun n hn => decide_eq_true (Int.le_of_lt (hm n hn))⟩
    · rw [pending_cons_of_le (Int.not_lt.mp hv)] at h ⊢
      have hmem : first ∈ ms := (List.mem_filter.mp (List.mem_of_head? h)).1
      rw [ih hs h, List.filter_cons_of_neg]
      simpa using hm first hmem

/-- The loop comes to the end of the migrations beyond `current`, or stops at
one that fails; those before it are committed and logged. -/
theorem migrateFrom_cases (hs : ms.Pairwise (·.version < ·.version)) {h : Handle S}
    (hw : h.connection.working = none) (current : Int) :
    ∃ done left d, pending ms current = done ++ left ∧
      q.committedAll done h.connection.committed = some d ∧
      (∀ m ∈ left.head?, q.committed m d = none) ∧
      ((left = [] ∧ q.migrateFrom ms current h = (.ok (lastVersion done current),
          { h with connection := { committed := d }, log := h.log ++ done.map Upgrade.event })) ∨
        left ≠ [] ∧ ∃ status c, c.committed = d ∧ status.isError = true ∧
          q.migrateFrom ms current h = (.error status,
            { h with connection := c, log := h.log ++ done.map Upgrade.event })) := by
  induction ms generalizing current h with
  | nil =>
    obtain ⟨⟨d, working⟩, n, log⟩ := h
    cases hw
    refine ⟨[], [], d, rfl, rfl, (fun _ hm => nomatch hm), Or.inl ⟨rfl, ?_⟩⟩
    rw [List.map_nil, List.append_nil]
    rfl
  | cons m ms ih =>
    obtain ⟨hm, hs⟩ := List.pairwise_cons.mp hs
    by_cases hv : m.version ≤ current
    · rw [pending_cons_of_le hv, Answers.migrateFrom, if_pos hv]
      exact ih hs hw current
    · rw [Int.not_le] at hv
      have hall : pending (m :: ms) current = m :: pending ms m.version := by
        rw [pending_cons_of_lt hm hv, pending_eq_self hm]
      rw [hall, Answers.migrateFrom, if_neg (Int.not_le.mpr hv)]
      obtain ⟨d, hd, hrun⟩ | ⟨hnone, status, c, hrun, herror, hc⟩ := migrate_cases (q := q) (m := m) hw
      · rw [hrun]
        obtain ⟨done, left, d', hsplit, hdone, hfirst, hends⟩ :=
          ih hs (h := { h with connection := { committed := d }, log := h.log ++ [m.event] }) rfl
            m.version
        refine ⟨m :: done, left, d', by rw [hsplit, List.cons_append], ?_, hfirst, ?_⟩
        · rw [Answers.committedAll, hd]
          exact hdone
        · rw [lastVersion_cons, List.map_cons]
          simpa only [List.append_assoc, List.singleton_append] using hends
      · rw [hrun]
        refine ⟨[], m :: pending ms m.version, _, rfl, rfl, fun n hn => ?_,
          Or.inr ⟨List.cons_ne_nil _ _, status, c, hc, herror, ?_⟩⟩
        · cases hn
          exact hnone
        rw [List.map_nil, List.append_nil]

end Many

/-! ## The migrations of this build -/

section Upgrades

variable {Row : Type}

/-- What `CREATE` does to the tables and indexes. -/
def createStatement (q : Sqlite) (name : String) (objects : List (String × List Row)) :
    Except Failure (List (String × List Row)) :=
  if name ∈ objects.map Prod.fst then .error (q.taken name) else .ok (objects ++ [(name, [])])

/-- A migration; a first statement that does nothing stands for what can fail
before there is any. -/
def Migration.upgrade (q : Sqlite) (m : Migration) : Upgrade (List (String × List Row)) where
  version := m.version
  description := m.description
  sql := m.sql
  script := .ok :: m.creates.map (createStatement q)

def Sqlite.answers (q : Sqlite) : Answers where
  fails
    | .prepareVersion => q.fails .prepareVersion
    | .stepVersion => q.fails .stepVersion
    | .begin version => q.fails (.begin version)
    | .script version 0 => q.fails (.migrate version)
    | .script _ (_ + 1) => none
    | .setVersion version => q.fails (.setVersion version)
    | .commit version => q.fails (.commit version)
    | .rollback _ => none
  versionRow := q.row .stepVersion

namespace Contents

def disk (c : Contents Row) : Disk (List (String × List Row)) :=
  { schema := c.objects, userVersion := c.userVersion }

def withDisk (c : Contents Row) (d : Disk (List (String × List Row))) : Contents Row :=
  { c with objects := d.schema, userVersion := d.userVersion }

@[simp] theorem withDisk_disk (c : Contents Row) : c.withDisk c.disk = c := rfl

@[simp] theorem disk_withDisk (c : Contents Row) (d : Disk (List (String × List Row))) :
    (c.withDisk d).disk = d := rfl

@[simp] theorem withDisk_withDisk (c : Contents Row) (d d' : Disk (List (String × List Row))) :
    (c.withDisk d).withDisk d' = c.withDisk d' := rfl

end Contents

variable {q : Sqlite}

theorem userVersionUnlocked_answers (c : Contents Row) :
    q.answers.userVersionUnlocked c.disk = q.userVersionUnlocked (.database c) := by
  unfold Answers.userVersionUnlocked Sqlite.userVersionUnlocked Sqlite.read
  cases hprepare : q.fails .prepareVersion <;> cases hstep : q.fails .stepVersion <;>
    cases hrow : q.row .stepVersion <;> simp [Sqlite.answers, hprepare, hstep, hrow, Contents.disk]

theorem create_eq_execScript (version : Int) (k : Nat) (names : List String) (c : Contents Row) :
    Contents.create q names c =
      match q.answers.execScript version (k + 1) (names.map (createStatement q)) c.objects with
      | (objects, none) => .ok { c with objects }
      | (_, some f) => .error f := by
  induction names generalizing k c with
  | nil => rfl
  | cons name names ih =>
    simp only [Contents.create, List.map_cons, Answers.execScript, Sqlite.answers, createStatement]
    split
    · rfl
    · exact ih (k + 1) _

theorem run_eq_migrate (m : Migration) (c : Contents Row) :
    m.run q (.database c) =
      match q.answers.migrate (m.upgrade q) { committed := c.disk } with
      | (.error status, _) => .error status
      | (.ok (), c') => .ok (.database (c.withDisk c'.committed)) := by
  have hfails (v : Int) : q.answers.fails (.begin v) = q.fails (.begin v) ∧
      q.answers.fails (.setVersion v) = q.fails (.setVersion v) ∧
      q.answers.fails (.commit v) = q.fails (.commit v) ∧
      q.answers.fails (.script v 0) = q.fails (.migrate v) := ⟨rfl, rfl, rfl, rfl⟩
  simp only [Migration.run, Sqlite.exec_database, Sqlite.read, Answers.migrate, Answers.begin,
    Answers.commit, Migration.upgrade, Answers.execScript, Connection.view, Connection.write,
    Contents.disk, hfails]
  cases q.fails (.begin m.version) with
  | some f => rfl
  | none =>
    cases q.fails (.migrate m.version) with
    | some f => rfl
    | none =>
      have hcreate := create_eq_execScript (q := q) m.version 0 m.creates c
      rcases hscript : q.answers.execScript m.version 1 (m.creates.map (createStatement q))
        c.objects with ⟨objects, _ | f⟩
      · rw [hscript] at hcreate
        cases q.fails (.setVersion m.version) with
        | some f => simp [bind, Except.bind, hcreate, hscript]
        | none =>
          cases q.fails (.commit m.version) with
          | some f => simp [bind, Except.bind, hcreate, hscript]
          | none => simp [bind, Except.bind, pure, Except.pure, hcreate, hscript, Contents.withDisk]
      · rw [hscript] at hcreate
        simp [bind, Except.bind, hcreate, hscript]

/-- The loop over a file is the one over its connection. -/
theorem migrateFrom_upgrades (ms : List Migration) (current : Int) {c : Contents Row}
    {h : Handle (List (String × List Row))} (hc : h.connection = { committed := c.disk }) :
    q.migrateFrom ms current (.database c) =
      ((q.answers.migrateFrom (ms.map (Migration.upgrade q)) current h).1,
        .database (c.withDisk
          (q.answers.migrateFrom (ms.map (Migration.upgrade q)) current h).2.connection.committed)) := by
  induction ms generalizing current c h with
  | nil =>
    simp [Sqlite.migrateFrom, Answers.migrateFrom, hc]
  | cons m ms ih =>
    rw [Sqlite.migrateFrom, List.map_cons, Answers.migrateFrom]
    have hversion : (m.upgrade q : Upgrade (List (String × List Row))).version = m.version := rfl
    rw [hversion, run_eq_migrate]
    split
    · exact ih current hc
    · obtain ⟨d, -, hrun⟩ | ⟨-, status, c', hrun, -, hrest⟩ :=
        migrate_cases (q := q.answers) (m := m.upgrade q) (c := h.connection) (by rw [hc])
      · rw [hrun, ← hc, hrun]
        exact ih m.version (c := c.withDisk d) rfl
      · rw [hrun, ← hc, hrun]
        simp [hrest, hc]

theorem schemaVersion_migrateFrom {S : Type} (q : Answers) (ms : List (Upgrade S)) (current : Int)
    (h : Handle S) : (q.migrateFrom ms current h).2.schemaVersion = h.schemaVersion := by
  induction ms generalizing current h with
  | nil => rfl
  | cons m ms ih =>
    rw [Answers.migrateFrom]
    split
    · exact ih current h
    · split
      · rfl
      · rw [ih]

/-- `open` migrates a file as it does a connection to what the file holds. -/
theorem migrateUnlocked_upgrades {path : String} {s : State Row} {c : Contents Row}
    (hc : s.fileAt path = .database c) :
    let r := q.answers.migrateUnlocked (migrations.map (Migration.upgrade q))
      (.opened c.disk s.schemaVersion)
    s.migrateUnlocked q path =
      (r.1, { s.putFile path (.database (c.withDisk r.2.connection.committed)) with
        schemaVersion := r.2.schemaVersion }) := by
  have hloop := migrateFrom_upgrades (q := q) migrations (q.answers.userVersionUnlocked c.disk)
    (c := c) (h := .opened c.disk s.schemaVersion) rfl
  have hkept := schemaVersion_migrateFrom q.answers (migrations.map (Migration.upgrade q))
    (q.answers.userVersionUnlocked c.disk) (.opened c.disk s.schemaVersion)
  have hview : (Handle.opened c.disk s.schemaVersion).connection.view = c.disk := rfl
  rw [State.migrateUnlocked, hc, ← userVersionUnlocked_answers, Answers.migrateUnlocked, hview]
  dsimp only
  rw [hloop]
  rcases hrun : q.answers.migrateFrom (migrations.map (Migration.upgrade q))
    (q.answers.userVersionUnlocked c.disk) (.opened c.disk s.schemaVersion) with ⟨status | current, h⟩
  · rw [hrun] at hkept
    dsimp only at hkept ⊢
    rw [hkept]
    rfl
  · dsimp only
    split <;> rfl

end Upgrades

/-! ## A whole run -/

section Run

variable {q : Answers} {ms : List (Upgrade S)} {d : Disk S}

theorem userVersionUnlocked_eq (h : q.ReadsVersion d) :
    q.userVersionUnlocked d = d.userVersion := by
  unfold Answers.userVersionUnlocked
  rcases h with h | h
  · simp only [Bool.and_eq_true, Option.isNone_iff_eq_none] at h
    obtain ⟨⟨hprepare, hstep⟩, hrow⟩ := h
    simp [hprepare, hstep, hrow]
  · split
    · exact h.symm
    · split
      · exact h.symm
      · rfl

/-- A version that is not read counts as 0. -/
theorem userVersionUnlocked_eq_zero (h : ¬ q.ReadsVersion d) : q.userVersionUnlocked d = 0 := by
  unfold Answers.userVersionUnlocked
  split
  · rfl
  · split
    · rfl
    next hprepare hstep =>
      refine absurd (Or.inl ?_) h
      simpa [Option.isSome_iff_ne_none, and_assoc] using And.intro hprepare hstep

/-- How a run ends: as the loop does, and with an error if the version it came
to is too new. -/
theorem migrateUnlocked_cases (q : Answers) (hs : ms.Pairwise (·.version < ·.version))
    (d : Disk S) (n : Int) :
    ∃ done left d', pending ms (q.userVersionUnlocked d) = done ++ left ∧
      q.committedAll done d = some d' ∧ (∀ m ∈ left.head?, q.committed m d' = none) ∧
      ∃ status h, q.migrateUnlocked ms (.opened d n) = (status, h) ∧ h.connection.committed = d' ∧
        h.log = done.map Upgrade.event ∧
        ((left = [] ∧ h.schemaVersion = lastVersion done (q.userVersionUnlocked d) ∧
            (status.isError = true ↔ kDatabaseSchema < h.schemaVersion)) ∨
          left ≠ [] ∧ status.isError = true) := by
  obtain ⟨done, left, d', hsplit, hdone, hfirst, hends⟩ :=
    migrateFrom_cases (q := q) hs (h := .opened d n) rfl (q.userVersionUnlocked d)
  refine ⟨done, left, d', hsplit, hdone, hfirst, ?_⟩
  have hview : (Handle.opened d n).connection.view = d := rfl
  rw [Answers.migrateUnlocked, hview]
  rcases hends with ⟨hleft, hrun⟩ | ⟨hleft, status, c, hc, herror, hrun⟩
  · rw [hrun]
    refine ⟨_, _, rfl, rfl, List.nil_append _, Or.inl ⟨hleft, rfl, ?_⟩⟩
    dsimp only
    split
    next hnewer => exact ⟨fun _ => hnewer, fun _ => rfl⟩
    next hnewer => exact ⟨fun h => absurd h (by decide), fun h => absurd h hnewer⟩
  · rw [hrun]
    exact ⟨_, _, rfl, hc, List.nil_append _, Or.inr ⟨hleft, herror⟩⟩

/-- What is pending from the version taken is what is pending. -/
theorem neverHalf_of_pending (hs : ms.Pairwise (·.version < ·.version)) (n : Int)
    (hpending : pending ms (q.userVersionUnlocked d) = pending ms d.userVersion)
    (hversion : pending ms d.userVersion = [] → q.userVersionUnlocked d = d.userVersion)
    (hnewer : kDatabaseSchema < d.userVersion → pending ms d.userVersion = []) :
    NeverHalf ms d (q.migrateUnlocked ms (.opened d n)).1
      (q.migrateUnlocked ms (.opened d n)).2 := by
  obtain ⟨done, left, d', hsplit, hdone, -, status, h, hrun, rfl, hlog, hends⟩ :=
    migrateUnlocked_cases q hs d n
  rw [hpending] at hsplit
  rw [hrun]
  have hreached : left = [] →
      lastVersion done (q.userVersionUnlocked d) = h.connection.committed.userVersion := by
    rintro rfl
    rw [userVersion_of_committedAll hdone]
    rw [List.append_nil] at hsplit
    cases done with
    | nil => exact hversion hsplit
    | cons m done => rw [lastVersion_cons, lastVersion_cons]
  refine ⟨⟨done, left, hsplit, applyAll_of_committedAll hdone, hlog, fun hok => ?_⟩, fun hok => ?_,
    fun hnew => ?_⟩
  · rcases hends with ⟨hleft, -⟩ | ⟨-, herror⟩
    · exact hleft
    · rw [hok] at herror
      cases herror
  · rcases hends with ⟨hleft, hschema, -⟩ | ⟨-, herror⟩
    · rw [hschema, hreached hleft]
    · rw [hok] at herror
      cases herror
  · rw [hnewer hnew, eq_comm, List.append_eq_nil_iff] at hsplit
    obtain ⟨rfl, rfl⟩ := hsplit
    cases hdone
    rcases hends with ⟨hleft, hschema, herror⟩ | ⟨hleft, -⟩
    · exact ⟨rfl, herror.mpr (by rwa [hschema, hreached hleft])⟩
    · exact absurd rfl hleft

/-- After a first transaction that fails, nothing has changed. -/
theorem neverHalf_of_fails (hs : ms.Pairwise (·.version < ·.version)) (n : Int) {m : Upgrade S}
    (hm : (pending ms (q.userVersionUnlocked d)).head? = some m) (hfails : q.committed m d = none) :
    NeverHalf ms d (q.migrateUnlocked ms (.opened d n)).1
      (q.migrateUnlocked ms (.opened d n)).2 := by
  obtain ⟨done, left, d', hsplit, hdone, -, status, h, hrun, rfl, hlog, hends⟩ :=
    migrateUnlocked_cases q hs d n
  rw [hsplit] at hm
  rw [hrun]
  cases done with
  | cons m' done =>
    cases hm
    rw [Answers.committedAll, hfails] at hdone
    cases hdone
  | nil =>
    cases hdone
    have herror : status.isError = true := by
      rcases hends with ⟨rfl, -⟩ | ⟨-, herror⟩
      · cases hm
      · exact herror
    have hok : status.isError ≠ false := by
      rw [herror]
      decide
    exact ⟨⟨[], _, rfl, rfl, hlog, fun h => absurd h hok⟩, fun h => absurd h hok,
      fun _ => ⟨rfl, herror⟩⟩

/-- A run that commits something has committed the first of the pending
migrations, so those are the ones it starts from. -/
theorem keeps_of_neverHalf (hs : ms.Pairwise (·.version < ·.version)) {n : Int}
    (h : NeverHalf ms d (q.migrateUnlocked ms (.opened d n)).1
      (q.migrateUnlocked ms (.opened d n)).2) : q.Keeps ms d := by
  obtain ⟨done, left, d', hsplit, hdone, hfirst, status, handle, hrun, rfl, hlog, hends⟩ :=
    migrateUnlocked_cases q hs d n
  rw [hrun] at h
  obtain ⟨⟨done', rest, hsplit', -, hlog', -⟩, hversion, hnewer⟩ := h
  dsimp only at hlog' hversion hnewer
  cases done with
  | nil =>
    replace hdone : d = handle.connection.committed := Option.some.inj hdone
    rw [List.nil_append] at hsplit
    rcases hends with ⟨rfl, hschema, herror⟩ | ⟨hleft, -⟩
    · by_cases hreads : q.ReadsVersion d
      · rw [userVersionUnlocked_eq hreads] at hsplit
        exact Or.inl ⟨hreads, fun _ => hsplit⟩
      · -- the run is ok, at version 0
        replace hschema : handle.schemaVersion = 0 :=
          hschema.trans (userVersionUnlocked_eq_zero hreads)
        have hok : status.isError = false := by
          rw [← Bool.not_eq_true, herror, hschema]
          decide
        refine absurd (Or.inr ?_) hreads
        rw [hdone, ← hversion hok, hschema]
    · obtain ⟨m, hm⟩ := Option.isSome_iff_exists.mp (List.isSome_head?.mpr hleft)
      refine Or.inr (Or.inr ⟨m, by rw [hsplit, hm], ?_⟩)
      rw [hdone]
      exact hfirst m hm
  | cons m done =>
    have hhead : (pending ms (q.userVersionUnlocked d)).head? = some m := by
      rw [hsplit]
      rfl
    -- the first that is logged has the version of the first that is pending
    rw [hlog] at hlog'
    obtain ⟨m', done', rfl⟩ : ∃ m' tail, done' = m' :: tail := by
      cases done' with
      | nil => cases hlog'
      | cons m' tail => exact ⟨m', tail, rfl⟩
    have hversions : m.version = m'.version := (Prod.ext_iff.mp (List.cons.inj hlog').1).1
    have hhead' : (pending ms d.userVersion).head? = some m' := by
      rw [hsplit']
      rfl
    have hpending : pending ms (q.userVersionUnlocked d) = pending ms d.userVersion := by
      rw [pending_of_head hs hhead, pending_of_head hs hhead', hversions]
    have hreached : handle.connection.committed.userVersion ≠ d.userVersion := by
      have hall : ∀ k ∈ m :: done, d.userVersion < k.version := by
        intro k hk
        have hmem : k ∈ pending ms d.userVersion := by
          rw [← hpending, hsplit]
          exact List.mem_append_left _ hk
        exact lt_of_mem_pending hmem
      rw [userVersion_of_committedAll hdone]
      exact (Int.ne_of_lt (lt_lastVersion hall (List.cons_ne_nil _ _))).symm
    have hold : d.userVersion ≤ kDatabaseSchema := by
      refine Int.not_lt.mp fun hlt => hreached ?_
      rw [(hnewer hlt).1]
    by_cases hreads : q.ReadsVersion d
    · exact Or.inl ⟨hreads, fun hlt => absurd hlt (Int.not_lt.mpr hold)⟩
    · rw [userVersionUnlocked_eq_zero hreads] at hpending hhead
      refine Or.inr (Or.inl ⟨hold, hpending, fun hnil => ?_⟩)
      rw [hnil] at hhead
      cases hhead

/-- Wherever SQLite fails: a file is never half migrated exactly if the version
counts as what it is or the migrations to run are the same without it, and a
file that is too new lacks none; or if nothing is committed at all. -/
theorem never_half_iff (q : Answers) (hs : ms.Pairwise (·.version < ·.version)) (d : Disk S)
    (n : Int) :
    NeverHalf ms d (q.migrateUnlocked ms (.opened d n)).1 (q.migrateUnlocked ms (.opened d n)).2 ↔
      q.Keeps ms d := by
  refine ⟨keeps_of_neverHalf hs, ?_⟩
  rintro (⟨hreads, hnewer⟩ | ⟨hold, hpending, hne⟩ | ⟨m, hm, hfails⟩)
  · have hversion := userVersionUnlocked_eq hreads
    exact neverHalf_of_pending hs n (by rw [hversion]) (fun _ => hversion) hnewer
  · by_cases hreads : q.ReadsVersion d
    · have hversion := userVersionUnlocked_eq hreads
      exact neverHalf_of_pending hs n (by rw [hversion]) (fun _ => hversion)
        fun hlt => absurd hlt (Int.not_lt.mpr hold)
    · refine neverHalf_of_pending hs n ?_ (fun hnil => absurd (hpending.trans hnil) hne)
        fun hlt => absurd hlt (Int.not_lt.mpr hold)
      rw [userVersionUnlocked_eq_zero hreads, hpending]
  · exact neverHalf_of_fails hs n hm hfails

/-- A second migration that fails leaves what the first made. -/
theorem second_fails_never_half :
    let ms : List (Upgrade (List (String × List String))) :=
      [initialSchema.upgrade {},
        { version := 2, description := "drop routes", sql := "DROP TABLE owned_routes;"
          script := [fun objects => .ok (objects.filter (·.1 ≠ "owned_routes"))] }]
    let q : Answers :=
      { fails := fun statement =>
          if statement = .script 2 0 then some { code := 10, errstr := "disk I/O error" } else none }
    let r := q.migrateUnlocked ms (.opened { schema := [], userVersion := 0 } 0)
    NeverHalf ms { schema := [], userVersion := 0 } r.1 r.2 ∧
      r.2.connection.committed.userVersion = 1 ∧ r.2.connection.committed.schema.length = 16 :=
  ⟨(never_half_iff _ (by decide) _ _).mpr (Or.inl ⟨Or.inr rfl, by decide⟩), by decide +kernel,
    by decide +kernel⟩

/-- The version of a newer build's file cannot be read: the initial schema is
created in it, the file is one of version 1 from then on, and the run is ok. -/
theorem unread_version_downgrades :
    let ms : List (Upgrade (List (String × List String))) := migrations.map (Migration.upgrade {})
    let q : Answers :=
      { fails := fun statement =>
          if statement = .prepareVersion then some { code := 5, errstr := "database is locked" }
          else none }
    let before : Disk (List (String × List String)) :=
      { schema := [("profiles_v7", ["home"])], userVersion := 7 }
    let r := q.migrateUnlocked ms (.opened before 0)
    ¬ NeverHalf ms before r.1 r.2 ∧ r.1.isError = false ∧ r.2.schemaVersion = 1 ∧
      r.2.connection.committed.userVersion = 1 ∧
      r.2.connection.committed.schema.length = 17 := by
  refine ⟨fun h => ?_, by decide +kernel, by decide +kernel, by decide +kernel, by decide +kernel⟩
  exact absurd (h.newer (by decide)).2 (by decide +kernel)

end Run

end NovaVpn.Database
