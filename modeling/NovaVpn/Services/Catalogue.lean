import NovaVpn.Database.SqliteDatabase

/-!
# Opening the catalogue at the start

`NovaVpnService::onStart` opens the catalogue and, whatever error it meets, sets
the file aside under another name and opens a new one in its place, with the
same object. `recovers_iff` says when a failed `open` leaves an object this can
be done with: a PRAGMA that fails returns with the handle open, and then the
file can neither be renamed nor opened again. `intact_kept_iff` says when a
database with nothing wrong keeps its name.
-/

namespace NovaVpn.Database

variable {Row : Type}

/-- The catalogue in `NovaVpnService::onStart`. The calls of the first `open` are
answered by `q`, those of the second by `q'`. -/
def onStart (q q' : Sqlite) (held : Bool) (path : String) (files : Files Row) :
    Status × State Row :=
  let opened := ({ files } : State Row).openAt q path
  if opened.1.isError then
    (opened.2.rename held path (path ++ ".corrupt")).openAt q' path
  else opened

/-! ## When `open` succeeds -/

/-- No call fails. -/
def Sqlite.Faultless (q : Sqlite) : Prop :=
  (∀ call, q.fails call = none) ∧ ∀ call, q.row call = true

/-- A path is usable if nothing is there, or a database that is sound and of a
version this build knows. -/
def Usable (files : Files Row) (path : String) : Prop :=
  ∃ c, (files path).getD (.database {}) = .database c ∧ c.integrity = "ok" ∧
    c.userVersion ≤ kDatabaseSchema ∧
    ∀ m ∈ migrations, c.userVersion < m.version → c.Free m.creates

theorem usable_of_missing {files : Files Row} {path : String} (h : files path = none) :
    Usable files path := by
  have hv : (0 : Int) ≤ kDatabaseSchema := by decide
  refine ⟨{}, by rw [h]; rfl, rfl, hv, fun m _ _ name _ hname => ?_⟩
  simp at hname

theorem Sqlite.Faultless.migrates {q : Sqlite} (hq : q.Faultless) {c : Contents Row}
    (hv : c.userVersion ≤ kDatabaseSchema)
    (hm : ∀ m ∈ migrations, c.userVersion < m.version → c.Free m.creates) : q.Migrates c := by
  have huser : q.userVersionUnlocked (.database c) = c.userVersion := by
    simp [userVersionUnlocked, read, hq.1, hq.2]
  unfold Migrates
  rw [huser]
  exact ⟨hv, fun m hmem hlt => ⟨hq.1 _, hq.1 _, hq.1 _, hq.1 _, hm m hmem hlt⟩⟩

/-- A closed object opens a usable path. -/
theorem openAt_usable {q : Sqlite} (hq : q.Faultless) {path : String} {s : State Row}
    (hs : s.db = none) (h : Usable s.files path) : (s.openAt q path).1 = .ok := by
  obtain ⟨c, hfile, hi, hv, hm⟩ := h
  have hconf := Sqlite.configure_eq_ok_iff.mpr
    ⟨⟨c, hfile⟩, hq.1 .journalMode, hq.1 .synchronous, hq.1 .foreignKeys⟩
  have hint := Sqlite.verifyIntegrity_eq_ok_iff.mpr
    ⟨⟨hq.1 .prepareIntegrity, hq.1 .stepIntegrity, hq.2 .stepIntegrity⟩, hi⟩
  have hmig := (State.migrateUnlocked_isError ((State.fileAt_attach s path).trans hfile)).mpr
    (hq.migrates hv hm)
  obtain ⟨f, ho, -⟩ | ⟨-, status, hc, -⟩ | ⟨-, -, status, hc, -⟩ | ⟨-, -, -, h⟩ :=
    State.openAt_cases q path hs
  · rw [hq.1] at ho
    cases ho
  · rw [State.fileAt, hconf] at hc
    cases hc
  · rw [State.fileAt, hfile, hint] at hc
    cases hc
  · rw [h]
    simp [hmig]

/-! ## A failed `open` -/

/-- A file is damaged if it is no database, or its integrity check does not say
`ok`. -/
def Damaged (files : Files Row) (path : String) : Prop :=
  (∃ bytes, files path = some (.other bytes)) ∨
    ∃ c, files path = some (.database c) ∧ c.integrity ≠ "ok"

/-- What a failed `open` of a closed object is to leave behind: the object is
closed; it opens any usable path; and a start whose first `open` finds a damaged
file replaces it. -/
structure Recovers (q : Sqlite) (path : String) (s : State Row) : Prop where
  closed : (s.openAt q path).1.isError = true → (s.openAt q path).2.db = none
  reopens : (s.openAt q path).1.isError = true → ∀ q' path' (files' : Files Row),
    q'.Faultless → Usable files' path' →
    ({ (s.openAt q path).2 with files := files' }.openAt q' path').1 = .ok
  starts : Damaged s.files path → ∀ q', q'.Faultless →
    (onStart q q' false path s.files).1 = .ok

/-- After a call to `open` that fails the object is closed, unless a PRAGMA
failed. -/
theorem openAt_db {q : Sqlite} {path : String} {s : State Row} (hs : s.db = none)
    (herr : (s.openAt q path).1.isError = true)
    (h : q.fails .openV2 ≠ none ∨ (∃ c, s.fileAt path = .database c) ∧ q.Configures) :
    (s.openAt q path).2.db = none := by
  obtain ⟨f, -, h'⟩ | ⟨ho, status, hc, -⟩ | ⟨-, -, status, -, h'⟩ | ⟨-, -, -, h'⟩ :=
    State.openAt_cases q path hs
  · rw [h']
    exact hs
  · rcases h with h | h
    · exact absurd ho h
    · rw [Sqlite.configure_eq_ok_iff.mpr h] at hc
      cases hc
  · rw [h']
    rfl
  · rw [h'] at herr ⊢
    dsimp only at herr ⊢
    split at herr
    · rename_i hm
      rw [if_pos hm]
      rfl
    · cases herr

/-- The start succeeds if its first `open` fails and leaves the object closed:
what was at the path is renamed. -/
theorem onStart_of_closed {q q' : Sqlite} (hq' : q'.Faultless) {path : String} {files : Files Row}
    (herr : (({ files } : State Row).openAt q path).1.isError = true)
    (hdb : (({ files } : State Row).openAt q path).2.db = none) :
    (onStart q q' false path files).1 = .ok := by
  unfold onStart
  dsimp only
  rw [if_pos herr]
  generalize ({ files } : State Row).openAt q path = r at hdb
  have hrename : (r.2.rename false path (path ++ ".corrupt")).files path = none ∧
      (r.2.rename false path (path ++ ".corrupt")).db = none := by
    unfold State.rename
    split
    · rename_i h
      exact ⟨h, hdb⟩
    · simp [hdb]
  exact openAt_usable hq' hrename.2 (usable_of_missing hrename.1)

/-- A damaged file does not open. -/
theorem openAt_damaged {q : Sqlite} {path : String} {files : Files Row}
    (h : Damaged files path) : (({ files } : State Row).openAt q path).1.isError = true := by
  obtain ⟨f, -, h'⟩ | ⟨-, status, hc, h'⟩ | ⟨-, -, status, hv, h'⟩ | ⟨-, hc, hv, -⟩ :=
    State.openAt_cases q path (s := ({ files } : State Row)) rfl
  · rw [h']
    exact isError_sqliteError f _
  · rw [h']
    exact reports_configure q _ status hc
  · rw [h']
    exact reports_verifyIntegrity q _ status hv
  · obtain ⟨⟨c, hfile⟩, -⟩ := Sqlite.configure_eq_ok_iff.mp hc
    rw [hfile, Sqlite.verifyIntegrity_eq_ok_iff] at hv
    rcases h with ⟨bytes, hb⟩ | ⟨c', hc', hi⟩
    · simp [State.fileAt, hb] at hfile
    · simp only [State.fileAt, hc', Option.getD_some, File.database.injEq] at hfile
      rw [hfile] at hi
      exact absurd hv.2 hi

theorem recovers_iff {q : Sqlite} {path : String} {s : State Row} (hs : s.db = none) :
    Recovers q path s ↔
      q.fails .openV2 ≠ none ∨ (∃ c, s.fileAt path = .database c) ∧ q.Configures := by
  constructor
  · intro h
    by_contra hno
    rw [not_or, ne_eq, not_not, ← Sqlite.configure_eq_ok_iff] at hno
    obtain ⟨f, ho, -⟩ | ⟨-, status, hc, h'⟩ | ⟨-, hc, -⟩ | ⟨-, hc, -⟩ :=
      State.openAt_cases q path hs
    · rw [hno.1] at ho
      cases ho
    · -- the handle is still there
      have herr : (s.openAt q path).1.isError = true := by
        rw [h']
        exact reports_configure q _ status hc
      have hdb := h.closed herr
      rw [h'] at hdb
      cases hdb
    · exact hno.2 hc
    · exact hno.2 hc
  · intro h
    refine ⟨fun herr => openAt_db hs herr h, fun herr q' path' files' hq' hu => ?_,
      fun hd q' hq' => ?_⟩
    · exact openAt_usable hq' (openAt_db hs herr h) hu
    · have herr := openAt_damaged (q := q) hd
      exact onStart_of_closed hq' herr (openAt_db rfl herr h)

/-- A catalogue of a newer schema is refused, and the object is closed. -/
theorem recovers_newer :
    Recovers {} "nova.db" ({ files := fun _ => some (.database { userVersion := 2 }) } : State Nat) :=
  (recovers_iff rfl).mpr (.inr ⟨⟨_, rfl⟩, rfl, rfl, rfl⟩)

/-- With a file that is no database the first PRAGMA fails; the object keeps its
handle, and the start fails with it. -/
theorem unrecovered_not_a_database :
    ¬Recovers {} "nova.db" ({ files := fun _ => some (.other [0]) } : State Nat) ∧
    (onStart {} {} false "nova.db" fun _ => some (.other [0] : File Nat)).1 =
      Err.invalidState "database already open" := by
  refine ⟨fun h => ?_, rfl⟩
  have hdb := h.closed rfl
  cases hdb

/-! ## An intact catalogue -/

/-- The file was not renamed, and holds what it held. -/
def Kept (path : String) (c : Contents Row) (s : State Row) : Prop :=
  s.renamed = [] ∧ ∃ c', s.files path = some (.database c') ∧ c'.Extends c

/-- Setting aside and opening anew, with the object closed: the file is kept if
something else keeps it from being renamed. -/
theorem kept_reopen_iff {q' : Sqlite} {held : Bool} {path target : String} {c c' : Contents Row}
    {s : State Row} (hdb : s.db = none) (hr : s.renamed = [])
    (hfile : s.files path = some (.database c')) (hext : c'.Extends c) :
    Kept path c ((s.rename held path target).openAt q' path).2 ↔ held = true := by
  unfold Kept
  rw [State.openAt_renamed]
  cases held with
  | false => simp [State.rename, hfile, hdb]
  | true =>
    have hrename : s.rename true path target = s := by simp [State.rename, hfile]
    obtain ⟨c'', hc'', hext'⟩ := State.openAt_extends q' hfile
    rw [hrename]
    simp only [hr, true_and, iff_true]
    exact ⟨c'', hc'', hext.trans hext'⟩

theorem onStart_of_error {q q' : Sqlite} {held : Bool} {path : String} {files : Files Row}
    {status : Status} {s : State Row} (h : ({ files } : State Row).openAt q path = (status, s))
    (herr : status.isError = true) :
    onStart q q' held path files = (s.rename held path (path ++ ".corrupt")).openAt q' path := by
  unfold onStart
  rw [h]
  exact if_pos herr

theorem intact_kept_iff {files : Files Row} {path : String} {c : Contents Row}
    (hfile : files path = some (.database c)) (hc : c.integrity = "ok") (q q' : Sqlite)
    (held : Bool) :
    Kept path c (onStart q q' held path files).2 ↔
      held = true ∨
        q.fails .openV2 = none ∧ (¬q.Configures ∨ q.Checks ∧ q.Migrates c) := by
  have hat : ({ files } : State Row).fileAt path = .database c := by simp [State.fileAt, hfile]
  have hconf : q.configure (({ files } : State Row).fileAt path) = .ok () ↔ q.Configures := by
    rw [Sqlite.configure_eq_ok_iff]
    exact and_iff_right ⟨c, hat⟩
  have hattach : (({ files } : State Row).attach path).files path = some (.database c) := by
    simp [State.attach, hat]
  obtain ⟨f, ho, h⟩ | ⟨ho, status, hp, h⟩ | ⟨ho, hp, status, hv, h⟩ | ⟨ho, hp, hv, h⟩ :=
    State.openAt_cases q path (s := ({ files } : State Row)) rfl
  · rw [onStart_of_error h (isError_sqliteError f _), kept_reopen_iff rfl rfl hfile (.refl c)]
    simp [ho]
  · -- the handle keeps the file from being renamed, and the object from being opened
    have hno : ¬q.Configures := fun hq => by
      rw [hconf.mpr hq] at hp
      cases hp
    rw [onStart_of_error h (reports_configure q _ status hp)]
    have hrename : (({ files } : State Row).attach path).rename held path (path ++ ".corrupt") =
        ({ files } : State Row).attach path := by
      simp [State.rename, hattach]
    have hagain : (({ files } : State Row).attach path).openAt q' path =
        (Err.invalidState "database already open", ({ files } : State Row).attach path) := by
      simp [State.openAt]
    rw [hrename, hagain]
    simp only [ho, hno, not_false_eq_true, true_or, and_self, or_true, iff_true]
    exact ⟨rfl, c, hattach, .refl c⟩
  · have hno : ¬q.Checks := fun hq => by
      rw [hat, Sqlite.verifyIntegrity_eq_ok_iff.mpr ⟨hq, hc⟩] at hv
      cases hv
    rw [onStart_of_error h (reports_verifyIntegrity q _ status hv),
      kept_reopen_iff (s := (({ files } : State Row).attach path).close) rfl rfl hattach (.refl c)]
    simp [hconf.mp hp, hno]
  · rw [hat, Sqlite.verifyIntegrity_eq_ok_iff] at hv
    have hfileAt : (({ files } : State Row).attach path).fileAt path = .database c := by
      rw [State.fileAt_attach, hat]
    have hmig := State.migrateUnlocked_isError (q := q) hfileAt
    obtain ⟨c', hc', hext, hr, -⟩ := State.migrateUnlocked_extends q hfileAt
    by_cases hm : q.Migrates c
    · have herr := hmig.mpr hm
      simp only [herr, Bool.false_eq_true, ite_false] at h
      simp only [onStart, h, Status.isError_ok, Bool.false_eq_true, ite_false, ho, hv.1, hm,
        and_self, or_true, iff_true]
      exact ⟨hr, c', hc', hext⟩
    · have herr := Bool.of_not_eq_false fun herr => hm (hmig.mp herr)
      simp only [herr, ite_true] at h
      rw [onStart_of_error h herr, kept_reopen_iff (s := State.close _) rfl hr hc' hext]
      simp [hconf.mp hp, hm]

/-- The first start with a newer build's catalogue, while another process has it
open. -/
theorem intact_kept_held :
    Kept "nova.db" { userVersion := 2 }
      (onStart {} {} true "nova.db" fun _ => some (.database { userVersion := 2 } : File Nat)).2 :=
  (intact_kept_iff rfl rfl {} {} true).mpr (.inl rfl)

/-- A catalogue of a newer schema, with a profile in it, is set aside. -/
theorem newer_catalogue_set_aside :
    ¬Kept "nova.db" { userVersion := 2, objects := [("profiles", [7])] }
      (onStart {} {} false "nova.db" (Function.update (fun _ => none) "nova.db"
        (some (.database { userVersion := 2, objects := [("profiles", [7])] } : File Nat)))).2 := by
  rintro ⟨hr, -⟩
  have hrenamed : (onStart {} {} false "nova.db" (Function.update (fun _ => none) "nova.db"
      (some (.database { userVersion := 2, objects := [("profiles", [7])] } : File Nat)))).2.renamed =
      [("nova.db", "nova.db.corrupt")] := by
    rfl
  rw [hrenamed] at hr
  cases hr

end NovaVpn.Database
