import NovaVpn.Framework.Machine
import NovaVpn.Routing.Ledger
import NovaVpn.Routing.Removal
import NovaVpn.Routing.Teardown

/-!
# Recovery after crashes

The service makes a manager, which reads the ledger, and reconciles before it adds
routes. A session of it may end at any point, in the reconciliation as well, and so may
the next. `recovery_restores` says what it all comes to: once a manager's `reconcile`
returns ok, the table is what it was before the first session.

The conditions are those of `NovaVpn.Routing.Ledger` and `NovaVpn.Routing.Teardown`, that
no delete is of another program's row, and that a route is not created without an
interface, which the system refuses. As no save may lose the file while a route is live,
so every manager made then must be able to read it: one that cannot starts empty, and its
`reconcile` returns ok with the routes in the table. Other programs leave the table alone.
-/

namespace NovaVpn.Routing

open NovaVpn.Framework NovaVpn.Net

/-- The system takes no row without an interface, and no other program's row is
deleted. -/
def SystemOk : (call : RouteCall) → routeEnv.Outcome call → RouteWorld → Prop
  | .createIpForwardEntry2 row, o, _ => row.key.interfaceIndex = 0 → o.isSome = true
  | .deleteIpForwardEntry2 row, _, w => ¬ w.Foreign row.key
  | _, _, _ => True

def RestoreOk (call : RouteCall) (o : routeEnv.Outcome call) (w : RouteWorld) : Prop :=
  LedgerOk call o w ∧ TeardownOk call o w ∧ SystemOk call o w

/-- Entries with rows and keys of their own. -/
structure Distinct (entries : List RouteEntry) : Prop where
  accepted : ∀ e ∈ entries, ¬ Refused e
  keys : ∀ e ∈ entries, ∀ e' ∈ entries, routeKey e = routeKey e' → e = e'

structure RestoreInv (start w : RouteWorld) : Prop where
  ledger : LedgerInv w
  teardown : TeardownInv start w
  /-- The rows that are not the manager's were there. -/
  others : ∀ key, w.Foreign key → start.Foreign key
  index : ∀ key, w.Created key → key.interfaceIndex ≠ 0
  file : Distinct w.ledger
  memory : ∀ e ∈ w.owned.entries, ¬ Refused e

variable {start w w' : RouteWorld}

/-! ## The steps -/

theorem OwnedRoutes.distinct {o : OwnedRoutes} (h : ∀ e ∈ o.entries, ¬ Refused e) :
    Distinct o.entries := ⟨h, fun _ he _ he' hkey => eq_of_routeKey he he' hkey⟩

theorem Distinct.of_filed {ledger ledger' : List RouteEntry} {owned : OwnedRoutes}
    {o : RouteWorld.SaveOutcome} (h : Distinct ledger) (hmemory : ∀ e ∈ owned.entries, ¬ Refused e)
    (hf : RouteWorld.Filed o ledger owned.entries ledger') : Distinct ledger' := by
  cases hf with
  | kept => exact h
  | written => exact OwnedRoutes.distinct hmemory
  | lost _ => exact ⟨nofun, nofun⟩

namespace RestoreInv

theorem recordRoute (h : RestoreInv start w) {entry : RouteEntry} (hrow : ¬ Refused entry)
    (o : RouteWorld.SaveOutcome) (hok : RestoreOk (.recordRoute entry) o w) :
    RestoreInv start (w.recordRoute entry o).2 := by
  have hmemory : ∀ e ∈ (w.owned.record entry).entries, ¬ Refused e := by
    intro e he
    rcases OwnedRoutes.mem_of_mem_record he with rfl | he
    · exact hrow
    · exact h.memory e he
  refine ⟨h.ledger.recordRoute entry o hok.1, h.teardown.recordRoute entry o hok.2.1, ?_, ?_,
    h.file.of_filed hmemory (w.filed_recordRoute entry o), ?_⟩
  · simpa only [RouteWorld.Foreign, RouteWorld.originOf, RouteWorld.table_recordRoute] using h.others
  · simpa only [RouteWorld.Created, RouteWorld.originOf, RouteWorld.table_recordRoute] using h.index
  · rwa [RouteWorld.owned_recordRoute]

theorem unrecordRoute (h : RestoreInv start w) (entry : RouteEntry) (o : RouteWorld.SaveOutcome)
    (hok : RestoreOk (.unrecordRoute entry) o w) : RestoreInv start (w.unrecordRoute entry o).2 := by
  have hmemory : ∀ e ∈ (w.owned.unrecord entry).entries, ¬ Refused e :=
    fun e he => h.memory e (OwnedRoutes.mem_of_mem_unrecord he)
  refine ⟨h.ledger.unrecordRoute entry o hok.1, h.teardown.unrecordRoute entry o, ?_, ?_,
    h.file.of_filed hmemory (w.filed_unrecordRoute entry o), ?_⟩
  · simpa only [RouteWorld.Foreign, RouteWorld.originOf, RouteWorld.table_unrecordRoute] using h.others
  · simpa only [RouteWorld.Created, RouteWorld.originOf, RouteWorld.table_unrecordRoute] using h.index
  · rwa [RouteWorld.owned_unrecordRoute]

theorem createIpForwardEntry2 (h : RestoreInv start w) {entry : RouteEntry} {row : ForwardRow}
    (hr : row.key = rowKey entry) (hl : entry ∈ w.ledger) (hm : entry ∈ w.owned.entries)
    (o : Option RouteWorld.CreateFailure) (hok : RestoreOk (.createIpForwardEntry2 row) o w) :
    RestoreInv start (w.createIpForwardEntry2 row o).2 := by
  refine ⟨h.ledger.createIpForwardEntry2 hr hl hm o, h.teardown.createIpForwardEntry2 row o,
    fun key hkey => ?_, fun key hkey => ?_, ?_, ?_⟩
  · rcases w.table_createIpForwardEntry2 row o key with he | ⟨-, -, he⟩ <;>
      rw [RouteWorld.Foreign, RouteWorld.originOf, he] at hkey
    · exact h.others key hkey
    · cases hkey
  · rcases w.table_createIpForwardEntry2 row o key with he | ⟨rfl, hnone, he⟩ <;>
      rw [RouteWorld.Created, RouteWorld.originOf, he] at hkey
    · exact h.index key hkey
    · intro hzero
      obtain ⟨code, rfl⟩ := Option.isSome_iff_exists.mp (hok.2.2 hzero)
      have hsame : w.table row.key = some ⟨row.metric, .nova⟩ := he
      rw [hnone] at hsame
      cases hsame
  · rw [RouteWorld.ledger_createIpForwardEntry2]
    exact h.file
  · rw [RouteWorld.owned_createIpForwardEntry2]
    exact h.memory

theorem deleteIpForwardEntry2 (h : RestoreInv start w) {row : ForwardRow}
    (o : Option RouteWorld.DeleteFailure) (hok : RestoreOk (.deleteIpForwardEntry2 row) o w) :
    RestoreInv start (w.deleteIpForwardEntry2 row o).2 := by
  have hsub : ∀ key origin, (w.deleteIpForwardEntry2 row o).2.originOf key = some origin →
      w.originOf key = some origin := by
    intro key origin horigin
    rcases w.table_deleteIpForwardEntry2 row o key with he | ⟨-, he⟩ <;>
      rw [RouteWorld.originOf, he] at horigin
    · exact horigin
    · cases horigin
  refine ⟨h.ledger.deleteIpForwardEntry2 row o,
    h.teardown.deleteIpForwardEntry2 (fun hstart => hok.2.2 (h.teardown.kept.foreign hstart)) o,
    fun key hkey => h.others key (hsub key _ hkey), fun key hkey => h.index key (hsub key _ hkey), ?_, ?_⟩
  · rw [RouteWorld.ledger_deleteIpForwardEntry2]
    exact h.file
  · rw [RouteWorld.owned_deleteIpForwardEntry2]
    exact h.memory

end RestoreInv

/-! ## The operations -/

theorem not_refused {entry : RouteEntry} {row : ForwardRow} (h : toRow entry = .ok row) :
    ¬ Refused entry := by
  rintro ⟨status, herror⟩
  rw [h] at herror
  cases herror

theorem addRoute_restore (entry : RouteEntry) (w : RouteWorld) (h : RestoreInv start w) :
    Keeps RestoreOk (RestoreInv start) (RouteManager.addRoute entry) w := by
  unfold RouteManager.addRoute
  split
  · exact .ret h
  next row hr =>
    refine Keeps.call h fun o hok => ?_
    have hrec := h.recordRoute (not_refused hr) o hok
    split
    · exact .ret hrec
    next hs =>
      have hl : entry ∈ (w.recordRoute entry o).2.ledger :=
        RouteWorld.mem_ledger_recordRoute (by simpa using hs)
      have hm : entry ∈ (w.recordRoute entry o).2.owned.entries := by
        rw [RouteWorld.owned_recordRoute]
        exact w.owned.mem_record_self entry
      refine Keeps.call hrec fun oc hoc => ?_
      have hcre := hrec.createIpForwardEntry2 (toRow_key hr) hl hm oc hoc
      split
      · exact Keeps.call hcre fun ou hou => .ret (hcre.unrecordRoute entry ou hou)
      · exact .ret hcre

/-- A removal that succeeds leaves no row of the entry, and none comes by it. -/
structure Gone (w : RouteWorld) (entries : List RouteEntry) (status : Status) (w' : RouteWorld) :
    Prop where
  sub : ∀ key, w'.Created key → w.Created key
  gone : status.isOk = true → ∀ e ∈ entries, ¬ w'.Created (rowKey e)

theorem table_deleted (w : RouteWorld) (row : ForwardRow) :
    (w.deleteIpForwardEntry2 row none).2.table row.key = none := by
  unfold RouteWorld.deleteIpForwardEntry2
  dsimp only
  split
  · exact Function.update_self ..
  next hnone => exact Option.not_isSome_iff_eq_none.mp hnone

theorem removeRoute_restore (entry : RouteEntry) (w : RouteWorld) (h : RestoreInv start w) :
    Prog.Safe routeEnv RestoreOk (RestoreInv start)
      (fun status w' => ¬ Refused entry → Gone w [entry] status w') (RouteManager.removeRoute entry) w := by
  unfold RouteManager.removeRoute
  split
  next status hrow => exact ⟨h, fun hnot => absurd ⟨status, hrow⟩ hnot⟩
  next row hrow =>
    refine Prog.Safe.step h fun o hok => ?_
    have hdel := h.deleteIpForwardEntry2 o hok
    have hsub : ∀ key, (w.deleteIpForwardEntry2 row o).2.Created key → w.Created key := by
      intro key hkey
      rcases w.table_deleteIpForwardEntry2 row o key with he | ⟨-, he⟩ <;>
        rw [RouteWorld.Created, RouteWorld.originOf, he] at hkey
      · exact hkey
      · cases hkey
    split
    next hcode =>
      refine ⟨hdel, fun _ => ⟨hsub, fun hstatus => ?_⟩⟩
      have herror := Win.isError_fromWin32 hcode.1
        ("DeleteIpForwardEntry2(" ++ entry.destination.toString ++ ")")
      rw [Status.isError_eq_not_isOk, Bool.not_eq_true'] at herror
      rw [herror] at hstatus
      cases hstatus
    next hcode =>
      obtain rfl : o = none := by
        rw [← Option.not_isSome_iff_eq_none, ← deleteIpForwardEntry2_failed w row o]
        exact hcode
      refine Prog.Safe.step hdel fun ou hou => ?_
      have hsame : ∀ key, ((w.deleteIpForwardEntry2 row none).2.unrecordRoute entry ou).2.Created key ↔
          (w.deleteIpForwardEntry2 row none).2.Created key := by
        intro key
        rw [RouteWorld.Created, RouteWorld.originOf, RouteWorld.table_unrecordRoute]
        rfl
      refine ⟨hdel.unrecordRoute entry ou hou, fun _ =>
        ⟨fun key hkey => hsub key ((hsame key).mp hkey), fun _ e he hkey => ?_⟩⟩
      rw [List.mem_singleton.mp he, hsame, RouteWorld.Created, RouteWorld.originOf,
        ← toRow_key hrow, table_deleted] at hkey
      cases hkey

theorem removeEach_restore (entries : List RouteEntry) (first : Status) (w : RouteWorld)
    (h : RestoreInv start w) (hrows : ∀ e ∈ entries, ¬ Refused e) :
    Prog.Safe routeEnv RestoreOk (RestoreInv start)
      (fun status w' => (status.isOk = true → first.isOk = true) ∧ Gone w entries status w')
      (RouteManager.removeEach first entries) w := by
  induction entries generalizing first w with
  | nil => exact ⟨h, id, fun _ => id, fun _ _ he => by cases he⟩
  | cons entry entries ih =>
    rw [List.forall_mem_cons] at hrows
    refine Prog.Safe.bind (removeRoute_restore entry w h) fun status w₁ h₁ hone => ?_
    have hone := hone hrows.1
    refine (ih _ w₁ h₁ hrows.2).mono fun last w₂ _ hrest => ?_
    have hboth : last.isOk = true → first.isOk = true ∧ status.isOk = true := by
      intro hlast
      have hkept := isError_firstFailure first status
      rw [Status.isError_eq_not_isOk, hrest.1 hlast, first.isError_eq_not_isOk,
        status.isError_eq_not_isOk] at hkept
      simpa using hkept
    refine ⟨fun hlast => (hboth hlast).1, fun key hkey => hone.sub key (hrest.2.sub key hkey),
      fun hlast e he hkey => ?_⟩
    rcases List.mem_cons.mp he with rfl | he
    · exact hone.gone (hboth hlast).2 e (List.mem_singleton_self e) (hrest.2.sub _ hkey)
    · exact hrest.2.gone hlast e he hkey

theorem removeRoute_keeps (entry : RouteEntry) (w : RouteWorld) (h : RestoreInv start w) :
    Keeps RestoreOk (RestoreInv start) (RouteManager.removeRoute entry) w :=
  (removeRoute_restore entry w h).mono fun _ _ _ _ => trivial

theorem keptByAdding_restore : KeptByAdding RestoreOk (RestoreInv start) where
  addRoute := addRoute_restore
  underlay _ _ h := ⟨⟨h.ledger.disk, h.ledger.memory⟩,
    ⟨h.teardown.kept, h.teardown.memory, h.teardown.disk⟩, h.others, h.index, h.file, h.memory⟩
  tunnels _ _ h := ⟨⟨h.ledger.disk, h.ledger.memory⟩,
    ⟨h.teardown.kept, h.teardown.memory, h.teardown.disk⟩, h.others, h.index, h.file, h.memory⟩

theorem reconcile_restore (h : RestoreInv start w) :
    Keeps RestoreOk (RestoreInv start) RouteManager.reconcile w :=
  reconcile_keeps (P := fun _ => True) (fun entry w _ => removeRoute_keeps entry w)
    (fun _ _ => trivial) h

theorem op_restore (op : RouteOp) (h : RestoreInv start w) :
    Keeps RestoreOk (RestoreInv start) op.run w := by
  have hrem : ∀ entry w, True → RestoreInv start w →
      Keeps RestoreOk (RestoreInv start) (RouteManager.removeRoute entry) w :=
    fun entry w _ => removeRoute_keeps entry w
  cases op with
  | add op => exact keptByAdding_restore.run op h
  | removeRoute entry => exact removeRoute_keeps entry w h
  | removeAllOwnedRoutes => exact removeAllOwnedRoutes_keeps hrem (fun _ _ => trivial) h
  | reconcile => exact reconcile_restore h

theorem runOps_restore (ops : List RouteOp) (h : RestoreInv start w) :
    Keeps RestoreOk (RestoreInv start) (runOps ops) w := by
  induction ops generalizing w with
  | nil => exact .ret h
  | cons op ops ih => exact Keeps.bind (op_restore op h) fun _ _ h => ih h

/-- A `reconcile` that returns ok leaves no row of the manager. -/
theorem reconcile_gone (h : RestoreInv start w) :
    Prog.Safe routeEnv RestoreOk (RestoreInv start)
      (fun status w' => status.isOk = true → ∀ key, ¬ w'.Created key) RouteManager.reconcile w := by
  refine Prog.Safe.step h fun _ _ => ?_
  split
  next hempty =>
    refine ⟨h, fun _ key hkey => ?_⟩
    obtain ⟨e, he, -⟩ := h.ledger.memory key hkey
    have hnil : w.owned.entries = [] := List.isEmpty_iff.mp hempty
    rw [hnil] at he
    cases he
  next =>
    refine (removeEach_restore _ Status.ok w h h.memory).mono fun status w' _ hdone hstatus key hkey => ?_
    obtain ⟨e, he, rfl⟩ := h.ledger.memory key (hdone.2.sub key hkey)
    exact hdone.2.gone hstatus e he hkey

/-! ## Sessions -/

/-- An entry that shares its key with no other is read as it was written. -/
theorem mem_foldl_record {ledger : List RouteEntry} {o : OwnedRoutes} {e : RouteEntry}
    (h : e ∈ ledger ∨ e ∈ o.entries) (hkeys : ∀ e' ∈ ledger, routeKey e = routeKey e' → e = e') :
    e ∈ (ledger.foldl OwnedRoutes.record o).entries := by
  induction ledger generalizing o with
  | nil => exact h.resolve_left nofun
  | cons entry ledger ih =>
    rw [List.forall_mem_cons] at hkeys
    refine ih ?_ hkeys.2
    by_cases hkey : routeKey e = routeKey entry
    · rw [hkeys.1 hkey]
      exact .inr (o.mem_record_self entry)
    · rcases h with h | h
      · rcases List.mem_cons.mp h with rfl | h
        · exact absurd rfl hkey
        · exact .inl h
      · exact .inr (OwnedRoutes.mem_record_of_ne h hkey)

/-- What the next manager finds. -/
theorem RestoreInv.restart (h : RestoreInv start w) {readable : Bool}
    (hread : readable = false → Fresh w) : RestoreInv start (w.restart readable) := by
  refine ⟨⟨h.ledger.disk, fun key hkey => ?_⟩, h.teardown.restart readable, h.others, h.index, h.file,
    fun e he => h.file.accepted e (RouteWorld.mem_of_mem_restart he)⟩
  cases readable with
  | false => exact absurd hkey (hread rfl key)
  | true =>
    obtain ⟨e, he, rfl⟩ := h.ledger.disk key hkey
    refine ⟨e, mem_foldl_record (.inl (List.mem_filter.mpr ⟨he, ?_⟩)) fun e' he' hkey' => ?_, rfl⟩
    · exact decide_eq_true (h.index _ hkey)
    · exact h.file.keys e he e' (List.mem_of_mem_filter he') hkey'

/-- The manager of a session reconciles and then does what it is asked. -/
def boot (ops : List RouteOp) : RouteProg Unit := do
  let _ ← RouteManager.reconcile
  runOps ops

/-- The manager can read the ledger file, or no route of an earlier one is live. -/
def RouteWorld.Reads (w : RouteWorld) (readable : Bool) : Prop := readable = false → Fresh w

theorem reads_readable (w : RouteWorld) : w.Reads true := fun h => Bool.noConfusion h

/-- A session, and how far it comes. -/
structure RouteSession where
  readable : Bool := true
  ops : List RouteOp
  turns : List routeEnv.Turn

namespace RouteSession

/-- What the session leaves. -/
def run (w : RouteWorld) (session : RouteSession) : Option RouteWorld :=
  some (Prog.exec routeEnv (boot session.ops) (w.restart session.readable) session.turns).2

structure Ok (w : RouteWorld) (session : RouteSession) : Prop where
  reads : w.Reads session.readable
  meets : Prog.Meets routeEnv RestoreOk (boot session.ops) (w.restart session.readable) session.turns

end RouteSession

theorem restoreInv_start (hfresh : Fresh start) (hledger : start.ledger = []) (readable : Bool) :
    RestoreInv start (start.restart readable) where
  ledger := ⟨fun key hkey => absurd hkey (hfresh key), fun key hkey => absurd hkey (hfresh key)⟩
  teardown := by
    refine ⟨fun _ _ => rfl, fun e he => ?_, fun e he => ?_⟩
    · have hmem := RouteWorld.mem_of_mem_restart he
      rw [hledger] at hmem
      cases hmem
    · rw [RouteWorld.restart, hledger] at he
      cases he
  others _ hkey := hkey
  index key hkey := absurd hkey (hfresh key)
  file := by
    rw [RouteWorld.restart, hledger]
    exact ⟨nofun, nofun⟩
  memory e he := by
    have hmem := RouteWorld.mem_of_mem_restart he
    rw [hledger] at hmem
    cases hmem

/-- What a session starts from, and what it leaves for the next. -/
theorem session_restore (h : ∀ readable, w.Reads readable → RestoreInv start (w.restart readable))
    {session : RouteSession} (hok : session.Ok w) (hs : session.run w = some w') {readable : Bool}
    (hread : w'.Reads readable) : RestoreInv start (w'.restart readable) := by
  cases hs
  have hinv := h session.readable hok.reads
  have hrun : Keeps RestoreOk (RestoreInv start) (boot session.ops) (w.restart session.readable) :=
    Keeps.bind (reconcile_restore hinv) fun _ _ h => runOps_restore session.ops h
  exact (hrun.exec hok.meets).restart hread

/-- A row that is not the manager's is another program's. -/
theorem foreign_of_row {key : RowKey} (h : ¬ w.Created key) (hrow : w.table key ≠ none) :
    w.Foreign key := by
  obtain ⟨row, hrow⟩ := Option.ne_none_iff_exists'.mp hrow
  rw [RouteWorld.Created, RouteWorld.originOf, hrow] at h
  rw [RouteWorld.Foreign, RouteWorld.originOf, hrow]
  cases horigin : row.origin with
  | foreign => exact congrArg some horigin
  | nova => exact absurd (congrArg some horigin) h

/-- After any sessions, each of which ended somewhere, in its own reconciliation or in what
it was asked to do: once a new manager's `reconcile` returns ok, the route table is what it
was before the first of them. -/
theorem recovery_restores {sessions : List RouteSession} {turns : List routeEnv.Turn}
    {status : Status} {readable : Bool} (hfresh : Fresh start) (hledger : start.ledger = [])
    (hok : RunMeets RouteSession.run RouteSession.Ok start sessions)
    (hr : run RouteSession.run start sessions = some w) (hread : w.Reads readable)
    (hmeets : Prog.Meets routeEnv RestoreOk RouteManager.reconcile (w.restart readable) turns)
    (hdone : Prog.exec routeEnv RouteManager.reconcile (w.restart readable) turns = (.ret status, w'))
    (hstatus : status.isOk = true) : w'.table = start.table := by
  have h : RestoreInv start (w.restart readable) :=
    run_invariant (I := fun w => ∀ readable, w.Reads readable → RestoreInv start (w.restart readable))
      (fun _ _ _ h hok hs _ hread => session_restore h hok hs hread)
      (fun readable _ => restoreInv_start hfresh hledger readable) hok hr readable hread
  have hinv : RestoreInv start w' := by
    have hexec := (reconcile_restore h).exec hmeets
    rwa [hdone] at hexec
  have hgone := (reconcile_gone h).post hmeets hdone hstatus
  funext key
  have hnone : w'.table key ≠ none → start.Foreign key :=
    fun hrow => hinv.others key (foreign_of_row (hgone key) hrow)
  have hstart : start.table key ≠ none → start.Foreign key := foreign_of_row (hfresh key)
  by_cases hforeign : start.Foreign key
  · exact hinv.teardown.kept key hforeign
  · rw [not_ne_iff.mp fun hrow => hforeign (hnone hrow), not_ne_iff.mp fun hrow => hforeign (hstart hrow)]

/-- A session that ends with its route in the table, and one that ends between the delete
and the save of the ledger. -/
def crashes : List RouteSession :=
  [{ ops := [.add (.addRoute tunnelRoute)], turns := [quietTurn, quietTurn, quietTurn] },
    { ops := [], turns := [quietTurn, quietTurn] }]

/-- What the first of them leaves. -/
def afterCrash : RouteWorld :=
  (Prog.exec routeEnv (boot [.add (.addRoute tunnelRoute)])
    ((RouteWorld.ofForeign [rowKey officeRoute]).restart true) [quietTurn, quietTurn, quietTurn]).2

def afterCrashes : RouteWorld :=
  (Prog.exec routeEnv (boot []) (afterCrash.restart true) [quietTurn, quietTurn]).2

theorem meets_crashes :
    RunMeets RouteSession.run RouteSession.Ok (.ofForeign [rowKey officeRoute]) crashes := by
  have hfresh : Fresh (.ofForeign [rowKey officeRoute]) := fresh_ofForeign _
  have hrecord : ¬ RouteWorld.Foreign (.ofForeign [rowKey officeRoute]) (rowKey tunnelRoute) := by
    decide
  have hdelete : ¬ RouteWorld.Foreign (afterCrash.restart true) (rowKey tunnelRoute) := by decide
  refine ⟨⟨reads_readable _, ?_⟩, fun w hw => ?_⟩
  · refine ⟨⟨trivial, trivial, trivial⟩,
      ⟨⟨fun key hkey => absurd hkey (hfresh key), False.elim⟩, hrecord, trivial⟩,
      ⟨trivial, trivial, fun hzero => ?_⟩, trivial⟩
    exact absurd hzero (by decide)
  · obtain rfl : afterCrash = w := Option.some.inj hw
    exact ⟨⟨reads_readable _, ⟨trivial, trivial, trivial⟩, ⟨trivial, trivial, hdelete⟩, trivial⟩, fun _ _ => trivial⟩

/-- The route of a session that crashed is in the table, and the reconciliation of the
third manager has taken it out again. -/
theorem recovery_restores_office : afterCrash.Created (rowKey tunnelRoute) ∧
    ∃ w', Prog.exec routeEnv RouteManager.reconcile (afterCrashes.restart true)
        [quietTurn, quietTurn, quietTurn] = (.ret Status.ok, w') ∧
      w'.table = (RouteWorld.ofForeign [rowKey officeRoute]).table := by
  refine ⟨by decide, _, rfl, ?_⟩
  -- Only the tunnel's row was ever the manager's, and it is deleted.
  have hcrash : afterCrash.table = Function.update
      (RouteWorld.ofForeign [rowKey officeRoute]).table (rowKey tunnelRoute) (some ⟨0, .nova⟩) := rfl
  have hnone : ∀ key, ¬ afterCrashes.Created key := by
    intro key hkey
    have htable : afterCrashes.table = Function.update afterCrash.table (rowKey tunnelRoute) none := rfl
    rw [RouteWorld.Created, RouteWorld.originOf, htable, hcrash, Function.update_idem] at hkey
    by_cases heq : key = rowKey tunnelRoute
    · rw [heq, Function.update_self] at hkey
      cases hkey
    · rw [Function.update_of_ne heq] at hkey
      exact fresh_ofForeign _ key hkey
  have hdelete : ¬ RouteWorld.Foreign (afterCrashes.restart true) (rowKey tunnelRoute) := by decide
  refine @recovery_restores (.ofForeign [rowKey officeRoute]) afterCrashes _ crashes
    [quietTurn, quietTurn, quietTurn] Status.ok true (fresh_ofForeign _) rfl meets_crashes rfl (reads_readable _) ?_
    rfl rfl
  exact ⟨⟨trivial, trivial, trivial⟩, ⟨trivial, trivial, hdelete⟩,
    ⟨⟨fun key hkey => absurd hkey (hnone key), False.elim⟩, trivial, trivial⟩, trivial⟩

end NovaVpn.Routing
