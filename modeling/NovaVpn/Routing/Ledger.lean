import NovaVpn.Routing.RouteManager

/-!
# The ledger lists every route the manager has created

`LedgerComplete`: every live row that a create of the manager inserted is in
the ledger file. The manager records an entry before it creates the row, so
the file is complete at every point of a run as long as no ledger entry of a
live row is replaced or dropped and no save loses the file. The key of an entry
has no next hop in it, and an entry is dropped again when its create fails, so
the first two can happen (`ledger_loses_next_hop`), and a save that fails may
do the third. `LedgerOk` is the condition on a step under which none does, and
`ledger_complete` the result over whole runs.

The invariant (`LedgerInv`) is that the file and the memory are both
complete: the memory is what the next save writes.
-/

namespace NovaVpn.Routing

open NovaVpn.Framework NovaVpn.Net

/-- A create of the manager inserted this row, and it is live. -/
def RouteWorld.Created (w : RouteWorld) (key : RowKey) : Prop := w.originOf key = some .nova

instance (w : RouteWorld) (key : RowKey) : Decidable (w.Created key) :=
  inferInstanceAs (Decidable (_ = _))

/-- Every live row the manager created is in the ledger file, with its own
destination, interface and next hop. -/
def LedgerComplete (w : RouteWorld) : Prop :=
  ∀ key, w.Created key → ∃ e ∈ w.ledger, rowKey e = key

/-- No row that the manager created is live. -/
def Fresh (w : RouteWorld) : Prop := ∀ key, ¬ w.Created key

/-- The condition on the steps that change the ledger: an entry replaces that
of a live route only if it is for the same row, an entry is dropped only if no
live route has its key, and the file is lost only if no route is live. -/
def LedgerOk : (call : RouteCall) → routeEnv.Outcome call → RouteWorld → Prop
  | .recordRoute entry, o, w =>
    (∀ key, w.Created key → key.routeKey = routeKey entry → key = rowKey entry) ∧
      (o.Loses → Fresh w)
  | .unrecordRoute entry, o, w =>
    (∀ key, w.Created key → key.routeKey ≠ routeKey entry) ∧ (o.Loses → Fresh w)
  | _, _, _ => True

structure LedgerInv (w : RouteWorld) : Prop where
  disk : LedgerComplete w
  memory : ∀ key, w.Created key → ∃ e ∈ w.owned.entries, rowKey e = key

/-! ## The steps -/

namespace LedgerInv

variable {w : RouteWorld}

/-- A ledger that lists the memory's entries is as complete as the memory, and
one that is lost as long as no route is live. -/
theorem of_filed {w' : RouteWorld} {o : RouteWorld.SaveOutcome} (hl : LedgerComplete w)
    (hc : ∀ key, w'.Created key → w.Created key)
    (hm : ∀ key, w'.Created key → ∃ e ∈ w'.owned.entries, rowKey e = key)
    (hf : RouteWorld.Filed o w.ledger w'.owned.entries w'.ledger) (ho : o.Loses → Fresh w) :
    LedgerInv w' := by
  refine ⟨fun key hk => ?_, hm⟩
  generalize w'.ledger = ledger at hf
  cases hf with
  | kept => exact hl key (hc key hk)
  | written => exact hm key hk
  | lost hlost => exact absurd (hc key hk) (ho hlost key)

theorem recordRoute (h : LedgerInv w) (entry : RouteEntry) (o : RouteWorld.SaveOutcome)
    (hok : LedgerOk (.recordRoute entry) o w) : LedgerInv (w.recordRoute entry o).2 := by
  have hc : ∀ key, (w.recordRoute entry o).2.Created key → w.Created key :=
    fun key hk => by simpa [RouteWorld.Created, RouteWorld.originOf] using hk
  refine of_filed h.disk hc (fun key hk => ?_) (by simpa using w.filed_recordRoute entry o) hok.2
  obtain ⟨e, he, rfl⟩ := h.memory key (hc key hk)
  simp only [RouteWorld.owned_recordRoute]
  by_cases hkey : routeKey e = routeKey entry
  · exact ⟨entry, w.owned.mem_record_self entry, (hok.1 _ (hc _ hk) hkey).symm⟩
  · exact ⟨e, OwnedRoutes.mem_record_of_ne he hkey, rfl⟩

theorem unrecordRoute (h : LedgerInv w) (entry : RouteEntry) (o : RouteWorld.SaveOutcome)
    (hok : LedgerOk (.unrecordRoute entry) o w) : LedgerInv (w.unrecordRoute entry o).2 := by
  have hc : ∀ key, (w.unrecordRoute entry o).2.Created key → w.Created key :=
    fun key hk => by simpa [RouteWorld.Created, RouteWorld.originOf] using hk
  refine of_filed h.disk hc (fun key hk => ?_) (by simpa using w.filed_unrecordRoute entry o) hok.2
  obtain ⟨e, he, hkey⟩ := h.memory key (hc key hk)
  have hne : routeKey e ≠ routeKey entry := by
    rw [← routeKey_rowKey, hkey]
    exact hok.1 key (hc key hk)
  rw [RouteWorld.owned_unrecordRoute]
  exact ⟨e, OwnedRoutes.mem_unrecord_of_ne he hne, hkey⟩

/-- Creating the row of an entry that is recorded in the file and in
memory. -/
theorem createIpForwardEntry2 (h : LedgerInv w) {entry : RouteEntry} {row : ForwardRow}
    (hr : row.key = rowKey entry) (hl : entry ∈ w.ledger) (hm : entry ∈ w.owned.entries)
    (o : Option RouteWorld.CreateFailure) : LedgerInv (w.createIpForwardEntry2 row o).2 := by
  have hc : ∀ key, (w.createIpForwardEntry2 row o).2.Created key → w.Created key ∨ key = rowKey entry := by
    intro key hk
    rcases w.table_createIpForwardEntry2 row o key with he | ⟨rfl, -, -⟩
    · rw [RouteWorld.Created, RouteWorld.originOf, he] at hk
      exact .inl hk
    · exact .inr hr
  constructor
  · intro key hk
    rw [RouteWorld.ledger_createIpForwardEntry2]
    rcases hc key hk with hk | rfl
    · exact h.disk key hk
    · exact ⟨entry, hl, rfl⟩
  · intro key hk
    rw [RouteWorld.owned_createIpForwardEntry2]
    rcases hc key hk with hk | rfl
    · exact h.memory key hk
    · exact ⟨entry, hm, rfl⟩

theorem deleteIpForwardEntry2 (h : LedgerInv w) (row : ForwardRow)
    (o : Option RouteWorld.DeleteFailure) : LedgerInv (w.deleteIpForwardEntry2 row o).2 := by
  have hc : ∀ key, (w.deleteIpForwardEntry2 row o).2.Created key → w.Created key := by
    intro key hk
    rw [RouteWorld.Created, RouteWorld.originOf] at hk
    rcases w.table_deleteIpForwardEntry2 row o key with he | ⟨-, he⟩
    · rw [he] at hk
      exact hk
    · rw [he] at hk
      cases hk
  constructor
  · intro key hk
    rw [RouteWorld.ledger_deleteIpForwardEntry2]
    exact h.disk key (hc key hk)
  · intro key hk
    rw [RouteWorld.owned_deleteIpForwardEntry2]
    exact h.memory key (hc key hk)

end LedgerInv

/-! ## The operations -/

theorem addRoute_ledger (entry : RouteEntry) (w : RouteWorld) (h : LedgerInv w) :
    Keeps LedgerOk LedgerInv (RouteManager.addRoute entry) w := by
  unfold RouteManager.addRoute
  split
  · exact .ret h
  · rename_i row hr
    refine Keeps.call h fun o hok => ?_
    have hrec := h.recordRoute entry o hok
    split
    · exact .ret hrec
    · rename_i hs
      have hl : entry ∈ (w.recordRoute entry o).2.ledger :=
        RouteWorld.mem_ledger_recordRoute (by simpa using hs)
      have hm : entry ∈ (w.recordRoute entry o).2.owned.entries := by
        rw [RouteWorld.owned_recordRoute]
        exact w.owned.mem_record_self entry
      refine Keeps.call hrec fun oc _ => ?_
      have hcre := hrec.createIpForwardEntry2 (toRow_key hr) hl hm oc
      split
      · exact Keeps.call hcre fun ou hou => .ret (hcre.unrecordRoute entry ou hou)
      · exact .ret hcre

theorem removeRoute_ledger (entry : RouteEntry) (w : RouteWorld) (h : LedgerInv w) :
    Keeps LedgerOk LedgerInv (RouteManager.removeRoute entry) w := by
  unfold RouteManager.removeRoute
  split
  · exact .ret h
  · rename_i row hr
    refine Keeps.call h fun o _ => ?_
    have hdel := h.deleteIpForwardEntry2 row o
    split
    · exact .ret hdel
    · exact Keeps.call (f := .ret) hdel fun ou hou => .ret (hdel.unrecordRoute entry ou hou)

theorem keptByAdding_ledger : KeptByAdding LedgerOk LedgerInv where
  addRoute := addRoute_ledger
  underlay _ _ h := ⟨h.disk, h.memory⟩
  tunnels _ _ h := ⟨h.disk, h.memory⟩

theorem op_ledger (op : RouteOp) {w : RouteWorld} (h : LedgerInv w) :
    Keeps LedgerOk LedgerInv op.run w := by
  have hrem : ∀ entry w, True → LedgerInv w →
      Keeps LedgerOk LedgerInv (RouteManager.removeRoute entry) w :=
    fun entry w _ => removeRoute_ledger entry w
  cases op with
  | add op => exact keptByAdding_ledger.run op h
  | removeRoute entry => exact removeRoute_ledger entry w h
  | removeAllOwnedRoutes => exact removeAllOwnedRoutes_keeps hrem (fun _ _ => trivial) h
  | reconcile => exact reconcile_keeps hrem (fun _ _ => trivial) h

theorem runOps_ledger (ops : List RouteOp) {w : RouteWorld} (h : LedgerInv w) :
    Keeps LedgerOk LedgerInv (runOps ops) w := by
  induction ops generalizing w with
  | nil => exact .ret h
  | cons op ops ih => exact Keeps.bind (op_ledger op h) fun _ _ h => ih h

/-- Over every sequence of operations, with any outcome of every call: at
every point of a run whose ledger steps meet `LedgerOk`, the ledger file lists
every live row the manager created. -/
theorem ledger_complete (w : RouteWorld) (ops : List RouteOp) (ts : List routeEnv.Turn)
    (hw : Fresh w) (hok : Prog.Meets routeEnv LedgerOk (runOps ops) w ts) :
    LedgerComplete (Prog.exec routeEnv (runOps ops) w ts).2 := by
  have hinv : LedgerInv w := ⟨fun key hk => absurd hk (hw key), fun key hk => absurd hk (hw key)⟩
  exact ((runOps_ledger ops hinv).exec hok).disk

theorem fresh_ofForeign (rows : List RowKey) : Fresh (.ofForeign rows) := by
  intro key hk
  simp only [RouteWorld.Created, RouteWorld.originOf, RouteWorld.ofForeign] at hk
  split at hk <;> simp at hk

/-- 10.0.0.0/8 over interface 7, by one of two gateways. -/
def lanRoute (gateway : Byte) : RouteEntry where
  destination := ⟨.fromV4 10 0 0 0, 8, by decide, by decide⟩
  nextHop := some (.fromV4 10 0 0 gateway)
  interfaceIndex := 7

/-- One route added, and the ledger lists it. -/
theorem ledger_complete_one :
    LedgerComplete (Prog.exec routeEnv (runOps [.add (.addRoute (lanRoute 1))]) (.ofForeign [])
      [quietTurn, quietTurn]).2 ∧
    (Prog.exec routeEnv (runOps [.add (.addRoute (lanRoute 1))]) (.ofForeign [])
      [quietTurn, quietTurn]).2.Created (rowKey (lanRoute 1)) := by
  have hrecord : LedgerOk (.recordRoute (lanRoute 1)) .saved (.ofForeign []) :=
    ⟨fun key hk => absurd hk (fresh_ofForeign [] key), False.elim⟩
  exact ⟨ledger_complete _ _ _ (fresh_ofForeign []) ⟨hrecord, trivial, trivial⟩, by decide⟩

/-- Two routes to one network over one interface, by different gateways: both
rows are created, and the ledger keeps the second alone. -/
theorem ledger_loses_next_hop :
    ¬ ∀ (w : RouteWorld) (ops : List RouteOp) (ts : List routeEnv.Turn), Fresh w →
      LedgerComplete (Prog.exec routeEnv (runOps ops) w ts).2 := by
  intro h
  have hlost := h (.ofForeign []) [.add (.addRoute (lanRoute 1)), .add (.addRoute (lanRoute 2))]
    [quietTurn, quietTurn, quietTurn, quietTurn] (fresh_ofForeign []) (rowKey (lanRoute 1))
    (by decide)
  revert hlost
  decide

/-- The turn at which a save takes the file away, and the other calls succeed. -/
def losingTurn : routeEnv.Turn
  | .recordRoute _ | .unrecordRoute _ => .lost ⟨Err.make .ioError "ReplaceFile", rfl⟩
  | call => quietTurn call

-- The save for a second route loses the file, and the row of the first is in no ledger.
example :
    let w := (Prog.exec routeEnv
      (runOps [.add (.addRoute (lanRoute 1)), .add (.addRoute { lanRoute 1 with interfaceIndex := 8 })])
      (.ofForeign []) [quietTurn, quietTurn, losingTurn]).2
    w.Created (rowKey (lanRoute 1)) ∧ w.ledger = [] := by decide

end NovaVpn.Routing
