import NovaVpn.Routing.RouteManager

/-!
# Teardown leaves other programs' routes alone

`ForeignKept`: every row another program had in the table at the start is
there unchanged. Adding never touches such a row, and teardown deletes the
rows of the recorded entries, so the rows are kept as long as none of them is
recorded. `addRoute` records an entry before it knows who made the row, and
takes "already exists" for success, so one can be (`teardown_deletes_foreign`).
`TeardownOk` is the condition under which none is, and `teardown_keeps_foreign`
the result: for `removeAllOwnedRoutes` at every point, and for a new manager's
`reconcile` after a crash at any point.
-/

namespace NovaVpn.Routing

open NovaVpn.Framework NovaVpn.Net

/-- Another program made this row, and it is live. -/
def RouteWorld.Foreign (w : RouteWorld) (key : RowKey) : Prop := w.originOf key = some .foreign

instance (w : RouteWorld) (key : RowKey) : Decidable (w.Foreign key) :=
  inferInstanceAs (Decidable (_ = _))

/-- The rows other programs had in `start` are in `w`, unchanged. -/
def ForeignKept (start w : RouteWorld) : Prop :=
  ∀ key, start.Foreign key → w.table key = start.table key

/-- No entry is for the row of another program. -/
def NoneForeign (w : RouteWorld) (entries : List RouteEntry) : Prop :=
  ∀ e ∈ entries, ¬ w.Foreign (rowKey e)

/-- The condition on recording: the row of the entry is not in the table as
another program's. -/
def TeardownOk : (call : RouteCall) → routeEnv.Outcome call → RouteWorld → Prop
  | .recordRoute entry, _, w => ¬ w.Foreign (rowKey entry)
  | _, _, _ => True

structure TeardownInv (start w : RouteWorld) : Prop where
  kept : ForeignKept start w
  memory : NoneForeign start w.owned.entries
  disk : NoneForeign start w.ledger

/-! ## The steps -/

theorem ForeignKept.foreign {start w : RouteWorld} (h : ForeignKept start w) {key : RowKey}
    (hk : start.Foreign key) : w.Foreign key := by
  rw [RouteWorld.Foreign, RouteWorld.originOf, h key hk]
  exact hk

theorem ForeignKept.isSome {start w : RouteWorld} (h : ForeignKept start w) {key : RowKey}
    (hk : start.Foreign key) : w.table key ≠ none := by
  intro hn
  have hf := h.foreign hk
  rw [RouteWorld.Foreign, RouteWorld.originOf, hn] at hf
  cases hf

theorem NoneForeign.record {start : RouteWorld} {o : OwnedRoutes} (h : NoneForeign start o.entries)
    {entry : RouteEntry} (he : ¬ start.Foreign (rowKey entry)) :
    NoneForeign start (o.record entry).entries := by
  intro e hm
  rcases OwnedRoutes.mem_of_mem_record hm with rfl | hm
  · exact he
  · exact h e hm

theorem NoneForeign.unrecord {start : RouteWorld} {o : OwnedRoutes}
    (h : NoneForeign start o.entries) (entry : RouteEntry) :
    NoneForeign start (o.unrecord entry).entries :=
  fun e hm => h e (OwnedRoutes.mem_of_mem_unrecord hm)

namespace TeardownInv

variable {start w : RouteWorld}

/-- A save writes what is in memory or nothing, so both lists stay clean. -/
theorem of_save {w' : RouteWorld} (h : TeardownInv start w) (ht : w'.table = w.table)
    (hm : NoneForeign start w'.owned.entries) {o : RouteWorld.SaveOutcome}
    (hf : RouteWorld.Filed o w.ledger w'.owned.entries w'.ledger) : TeardownInv start w' := by
  refine ⟨fun key hk => ?_, hm, ?_⟩
  · rw [ht]
    exact h.kept key hk
  · generalize w'.ledger = ledger at hf
    cases hf with
    | kept => exact h.disk
    | written => exact hm
    | lost _ => exact nofun

theorem recordRoute (h : TeardownInv start w) (entry : RouteEntry) (o : RouteWorld.SaveOutcome)
    (hok : ¬ w.Foreign (rowKey entry)) : TeardownInv start (w.recordRoute entry o).2 := by
  have hstart : ¬ start.Foreign (rowKey entry) := fun hk => hok (h.kept.foreign hk)
  refine h.of_save (o := o) (w.table_recordRoute entry o) ?_ ?_
  · rw [RouteWorld.owned_recordRoute]
    exact h.memory.record hstart
  · rw [RouteWorld.owned_recordRoute]
    exact w.filed_recordRoute entry o

theorem unrecordRoute (h : TeardownInv start w) (entry : RouteEntry) (o : RouteWorld.SaveOutcome) :
    TeardownInv start (w.unrecordRoute entry o).2 := by
  refine h.of_save (o := o) (w.table_unrecordRoute entry o) ?_ ?_
  · rw [RouteWorld.owned_unrecordRoute]
    exact h.memory.unrecord entry
  · rw [RouteWorld.owned_unrecordRoute]
    exact w.filed_unrecordRoute entry o

theorem createIpForwardEntry2 (h : TeardownInv start w) (row : ForwardRow)
    (o : Option RouteWorld.CreateFailure) :
    TeardownInv start (w.createIpForwardEntry2 row o).2 := by
  refine ⟨fun key hk => ?_, ?_, ?_⟩
  · rcases w.table_createIpForwardEntry2 row o key with he | ⟨-, hnone, -⟩
    · rw [he]
      exact h.kept key hk
    · exact absurd hnone (h.kept.isSome hk)
  · rw [RouteWorld.owned_createIpForwardEntry2]
    exact h.memory
  · rw [RouteWorld.ledger_createIpForwardEntry2]
    exact h.disk

/-- A delete of a row that was not another program's. -/
theorem deleteIpForwardEntry2 (h : TeardownInv start w) {row : ForwardRow}
    (hr : ¬ start.Foreign row.key) (o : Option RouteWorld.DeleteFailure) :
    TeardownInv start (w.deleteIpForwardEntry2 row o).2 := by
  refine ⟨fun key hk => ?_, ?_, ?_⟩
  · rcases w.table_deleteIpForwardEntry2 row o key with he | ⟨rfl, -⟩
    · rw [he]
      exact h.kept key hk
    · exact absurd hk hr
  · rw [RouteWorld.owned_deleteIpForwardEntry2]
    exact h.memory
  · rw [RouteWorld.ledger_deleteIpForwardEntry2]
    exact h.disk

end TeardownInv

/-! ## The operations -/

section Operations

variable {start : RouteWorld}

theorem addRoute_teardown (entry : RouteEntry) (w : RouteWorld) (h : TeardownInv start w) :
    Keeps TeardownOk (TeardownInv start) (RouteManager.addRoute entry) w := by
  unfold RouteManager.addRoute
  split
  · exact .ret h
  · rename_i row hr
    refine Keeps.call h fun o hok => ?_
    have hrec := h.recordRoute entry o hok
    split
    · exact .ret hrec
    · refine Keeps.call hrec fun oc _ => ?_
      have hcre := hrec.createIpForwardEntry2 row oc
      split
      · exact Keeps.call hcre fun ou _ => .ret (hcre.unrecordRoute entry ou)
      · exact .ret hcre

theorem removeRoute_teardown
    {ok : (call : RouteCall) → routeEnv.Outcome call → RouteWorld → Prop} (entry : RouteEntry)
    (w : RouteWorld) (he : ¬ start.Foreign (rowKey entry)) (h : TeardownInv start w) :
    Keeps ok (TeardownInv start) (RouteManager.removeRoute entry) w := by
  unfold RouteManager.removeRoute
  split
  · exact .ret h
  · rename_i row hr
    refine Keeps.call h fun o _ => ?_
    have hdel := h.deleteIpForwardEntry2 (show ¬ start.Foreign row.key by rwa [toRow_key hr]) o
    split
    · exact .ret hdel
    · exact Keeps.call (f := .ret) hdel fun ou _ => .ret (hdel.unrecordRoute entry ou)

theorem keptByAdding_teardown : KeptByAdding TeardownOk (TeardownInv start) where
  addRoute := addRoute_teardown
  underlay _ _ h := ⟨h.kept, h.memory, h.disk⟩
  tunnels _ _ h := ⟨h.kept, h.memory, h.disk⟩

theorem addOps_teardown (ops : List AddOp) {w : RouteWorld} (h : TeardownInv start w) :
    Keeps TeardownOk (TeardownInv start) (addOps ops) w := by
  induction ops generalizing w with
  | nil => exact .ret h
  | cons op ops ih => exact Keeps.bind (keptByAdding_teardown.run op h) fun _ _ h => ih h

theorem TeardownInv.restart {w : RouteWorld} (h : TeardownInv start w) (readable : Bool) :
    TeardownInv start (w.restart readable) :=
  ⟨h.kept, fun e he => h.disk e (RouteWorld.mem_of_mem_restart he), h.disk⟩

end Operations

/-- Over every sequence of adding operations whose records meet `TeardownOk`,
from a manager whose ledger lists no other program's row: the rows of other
programs stay as they were throughout `removeAllOwnedRoutes`, and after a
crash at any point throughout a new manager's `reconcile`, whether that one can
read the file or not. -/
theorem teardown_keeps_foreign (w : RouteWorld) (ops : List AddOp) (ts recovery : List routeEnv.Turn)
    (readable : Bool) (hmem : NoneForeign w w.owned.entries) (hdisk : NoneForeign w w.ledger)
    (hok : Prog.Meets routeEnv TeardownOk (addThenRemoveAll ops) w ts) :
    ForeignKept w (Prog.exec routeEnv (addThenRemoveAll ops) w ts).2 ∧
    ForeignKept w (Prog.exec routeEnv RouteManager.reconcile
      ((Prog.exec routeEnv (addThenRemoveAll ops) w ts).2.restart readable) recovery).2 := by
  have hw : TeardownInv w w := ⟨fun _ _ => rfl, hmem, hdisk⟩
  have hrun : Keeps TeardownOk (TeardownInv w) (addThenRemoveAll ops) w :=
    Keeps.bind (addOps_teardown ops hw) fun _ w' h =>
      removeAllOwnedRoutes_keeps (P := fun e => ¬ w.Foreign (rowKey e)) removeRoute_teardown
        h.memory h
  have hend := hrun.exec hok
  refine ⟨hend.kept, ?_⟩
  have hrec : Keeps (fun _ _ _ => True) (TeardownInv w) RouteManager.reconcile
      ((Prog.exec routeEnv (addThenRemoveAll ops) w ts).2.restart readable) :=
    reconcile_keeps (P := fun e => ¬ w.Foreign (rowKey e)) removeRoute_teardown
      (hend.restart readable).memory (hend.restart readable)
  exact (hrec.exec (Prog.meets_true _ _ _)).kept

theorem noneForeign_ofForeign (rows : List RowKey) :
    NoneForeign (.ofForeign rows) (RouteWorld.ofForeign rows).owned.entries ∧
      NoneForeign (.ofForeign rows) (RouteWorld.ofForeign rows).ledger := by
  constructor <;> (intro e he; cases he)

/-- The default route by the gateway 192.168.1.1, over interface 4. -/
def officeRoute : RouteEntry where
  destination := ⟨.anyV4, 0, by decide, by decide⟩
  nextHop := some (.fromV4 192 168 1 1)
  interfaceIndex := 4

/-- The default route through the tunnel, interface 9. -/
def tunnelRoute : RouteEntry where
  destination := ⟨.anyV4, 0, by decide, by decide⟩
  interfaceIndex := 9

/-- The tunnel's route added beside the office's and torn down: the latter is
still there, and the former is not. -/
theorem teardown_keeps_office :
    let run := Prog.exec routeEnv (addThenRemoveAll [.addRoute tunnelRoute])
      (.ofForeign [rowKey officeRoute]) [quietTurn, quietTurn, quietTurn, quietTurn, quietTurn]
    run.2.table (rowKey officeRoute) = some ⟨0, .foreign⟩ ∧
      run.2.table (rowKey tunnelRoute) = none := by
  have hrecord : ¬ RouteWorld.Foreign (.ofForeign [rowKey officeRoute]) (rowKey tunnelRoute) := by
    decide
  have h := teardown_keeps_foreign (.ofForeign [rowKey officeRoute]) [.addRoute tunnelRoute]
    [quietTurn, quietTurn, quietTurn, quietTurn, quietTurn] [] true (noneForeign_ofForeign _).1
    (noneForeign_ofForeign _).2 ⟨hrecord, trivial, trivial, trivial, trivial, trivial⟩
  exact ⟨h.1 (rowKey officeRoute) (by decide), by decide⟩

/-- A route another program has, added and torn down: the create finds it, and
the teardown deletes it. -/
theorem teardown_deletes_foreign :
    ¬ ∀ (w : RouteWorld) (ops : List AddOp) (ts : List routeEnv.Turn),
      NoneForeign w w.owned.entries → NoneForeign w w.ledger →
      ForeignKept w (Prog.exec routeEnv (addThenRemoveAll ops) w ts).2 := by
  intro h
  have hkept := h (.ofForeign [rowKey officeRoute]) [.addRoute officeRoute]
    [quietTurn, quietTurn, quietTurn, quietTurn, quietTurn] (noneForeign_ofForeign _).1
    (noneForeign_ofForeign _).2 (rowKey officeRoute) (by decide)
  revert hkept
  decide

end NovaVpn.Routing
