import NovaVpn.Framework.Runs
import NovaVpn.Routing.LedgerFile

/-!
# Teardown after failures

`removeAllOwnedRoutes` and `reconcile` go through a copy of the owned entries,
and every entry whose row is deleted is dropped from the memory and from the
file before the next is tried. So whichever deletes fail, what is left is the
entries of these (`teardown_survives_failures`), together with those that have
no row: an entry whose next hop is of another family than its destination is
refused before the system is called, and stays (`refused_entry_stays`).
-/

namespace NovaVpn.Routing

open NovaVpn.Framework NovaVpn.Net

/-- The system refuses to delete these rows and no others, and every save
succeeds. -/
def DeletesFail (fails : RowKey → Prop) :
    (call : RouteCall) → routeEnv.Outcome call → RouteWorld → Prop
  | .recordRoute _, o, _ => o = .saved
  | .unrecordRoute _, o, _ => o = .saved
  | .deleteIpForwardEntry2 row, o, _ => o.isSome = true ↔ fails row.key
  | _, _, _ => True

/-- There is no row for the entry: its next hop is of another family than its
destination. -/
def Refused (entry : RouteEntry) : Prop := ∃ status, toRow entry = .error status

/-- The entry is not deleted. -/
def Stays (fails : RowKey → Prop) (entry : RouteEntry) : Prop :=
  Refused entry ∨ fails (rowKey entry)

/-- A manager that read the file would own what this one owns. -/
def RouteWorld.Recorded (w : RouteWorld) : Prop :=
  ∀ e, e ∈ (loadRecord w.ledger).entries ↔ e ∈ w.owned.entries

theorem refused_iff {entry : RouteEntry} :
    Refused entry ↔ ∃ hop ∈ entry.nextHop, hop.family ≠ entry.destination.family := by
  unfold Refused toRow
  cases entry.nextHop with
  | none => simp
  | some hop =>
    by_cases hf : hop.family = entry.destination.family <;> simp [hf]

/-! ## One entry -/

namespace OwnedRoutes

theorem mem_unrecord {o : OwnedRoutes} {e entry : RouteEntry} :
    e ∈ (o.unrecord entry).entries ↔ e ∈ o.entries ∧ routeKey e ≠ routeKey entry := by
  constructor
  · intro h
    refine ⟨mem_of_mem_unrecord h, fun hkey => ?_⟩
    have hnone : (o.unrecord entry).map.lookup (routeKey e) = none := by
      rw [hkey]
      exact AList.lookup_erase _ _
    rw [mem_entries.mp h] at hnone
    cases hnone
  · rintro ⟨h, hkey⟩
    exact mem_unrecord_of_ne h hkey

/-- Two of the entries have different keys. -/
theorem eq_of_routeKey {o : OwnedRoutes} {e e' : RouteEntry} (he : e ∈ o.entries)
    (he' : e' ∈ o.entries) (hkey : routeKey e = routeKey e') : e = e' := by
  have hlookup := mem_entries.mp he
  rw [hkey, mem_entries.mp he'] at hlookup
  exact (Option.some.inj hlookup).symm

end OwnedRoutes

/-- What the removal of some entries leaves, that began with a failure or
without one. -/
structure Removed (fails : RowKey → Prop) (entries : List RouteEntry) (w : RouteWorld)
    (failed : Prop) (status : Status) (w' : RouteWorld) (made : List RouteCall) : Prop where
  owned : ∀ e, e ∈ w'.owned.entries ↔ e ∈ w.owned.entries ∧
    ∀ x ∈ entries, ¬ Stays fails x → routeKey e ≠ routeKey x
  ledger : (w'.ledger = w.ledger ∧ w'.owned = w.owned) ∨ w'.ledger = w'.owned.entries
  status : status.isError = true ↔ failed ∨ ∃ x ∈ entries, Stays fails x
  attempted : ∀ x ∈ entries, ∀ row, toRow x = .ok row → .deleteIpForwardEntry2 row ∈ made

section Steps

variable {fails : RowKey → Prop}

/-- The code of a delete says whether it failed. -/
theorem deleteIpForwardEntry2_failed (w : RouteWorld) (row : ForwardRow)
    (o : Option RouteWorld.DeleteFailure) :
    ((w.deleteIpForwardEntry2 row o).1 ≠ Win.noError ∧
      (w.deleteIpForwardEntry2 row o).1 ≠ Win.errorNotFound) ↔ o.isSome = true := by
  cases o with
  | some code => exact iff_of_true code.2 rfl
  | none =>
    refine iff_of_false ?_ (by simp)
    unfold RouteWorld.deleteIpForwardEntry2
    dsimp only
    split
    · exact fun h => h.1 rfl
    · exact fun h => h.2 rfl

namespace Removed

variable {entry : RouteEntry} {w w' w'' : RouteWorld} {status : Status} {made made' : List RouteCall}

/-- The entry stays. -/
theorem of_stays (hstays : Stays fails entry) (herror : status.isError = true)
    (howned : w'.owned = w.owned) (hledger : w'.ledger = w.ledger)
    (hcalls : ∀ row, toRow entry = .ok row → .deleteIpForwardEntry2 row ∈ made) :
    Removed fails [entry] w False status w' made where
  owned e := by simp [howned, hstays]
  ledger := Or.inl ⟨hledger, howned⟩
  status := by simp [herror, hstays]
  attempted := by simpa using hcalls

/-- The entry is gone. -/
theorem of_gone (hgo : ¬ Stays fails entry) (hok : status.isError = false)
    (howned : w'.owned = w.owned.unrecord entry) (hledger : w'.ledger = w'.owned.entries)
    (hcalls : ∀ row, toRow entry = .ok row → .deleteIpForwardEntry2 row ∈ made) :
    Removed fails [entry] w False status w' made where
  owned e := by simp [howned, OwnedRoutes.mem_unrecord, hgo]
  ledger := Or.inr hledger
  status := by simp [hok, hgo]
  attempted := by simpa using hcalls

theorem nil (first : Status) : Removed fails [] w (first.isError = true) first w made where
  owned e := by simp
  ledger := Or.inl ⟨rfl, rfl⟩
  status := by simp
  attempted := by simp

/-- One entry, and the others after it. -/
theorem cons {entries : List RouteEntry} {failed failed' : Prop} {last : Status}
    (h : Removed fails [entry] w False status w' made)
    (h' : Removed fails entries w' failed' last w'' made') (hsub : made ⊆ made')
    (hfailed : failed' ↔ failed ∨ status.isError = true) :
    Removed fails (entry :: entries) w failed last w'' made' where
  owned e := by
    rw [h'.owned, h.owned, and_assoc, List.forall_mem_singleton, List.forall_mem_cons]
  ledger := by
    rcases h'.ledger with ⟨hledger, howned⟩ | hledger
    · rw [hledger, howned]
      exact h.ledger
    · exact Or.inr hledger
  status := by
    rw [h'.status, hfailed, h.status, false_or, or_assoc]
    simp only [List.exists_mem_cons_iff, List.not_mem_nil, false_and, exists_false, or_false]
  attempted x hx row hrow := by
    rcases List.mem_cons.mp hx with rfl | hx
    · exact hsub (h.attempted x (List.mem_singleton_self x) row hrow)
    · exact h'.attempted x hx row hrow

end Removed

/-- `removeRoute` keeps the entry or drops it, as the delete goes. -/
theorem removeRoute_removed (entry : RouteEntry) (w : RouteWorld) (made : List RouteCall) :
    Prog.Safe (Prog.logged routeEnv) (fun call o wl => DeletesFail fails call o wl.1)
      (fun _ => True)
      (fun status wl => made ⊆ wl.2 ∧ Removed fails [entry] w False status wl.1 wl.2)
      (RouteManager.removeRoute entry) (w, made) := by
  unfold RouteManager.removeRoute
  split
  next st hrow =>
    refine ⟨trivial, List.Subset.refl _, .of_stays (Or.inl ⟨st, hrow⟩) (toRow_error hrow) rfl rfl ?_⟩
    intro row hrow'
    rw [hrow] at hrow'
    cases hrow'
  next row hrow =>
    have hkey := toRow_key hrow
    refine Prog.Safe.step trivial fun o ho => ?_
    have hfailed := deleteIpForwardEntry2_failed w row o
    have ho : o.isSome = true ↔ fails row.key := ho
    have hcalls {made' : List RouteCall} (h : made ++ [.deleteIpForwardEntry2 row] ⊆ made') :
        ∀ row', toRow entry = .ok row' → .deleteIpForwardEntry2 row' ∈ made' := by
      intro row' hrow'
      rw [hrow] at hrow'
      cases hrow'
      exact h (List.mem_append_right _ (List.mem_singleton_self _))
    split
    next hcode =>
      have hfails : fails (rowKey entry) := hkey ▸ ho.mp (hfailed.mp hcode)
      exact ⟨trivial, List.subset_append_left _ _,
        .of_stays (Or.inr hfails) (Win.isError_fromWin32 hcode.1 _)
          (w.owned_deleteIpForwardEntry2 row o) (w.ledger_deleteIpForwardEntry2 row o)
          (hcalls (List.Subset.refl _))⟩
    next hcode =>
      have hgo : ¬ Stays fails entry := by
        rintro (⟨st, hst⟩ | hfails)
        · rw [hrow] at hst
          cases hst
        · exact hcode (hfailed.mpr (ho.mpr (hkey ▸ hfails)))
      refine ⟨trivial, fun o' ho' => ?_⟩
      have ho' : o' = .saved := ho'
      subst ho'
      refine ⟨trivial, ?_, .of_gone hgo rfl ?_ rfl (hcalls (List.subset_append_left _ _))⟩
      · exact fun call hcall => List.mem_append_left _ (List.mem_append_left _ hcall)
      · show (w.deleteIpForwardEntry2 row o).2.owned.unrecord entry = _
        rw [RouteWorld.owned_deleteIpForwardEntry2]

/-- The loop ends with a failure if it began with one or meets one. -/
theorem isError_firstFailure (first status : Status) :
    (if status.isError && first.isOk then status else first).isError = true ↔
      first.isError = true ∨ status.isError = true := by
  rw [first.isError_eq_not_isOk]
  by_cases herror : status.isError = true
  · by_cases hok : first.isOk = true
    · simp [herror, hok]
    · simp [hok, first.isError_eq_not_isOk]
  · simp [herror, first.isError_eq_not_isOk]

/-- So does the loop, with each of its entries. -/
theorem removeEach_removed (entries : List RouteEntry) (first : Status) (w : RouteWorld)
    (made : List RouteCall) :
    Prog.Safe (Prog.logged routeEnv) (fun call o wl => DeletesFail fails call o wl.1)
      (fun _ => True)
      (fun status wl =>
        made ⊆ wl.2 ∧ Removed fails entries w (first.isError = true) status wl.1 wl.2)
      (RouteManager.removeEach first entries) (w, made) := by
  induction entries generalizing first w made with
  | nil => exact ⟨trivial, List.Subset.refl _, .nil first⟩
  | cons entry entries ih =>
    refine Prog.Safe.bind (removeRoute_removed entry w made) fun status wl _ hone => ?_
    refine (ih _ wl.1 wl.2).mono fun last wl' _ hrest => ?_
    exact ⟨List.Subset.trans hone.1 hrest.1,
      hone.2.cons hrest.2 hrest.1 (isError_firstFailure first status)⟩

end Steps

/-! ## The operations -/

/-- What a teardown of all owned entries comes to. -/
structure TornDown (fails : RowKey → Prop) (w : RouteWorld) (status : Status) (w' : RouteWorld)
    (made : List RouteCall) : Prop where
  /-- The system is called for every entry that has a row. -/
  attempted : ∀ e ∈ w.owned.entries, ∀ row, toRow e = .ok row → .deleteIpForwardEntry2 row ∈ made
  owned : ∀ e, e ∈ w'.owned.entries ↔ e ∈ w.owned.entries ∧ Stays fails e
  ledger : w.Recorded →
    ∀ e, e ∈ (RouteWorld.loadRecord w'.ledger).entries ↔ e ∈ w.owned.entries ∧ Stays fails e
  status : status.isOk = true ↔ ∀ e ∈ w.owned.entries, ¬ Stays fails e

section Teardown

variable {fails : RowKey → Prop} {w w' : RouteWorld}

/-- Entries that a file was read from have an interface. -/
theorem RouteWorld.Recorded.index (h : w.Recorded) {e : RouteEntry} (he : e ∈ w.owned.entries) :
    e.interfaceIndex ≠ 0 := by
  have hread := (h e).mpr he
  rw [loadRecord] at hread
  rcases mem_of_mem_foldl_record hread with hmem | hmem
  · exact of_decide_eq_true (List.mem_filter.mp hmem).2
  · cases hmem

/-- The entries go through a list of all of them. -/
theorem Removed.tornDown {status : Status} {made : List RouteCall}
    (h : Removed fails w.owned.entries w False status w' made) : TornDown fails w status w' made := by
  have howned (e : RouteEntry) :
      e ∈ w'.owned.entries ↔ e ∈ w.owned.entries ∧ Stays fails e := by
    rw [h.owned]
    refine and_congr_right fun he => ⟨fun hkept => ?_, fun hstays x hx hgo hkey => ?_⟩
    · by_contra hgo
      exact hkept e he hgo rfl
    · exact hgo (OwnedRoutes.eq_of_routeKey he hx hkey ▸ hstays)
  refine ⟨h.attempted, howned, fun hw e => ?_, ?_⟩
  · rw [← howned]
    rcases h.ledger with ⟨hledger, hsame⟩ | hledger
    · rw [hledger, hw, hsame]
    · have hindex : ∀ e ∈ w'.owned.entries, e.interfaceIndex ≠ 0 :=
        fun e he => hw.index ((howned e).mp he).1
      have hlookup := RouteWorld.lookup_loadRecord (List.Perm.refl w'.owned.entries) hindex
      rw [hledger, OwnedRoutes.mem_entries, OwnedRoutes.mem_entries, hlookup]
  · rw [← Bool.not_eq_false, ← Bool.not_eq_true', ← Status.isError_eq_not_isOk, h.status]
    simp

/-- The operations that take all owned routes down. -/
inductive TakesDown : RouteProg Status → Prop
  | removeAllOwnedRoutes : TakesDown RouteManager.removeAllOwnedRoutes
  | reconcile : TakesDown RouteManager.reconcile

theorem TakesDown.tornDown {op : RouteProg Status} (hop : TakesDown op) {ts : Nat → routeEnv.Turn}
    (hm : Prog.MeetsRun routeEnv (DeletesFail fails) op w ts) :
    TornDown fails w (Prog.run routeEnv op w ts).1 (Prog.run routeEnv op w ts).2
      (Prog.calls routeEnv op w ts) := by
  have hsafe : Prog.Safe (Prog.logged routeEnv) (fun call o wl => DeletesFail fails call o wl.1)
      (fun _ => True) (fun status wl => TornDown fails w status wl.1 wl.2) op (w, []) := by
    have heach (made : List RouteCall) :=
      (@removeEach_removed fails w.owned.entries Status.ok w made).mono
        (R := fun status wl => TornDown fails w status wl.1 wl.2)
        fun status wl _ h => Removed.tornDown (by simpa using h.2)
    cases hop with
    | removeAllOwnedRoutes => exact Prog.Safe.step trivial fun _ _ => heach _
    | reconcile =>
      refine Prog.Safe.step trivial fun _ _ => ?_
      split
      next hempty =>
        have hnil : w.owned.entries = [] := List.isEmpty_iff.mp hempty
        have hnone : Removed fails w.owned.entries w False Status.ok w [.copyOwned] := by
          rw [hnil]
          simpa using @Removed.nil fails w [.copyOwned] Status.ok
        exact ⟨trivial, hnone.tornDown⟩
      next => exact heach _
  simpa using hsafe.run hm

/-- Whichever deletes fail: every entry that has a row is tried; what is left in
the memory and in the file is the entries whose deletes failed and those without
a row; the status is ok exactly if there are none; and when the deletes succeed
the next time, only those without a row are left. -/
theorem teardown_survives_failures {op : RouteProg Status} (hop : TakesDown op) (hw : w.Recorded)
    {ts : Nat → routeEnv.Turn} (hm : Prog.MeetsRun routeEnv (DeletesFail fails) op w ts) :
    TornDown fails w (Prog.run routeEnv op w ts).1 (Prog.run routeEnv op w ts).2
      (Prog.calls routeEnv op w ts) ∧
    ∀ again, TakesDown again → ∀ ts' : Nat → routeEnv.Turn,
      Prog.MeetsRun routeEnv (DeletesFail fun _ => False) again (Prog.run routeEnv op w ts).2 ts' →
      ∀ e,
        (e ∈ (Prog.run routeEnv again (Prog.run routeEnv op w ts).2 ts').2.owned.entries ↔
          e ∈ w.owned.entries ∧ Refused e) ∧
        (e ∈ (RouteWorld.loadRecord
            (Prog.run routeEnv again (Prog.run routeEnv op w ts).2 ts').2.ledger).entries ↔
          e ∈ w.owned.entries ∧ Refused e) := by
  have hfirst := hop.tornDown hm
  refine ⟨hfirst, fun again hagain ts' hm' e => ?_⟩
  have hsecond := hagain.tornDown hm'
  have hrecorded : (Prog.run routeEnv op w ts).2.Recorded := by
    exact fun e => (hfirst.ledger hw e).trans (hfirst.owned e).symm
  have hleft : e ∈ (Prog.run routeEnv op w ts).2.owned.entries ∧ Stays (fun _ => False) e ↔
      e ∈ w.owned.entries ∧ Refused e := by
    have hnone : Stays (fun _ => False) e ↔ Refused e := or_iff_left id
    rw [hfirst.owned, hnone, and_assoc]
    exact and_congr_right fun _ => and_iff_right_of_imp Or.inl
  exact ⟨(hsecond.owned e).trans hleft, (hsecond.ledger hrecorded e).trans hleft⟩

end Teardown

/-- A manager that has read a file of these entries. -/
def RouteWorld.ofLedger (ledger : List RouteEntry) : RouteWorld where
  table _ := none
  ledger := ledger
  owned := loadRecord ledger

/-- The turn at which the rows are refused and every other call succeeds. -/
def refusingTurn (rows : List RowKey) : routeEnv.Turn
  | .deleteIpForwardEntry2 row => if row.key ∈ rows then some ⟨5, by decide⟩ else none
  | call => quietTurn call

theorem deletesFail_refusingTurn (rows : List RowKey) (call : RouteCall) (w : RouteWorld) :
    DeletesFail (fun key => key ∈ rows) call (refusingTurn rows call) w := by
  cases call with
  | deleteIpForwardEntry2 row =>
    show (refusingTurn rows (.deleteIpForwardEntry2 row)).isSome = true ↔ row.key ∈ rows
    by_cases hrow : row.key ∈ rows <;> simp [refusingTurn, hrow]
  | recordRoute _ => rfl
  | unrecordRoute _ => rfl
  | _ => trivial

/-- Of two routes the system refuses to delete one. -/
theorem teardown_keeps_refused_row :
    let w := RouteWorld.ofLedger [siteRoute, { siteRoute with interfaceIndex := 13 }]
    let after := (Prog.run routeEnv RouteManager.removeAllOwnedRoutes w
      fun _ => refusingTurn [rowKey siteRoute]).2
    siteRoute ∈ after.owned.entries ∧ { siteRoute with interfaceIndex := 13 } ∉ after.owned.entries := by
  intro w after
  have hm := Prog.meetsRun_of_turns (fun _ => deletesFail_refusingTurn [rowKey siteRoute])
    RouteManager.removeAllOwnedRoutes w 
  have h := (teardown_survives_failures .removeAllOwnedRoutes (fun _ => Iff.rfl) hm).1
  constructor
  · exact (h.owned _).mpr ⟨by decide, Or.inr (List.mem_singleton_self _)⟩
  · intro hmem
    rcases ((h.owned _).mp hmem).2 with hrefused | hfails
    · obtain ⟨hop, hhop, hfamily⟩ := refused_iff.mp hrefused
      cases hhop
      exact hfamily rfl
    · exact absurd (congrArg RowKey.interfaceIndex (List.mem_singleton.mp hfails)) (by decide)

/-- A route to an IPv4 network by an IPv6 router, as a file may have it. -/
def mixedRoute : RouteEntry := { siteRoute with nextHop := some .anyV6 }

/-- It stays, although no delete fails. -/
theorem refused_entry_stays :
    ¬ ∀ op, TakesDown op → ∀ (w : RouteWorld) (fails : RowKey → Prop) (ts : Nat → routeEnv.Turn),
      w.Recorded → Prog.MeetsRun routeEnv (DeletesFail fails) op w ts →
      ∀ e, e ∈ (Prog.run routeEnv op w ts).2.owned.entries ↔
        e ∈ w.owned.entries ∧ fails (rowKey e) := by
  intro h
  let w := RouteWorld.ofLedger [mixedRoute]
  have hm := Prog.meetsRun_of_turns (fun _ => deletesFail_refusingTurn [])
    RouteManager.removeAllOwnedRoutes w 
  have hstays := (TakesDown.removeAllOwnedRoutes.tornDown hm).owned mixedRoute
  have hrefused : Refused mixedRoute := refused_iff.mpr ⟨.anyV6, rfl, by decide⟩
  have hgone := (h _ .removeAllOwnedRoutes w _ _ (fun _ => Iff.rfl) hm mixedRoute).mp
    (hstays.mpr ⟨by decide, Or.inl hrefused⟩)
  exact absurd hgone.2 List.not_mem_nil

end NovaVpn.Routing
