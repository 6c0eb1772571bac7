import NovaVpn.Firewall.Sweep

/-!
# The filters after an operation

`apply`, `clear` and `reconcile` report success whatever their sweep reached:
they enumerate once, at most 512 filters of the machine, and neither a failed
enumeration nor a failed delete is an error. `exact_filters_iff` says when
the NovaVPN filters in force afterwards are exactly those the operation is
for: if and only if every NovaVPN filter there before was listed and deleted
(`SweepComplete`). The filters of others are unchanged in any case.
-/

namespace NovaVpn.Firewall

open NovaVpn.Framework NovaVpn.Net

/-- The enumeration lists every NovaVPN filter. -/
def ListsOwn (answer : Except UInt32 (List Filter)) (w : FwWorld) : Prop :=
  ∀ f ∈ w.current.own, ∃ entries, answer = .ok entries ∧ f ∈ entries

/-- Every sweep lists every NovaVPN filter there is, and deletes those it
lists. -/
def SweepComplete : (call : FwCall) → fwEnv.Outcome call → FwWorld → Prop :=
  SweepCond ListsOwn (· = none)

theorem FilterTable.mem_own {t : FilterTable} {f : Filter} :
    f ∈ t.own ↔ f ∈ t.filters ∧ f.isOwn = true := List.mem_filter

/-! ## What a sweep leaves -/

namespace SweepOutcome

variable {s : SweepOutcome} {w : FwWorld} {t : FilterTable}

theorem mem_left {f : Filter} :
    f ∈ (s.left t).filters ↔ f ∈ t.filters ∧ ∀ d ∈ s.deletes, d.2 = none → d.1 ≠ f.id := by
  simp only [left, FilterTable.keep, List.mem_filter, List.all_eq_true, Bool.or_eq_true,
    decide_eq_true_eq, Option.isSome_iff_ne_none, ne_eq, or_iff_not_imp_left, not_not]

/-- An enumeration that succeeds lists filters of the table, each once. -/
theorem answer_ok {entries : List Filter} (h : s.answer (w.txn t) = .ok entries) :
    (∀ f ∈ entries, f ∈ t.filters) ∧ (entries.map Filter.id).Nodup := by
  cases hs : s.enumeration with
  | error code => simp [answer, FwWorld.filterEnum, hs] at h
  | ok order =>
    simp only [answer, FwWorld.filterEnum, hs, Except.ok.injEq] at h
    have hperm : (order.1 t.filters).Perm t.filters := order.2 t.filters
    subst h
    constructor
    · intro f hf
      exact hperm.mem_iff.mp (List.mem_of_mem_take hf)
    · have hnodup := (hperm.map Filter.id).nodup_iff.mpr t.nodup
      exact hnodup.sublist ((List.take_sublist _ _).map _)

theorem mem_ownIds {entries : List Filter} {id : Nat} :
    id ∈ WfpEngine.ownIds (.ok entries) ↔ ∃ f ∈ entries, f.isOwn = true ∧ f.id = id := by
  simp [WfpEngine.ownIds, Filter.isOwn, and_assoc]

/-- A delete is of a NovaVPN filter the enumeration lists. -/
theorem Of.listed (h : s.Of (w.txn t)) {d : Nat × Option Failure} (hd : d ∈ s.deletes) :
    ∃ entries, s.answer (w.txn t) = .ok entries ∧ ∃ f ∈ entries, f.isOwn = true ∧ f.id = d.1 := by
  have hm : d.1 ∈ WfpEngine.ownIds (s.answer (w.txn t)) := h ▸ List.mem_map_of_mem hd
  cases ha : s.answer (w.txn t) with
  | error code =>
    rw [ha] at hm
    cases hm
  | ok entries =>
    rw [ha, mem_ownIds] at hm
    exact ⟨entries, rfl, hm⟩

/-- No filter is deleted twice. -/
theorem Of.nodup (h : s.Of (w.txn t)) : (s.deletes.map (·.1)).Nodup := by
  rw [h]
  cases ha : s.answer (w.txn t) with
  | error code => exact List.nodup_nil
  | ok entries => exact (answer_ok ha).2.sublist (List.filter_sublist.map _)

theorem Of.exists_delete (h : s.Of (w.txn t)) {entries : List Filter} {f : Filter}
    (ha : s.answer (w.txn t) = .ok entries) (hf : f ∈ entries) (ho : f.isOwn = true) :
    ∃ d ∈ s.deletes, d.1 = f.id := by
  have hm : f.id ∈ s.deletes.map (·.1) := by
    rw [h, ha, mem_ownIds]
    exact ⟨f, hf, ho, rfl⟩
  exact List.mem_map.mp hm

/-- The filters of others are left as they are. -/
theorem Of.foreign_left (h : s.Of (w.txn t)) : (s.left t).foreign = t.foreign := by
  simp only [FilterTable.foreign, left, FilterTable.keep, List.filter_filter]
  refine List.filter_congr fun f hf => ?_
  cases ho : f.isOwn with
  | true => rfl
  | false =>
    simp only [Bool.not_false, Bool.true_and, List.all_eq_true, Bool.or_eq_true, decide_eq_true_eq]
    intro d hd
    refine .inr fun hid => ?_
    obtain ⟨entries, ha, g, hg, hgo, hgid⟩ := h.listed hd
    have hfg : f = g := FilterTable.eq_of_id hf ((answer_ok ha).1 g hg) (hid.symm.trans hgid.symm)
    rw [hfg, hgo] at ho
    cases ho

/-- No NovaVPN filter is left if and only if all were listed and every delete
succeeded. -/
theorem Of.own_left_eq_nil_iff (h : s.Of (w.txn t)) :
    (s.left t).own = [] ↔ s.Meets ListsOwn (· = none) (w.txn t) := by
  have hgone : (s.left t).own = [] ↔
      ∀ f ∈ t.own, ∃ d ∈ s.deletes, d.2 = none ∧ d.1 = f.id := by
    simp only [List.eq_nil_iff_forall_not_mem, FilterTable.mem_own, mem_left]
    refine ⟨fun hn f hf => ?_, fun hd f hf => ?_⟩
    · by_contra hc
      push Not at hc
      exact hn f ⟨⟨hf.1, hc⟩, hf.2⟩
    · obtain ⟨d, hd, hnone, hid⟩ := hd f ⟨hf.1.1, hf.2⟩
      exact hf.1.2 d hd hnone hid
  rw [hgone]
  constructor
  · intro hall
    refine ⟨fun f hf => ?_, fun d hd => ?_⟩
    · obtain ⟨d, hd, -, hid⟩ := hall f hf
      obtain ⟨entries, ha, g, hg, -, hgid⟩ := h.listed hd
      have hfg : f = g := FilterTable.eq_of_id (FilterTable.mem_own.mp hf).1
        ((answer_ok ha).1 g hg) (hid.symm.trans hgid.symm)
      exact ⟨entries, ha, hfg ▸ hg⟩
    · obtain ⟨entries, ha, g, hg, hgo, hgid⟩ := h.listed hd
      obtain ⟨d', hd', hnone, hid⟩ := hall g (FilterTable.mem_own.mpr ⟨(answer_ok ha).1 g hg, hgo⟩)
      have hdd : d = d' := List.inj_on_of_nodup_map h.nodup hd hd' (hgid.symm.trans hid.symm)
      rw [hdd, hnone]
  · rintro ⟨hlists, hnone⟩ f hf
    obtain ⟨entries, ha, hfe⟩ := hlists f hf
    obtain ⟨d, hd, hid⟩ := h.exists_delete ha hfe (FilterTable.mem_own.mp hf).2
    exact ⟨d, hd, hnone d hd, hid⟩

end SweepOutcome

/-! ## What an operation leaves -/

theorem FwOp.target_own {op : FwOp} {specs : List FilterSpec} (h : op.target = some specs) :
    ∀ spec ∈ specs, spec.providerKey = some providerGuid := by
  intro spec hspec
  cases op with
  | openEngine => cases h
  | close => cases h
  | clear =>
    cases h
    cases hspec
  | reconcile =>
    cases h
    cases hspec
  | apply policy =>
    simp only [FwOp.target, Option.some.injEq] at h
    subst h
    split at hspec
    · cases hspec
    · exact (policySpecs_stamp hspec).1

section Replaced

variable {G : Except UInt32 (List Filter) → FwWorld → Prop} {F : Option Failure → Prop}
  {w : FwWorld} {b b' : Prop} {engine : Nat} {specs : List FilterSpec} {t : FilterTable}

/-- The NovaVPN filters after a replacement: what the sweep left of those
before, and the new ones. -/
theorem Replaced.own (h : Replaced G F w b engine specs t b')
    (hspecs : ∀ spec ∈ specs, spec.providerKey = some providerGuid) :
    ∃ s : SweepOutcome, s.Of (w.txn w.table) ∧ (b' ↔ b ∧ s.Meets G F (w.txn w.table)) ∧
      ∃ new, t.own = (s.left w.table).own ++ new ∧ new.map (·.spec) = specs ∧
        ∀ f ∈ new, w.table.nextId ≤ f.id := by
  obtain ⟨s, hs, rfl, hb⟩ := h
  obtain ⟨new, hnew, hmap, hids⟩ := (s.left w.table).addEach_filters engine specs
  refine ⟨s, hs, hb, new, ?_, hmap, fun f hf => (hids f hf).1⟩
  have hown : new.filter (·.isOwn) = new := by
    rw [List.filter_eq_self]
    intro f hf
    have := hspecs f.spec (hmap ▸ List.mem_map_of_mem hf)
    simpa [Filter.isOwn] using this
  rw [FilterTable.own, hnew, List.filter_append, hown]
  rfl

/-- A replacement leaves the filters of others as they are. -/
theorem Replaced.foreign (h : Replaced G F w b engine specs t b')
    (hspecs : ∀ spec ∈ specs, spec.providerKey = some providerGuid) :
    t.foreign = w.table.foreign := by
  obtain ⟨s, hs, rfl, -⟩ := h
  obtain ⟨new, hnew, hmap, -⟩ := (s.left w.table).addEach_filters engine specs
  have hown : new.filter (!·.isOwn) = [] := by
    rw [List.filter_eq_nil_iff]
    intro f hf
    have := hspecs f.spec (hmap ▸ List.mem_map_of_mem hf)
    simpa [Filter.isOwn] using this
  rw [FilterTable.foreign, hnew, List.filter_append, hown, List.append_nil]
  exact hs.foreign_left

/-- The NovaVPN filters after a replacement are exactly the new ones if and
only if the sweep was complete. -/
theorem Replaced.own_eq_iff (h : Replaced ListsOwn (· = none) w True engine specs t b')
    (hspecs : ∀ spec ∈ specs, spec.providerKey = some providerGuid) :
    t.own.map (·.spec) = specs ↔ b' := by
  obtain ⟨s, hs, hb, new, hown, hmap, -⟩ := h.own hspecs
  rw [hb, true_and, ← hs.own_left_eq_nil_iff, hown, List.map_append, hmap]
  constructor
  · intro heq
    have hlen := congrArg List.length heq
    rw [List.length_append, List.length_map] at hlen
    exact List.eq_nil_of_length_eq_zero (by omega)
  · intro hnil
    rw [hnil, List.map_nil, List.nil_append]

end Replaced

/-- The filters with identifiers the platform had not given before: those
installed since. -/
def installedSince (w w' : FwWorld) : List FilterSpec :=
  (w'.table.filters.filter fun f => w.table.nextId ≤ f.id).map (·.spec)

theorem Replaced.installedSince {G : Except UInt32 (List Filter) → FwWorld → Prop}
    {F : Option Failure → Prop} {w : FwWorld} {b b' : Prop} {engine : Nat}
    {specs : List FilterSpec} {t : FilterTable} (h : Replaced G F w b engine specs t b') :
    installedSince w { w with table := t } = specs := by
  obtain ⟨s, -, rfl, -⟩ := h
  obtain ⟨new, hnew, hmap, hids⟩ := (s.left w.table).addEach_filters engine specs
  have hold : (s.left w.table).filters.filter (fun f => w.table.nextId ≤ f.id) = [] := by
    rw [List.filter_eq_nil_iff]
    intro f hf
    have := w.table.fresh f (SweepOutcome.mem_left.mp hf).1
    simpa using this
  have hall : new.filter (fun f => w.table.nextId ≤ f.id) = new := by
    rw [List.filter_eq_self]
    intro f hf
    exact decide_eq_true (hids f hf).1
  rw [Firewall.installedSince, hnew, List.filter_append, hold, hall, List.nil_append, hmap]

theorem op_outcome {op : FwOp} {specs : List FilterSpec} (htarget : op.target = some specs)
    {self self' : WfpEngine} {w w' : FwWorld} {ts : List fwEnv.Turn} {st : Status}
    (hrun : Prog.exec fwEnv (op.run self) w ts = (.ret (st, self'), w')) :
    Outcome ListsOwn (· = none) op specs self w True (st, self') w'
      (Prog.Meets fwEnv SweepComplete (op.run self) w ts) :=
  Spec.post (op_spec (P := fun _ => True) htarget (fun _ => trivial) fun _ _ _ _ _ => trivial) hrun

/-- After an `apply`, `clear` or `reconcile` that returns ok, whatever the
filters of the machine were: the NovaVPN filters are exactly those the
operation is for if and only if its sweep was complete, and the filters of
others are unchanged. -/
theorem exact_filters_iff (op : FwOp) (specs : List FilterSpec) (self self' : WfpEngine)
    (w w' : FwWorld) (ts : List fwEnv.Turn) (st : Status) (htarget : op.target = some specs)
    (hrun : Prog.exec fwEnv (op.run self) w ts = (.ret (st, self'), w')) (hok : st.isOk = true) :
    (w'.table.own.map (·.spec) = specs ↔ Prog.Meets fwEnv SweepComplete (op.run self) w ts) ∧
      w'.table.foreign = w.table.foreign := by
  have hown := FwOp.target_own htarget
  rcases op_outcome htarget hrun with ⟨herr, -, -⟩ | ⟨-, -, -, engine, -, t, rfl, hrep⟩
  · rw [Status.isError_eq_not_isOk, hok] at herr
    cases herr
  · exact ⟨hrep.own_eq_iff hown, hrep.foreign hown⟩

/-- A filter of another program. -/
def otherSpec : FilterSpec where
  layerKey := .connectV4
  subLayerKey := 0
  providerKey := none
  name := "other"
  weight := 0
  persistent := true
  action := .permit

/-- `n` filters of other programs, and after them a block-all that an earlier
run left. -/
def crowdedTable (n : Nat) : FilterTable where
  filters := (List.range n).map (⟨·, otherSpec, none⟩) ++ [⟨n, blockAllFilter .connectV4 true, none⟩]
  nextId := n + 1
  nodup := by
    simp only [List.map_append, List.map_map, List.map_cons, List.map_nil, List.nodup_append]
    refine ⟨by simpa [Function.comp_def] using List.nodup_range, by simp, ?_⟩
    simp only [List.mem_map, List.mem_range, List.mem_singleton]
    rintro a ⟨i, hi, rfl⟩ b rfl
    exact Nat.ne_of_lt hi
  fresh := by
    intro f hf
    simp only [List.mem_append, List.mem_map, List.mem_range, List.mem_singleton] at hf
    rcases hf with ⟨i, hi, rfl⟩ | rfl
    · exact Nat.lt_succ_of_lt hi
    · exact Nat.lt_succ_self n

/-- With one filter of another program there, the block-all is listed and
deleted. -/
theorem clear_reaches_stale :
    Prog.Meets fwEnv SweepComplete (FwOp.clear.run { engine := some 0 }) { table := crowdedTable 1 }
      (List.replicate 6 fwQuietTurn) :=
  (exact_filters_iff .clear [] { engine := some 0 } { engine := some 0 }
    { table := crowdedTable 1 } _ (List.replicate 6 fwQuietTurn) Status.ok rfl rfl rfl).1.mp
    (by decide)

/-- A `clear` whose enumeration lists no NovaVPN filter changes nothing. -/
theorem clear_lists_none (t : FilterTable)
    (h : WfpEngine.ownIds (.ok (t.filters.take 512)) = []) :
    Prog.exec fwEnv (FwOp.clear.run { engine := some 0 }) { table := t }
      [fwQuietTurn, fwQuietTurn, fwQuietTurn, fwQuietTurn, fwQuietTurn] =
        (.ret (Status.ok, { engine := some 0 }), { table := t }) := by
  show Prog.exec fwEnv (((WfpEngine.deleteEach 0 (WfpEngine.ownIds (.ok (t.filters.take 512))) >>=
    fun _ => pure Status.ok) >>= fun st => WfpEngine.finish 0 st "FwpmTransactionCommit(clear)") >>=
    fun st => _) (FwWorld.txn { table := t } t) [fwQuietTurn] = _
  rw [h]
  rfl

/-- With 512 filters of other programs before it, a block-all that an earlier
run left is still there after a `clear` that returns ok. -/
theorem clear_leaves_crowded :
    ¬ ∀ (op : FwOp) (specs : List FilterSpec) (self self' : WfpEngine) (w w' : FwWorld)
      (ts : List fwEnv.Turn) (st : Status), op.target = some specs →
      Prog.exec fwEnv (op.run self) w ts = (.ret (st, self'), w') → st.isOk = true →
      w'.table.own.map (·.spec) = specs ∧ w'.table.foreign = w.table.foreign := by
  intro h
  have hids : WfpEngine.ownIds (.ok ((crowdedTable 512).filters.take 512)) = [] := by
    have htake : (crowdedTable 512).filters.take 512 =
        (List.range 512).map (⟨·, otherSpec, none⟩) :=
      List.take_left' (by simp)
    rw [htake]
    simp [WfpEngine.ownIds, List.filter_map, Function.comp_def, otherSpec]
  have hexact := h .clear [] _ _ _ _ _ _ rfl (clear_lists_none _ hids) rfl
  have hmem : (⟨512, blockAllFilter .connectV4 true, none⟩ : Filter) ∈ (crowdedTable 512).own :=
    FilterTable.mem_own.mpr ⟨List.mem_append_right _ List.mem_cons_self, by decide⟩
  rw [List.map_eq_nil_iff.mp hexact.1] at hmem
  cases hmem
end NovaVpn.Firewall
