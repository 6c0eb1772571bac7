import NovaVpn.Firewall.Engine

/-!
# What the operations do to the filters

Every operation that replaces the NovaVPN filters is a sweep, which deletes
what one enumeration lists, and the adding of new filters, in a transaction.
`op_spec` says what it comes to: an error changes nothing, and success leaves
what the sweep did not delete and the new filters (`Replaced`). A
specification (`Spec`) also says that the filters in force satisfy a property
at every point of a run, as long as the sweeps of the run meet a condition.
-/

namespace NovaVpn.Firewall

open NovaVpn.Framework NovaVpn.Net

/-- A filter that carries the NovaVPN provider. -/
def Filter.isOwn (f : Filter) : Bool := f.spec.providerKey = some providerGuid

namespace FilterTable

def own (t : FilterTable) : List Filter := t.filters.filter (·.isOwn)

def foreign (t : FilterTable) : List Filter := t.filters.filter (!·.isOwn)

/-- The filters after adding several. -/
def addEach (t : FilterTable) (session : Nat) (specs : List FilterSpec) : FilterTable :=
  specs.foldl (fun t spec => t.add spec (some session)) t

theorem addEach_filters (t : FilterTable) (session : Nat) (specs : List FilterSpec) :
    ∃ new, (t.addEach session specs).filters = t.filters ++ new ∧ new.map (·.spec) = specs ∧
      ∀ f ∈ new, t.nextId ≤ f.id ∧ f.session = some session := by
  induction specs generalizing t with
  | nil => exact ⟨[], by simp [addEach], rfl, by simp⟩
  | cons spec specs ih =>
    obtain ⟨new, hf, hs, hn⟩ := ih (t.add spec (some session))
    refine ⟨⟨t.nextId, spec, some session⟩ :: new, ?_, ?_, ?_⟩
    · rw [addEach, List.foldl_cons, ← addEach, hf, add, List.append_assoc]
      rfl
    · rw [List.map_cons, hs]
    · intro f hm
      rcases List.mem_cons.mp hm with rfl | hm
      · exact ⟨le_refl _, rfl⟩
      · have := hn f hm
        exact ⟨Nat.le_of_succ_le this.1, this.2⟩

end FilterTable

/-! ## One sweep -/

/-- The outcomes of one sweep: of its enumeration, and of the delete of each
filter it listed. -/
structure SweepOutcome where
  enumeration : Except Failure EnumOrder
  deletes : List (Nat × Option Failure)

namespace SweepOutcome

/-- What the enumeration answers. -/
def answer (s : SweepOutcome) (w : FwWorld) : Except UInt32 (List Filter) :=
  w.filterEnum 512 s.enumeration

/-- The deletes are those of the filters the enumeration lists. -/
def Of (s : SweepOutcome) (w : FwWorld) : Prop :=
  s.deletes.map (·.1) = WfpEngine.ownIds (s.answer w)

/-- The sweep meets a condition on its enumeration and its deletes. -/
def Meets (G : Except UInt32 (List Filter) → FwWorld → Prop) (F : Option Failure → Prop)
    (s : SweepOutcome) (w : FwWorld) : Prop :=
  G (s.answer w) w ∧ ∀ d ∈ s.deletes, F d.2

/-- What is left of the filters. -/
def left (s : SweepOutcome) (t : FilterTable) : FilterTable :=
  t.keep fun f => s.deletes.all fun d => d.2.isSome || d.1 ≠ f.id

end SweepOutcome

/-- A condition on the sweeps of a run: `G` on what every enumeration answers,
and `F` on every delete. -/
def SweepCond (G : Except UInt32 (List Filter) → FwWorld → Prop) (F : Option Failure → Prop) :
    (call : FwCall) → fwEnv.Outcome call → FwWorld → Prop
  | .filterEnum _ n, o, w => G (w.filterEnum n o) w
  | .filterDeleteById _ _, o, _ => F o
  | _, _, _ => True

/-- A world with this transaction open. -/
def FwWorld.txn (w : FwWorld) (t : FilterTable) : FwWorld := { w with working := some t }

section Specs

variable {G : Except UInt32 (List Filter) → FwWorld → Prop} {F : Option Failure → Prop}
  {P : FilterTable → Prop}

/-- While the sweeps meet the condition, the filters in force satisfy `P`; and
the program returns with `Q`, a property of its result, the state and whether
the sweeps met the condition. -/
def Spec (G : Except UInt32 (List Filter) → FwWorld → Prop) (F : Option Failure → Prop)
    (P : FilterTable → Prop) {α : Type} (p : FwProg α) (w : FwWorld) (b : Prop)
    (Q : α → FwWorld → Prop → Prop) : Prop :=
  Prog.Safe (Prog.watch fwEnv (SweepCond G F)) (fun _ _ _ => True) (fun s => s.2 → P s.1.table)
    (fun a s => Q a s.1 s.2) p (w, b)

variable {α β : Type} {w : FwWorld} {b : Prop}

theorem Spec.ret {a : α} {Q : α → FwWorld → Prop → Prop} (hP : b → P w.table) (h : Q a w b) :
    Spec G F P (pure a) w b Q :=
  ⟨hP, h⟩

theorem Spec.bind {p : FwProg α} {f : α → FwProg β} {Q : α → FwWorld → Prop → Prop}
    {R : β → FwWorld → Prop → Prop} (hp : Spec G F P p w b Q)
    (hf : ∀ a w b, (b → P w.table) → Q a w b → Spec G F P (f a) w b R) :
    Spec G F P (p >>= f) w b R :=
  Prog.Safe.bind hp fun a s hI hQ => hf a s.1 s.2 hI hQ

theorem Spec.call {call : FwCall} {f : fwApi.Ans call → FwProg β} {R : β → FwWorld → Prop → Prop}
    (hP : b → P w.table)
    (h : ∀ o, Spec G F P (f (fwEnv.step call o w).1) (fwEnv.step call o w).2
      (b ∧ SweepCond G F call o w) R) :
    Spec G F P (call.perform >>= f) w b R :=
  Prog.Safe.step hP fun o _ => h o

theorem Spec.mono {p : FwProg α} {Q R : α → FwWorld → Prop → Prop} (hp : Spec G F P p w b Q)
    (h : ∀ a w b, Q a w b → R a w b) : Spec G F P p w b R :=
  Prog.Safe.mono hp fun a s _ => h a s.1 s.2

theorem Spec.andThen {p q : FwProg Status} {Q R : Status → FwWorld → Prop → Prop}
    (hp : Spec G F P p w b Q)
    (herr : ∀ st w b, st.isError = true → Q st w b → R st w b)
    (hq : ∀ st w b, (b → P w.table) → st.isError = false → Q st w b → Spec G F P q w b R) :
    Spec G F P (Firewall.andThen p q) w b R := by
  refine Spec.bind hp fun st w b hP hQ => ?_
  split
  · rename_i he
    exact .ret hP (herr st w b he hQ)
  · rename_i he
    exact hq st w b hP (by simpa using he) hQ

theorem FwWorld.filterDeleteById_txn (w : FwWorld) (t : FilterTable) (id : Nat)
    (o : Option Failure) :
    ((w.txn t).filterDeleteById id o).2 = w.txn (t.keep fun f => o.isSome || id ≠ f.id) := by
  cases o with
  | some code => simp [FwWorld.filterDeleteById, FilterTable.keep_eq_self]
  | none =>
    show (if (t.filters.any (·.id = id)) = true then (Win.noError, w.txn (t.deleteById id))
      else (fwpFilterNotFound, w.txn t)).2 = _
    by_cases h : (t.filters.any (·.id = id)) = true
    · rw [if_pos h]
      simp [FilterTable.deleteById]
    · rw [if_neg h, FilterTable.keep_eq_self]
      intro f hf
      simp only [List.any_eq_true, decide_eq_true_eq, not_exists, not_and] at h
      simpa using Ne.symm (h f hf)

theorem deleteEach_spec (engine : Nat) (ids : List Nat) (t : FilterTable) (hP : b → P w.table) :
    Spec G F P (WfpEngine.deleteEach engine ids) (w.txn t) b fun _ w' b' =>
      ∃ deletes : List (Nat × Option Failure), deletes.map (·.1) = ids ∧
        w' = w.txn (t.keep fun f => deletes.all fun d => d.2.isSome || d.1 ≠ f.id) ∧
        (b' ↔ b ∧ ∀ d ∈ deletes, F d.2) := by
  induction ids generalizing t b with
  | nil => exact .ret hP ⟨[], rfl, by simp [FilterTable.keep_eq_self], by simp⟩
  | cons id ids ih =>
    refine Spec.call hP fun o => ?_
    show Spec G F P _ ((w.txn t).filterDeleteById id o).2 _ _
    rw [FwWorld.filterDeleteById_txn]
    refine (ih _ fun h => hP h.1).mono fun _ w' b' => ?_
    rintro ⟨deletes, hids, hw, hb⟩
    refine ⟨(id, o) :: deletes, by rw [List.map_cons, hids], ?_, ?_⟩
    · rw [hw, FilterTable.keep_keep]
      simp only [List.all_cons]
    · rw [hb, List.forall_mem_cons, and_assoc]
      rfl

/-- A sweep: without an enumeration it is an error and changes nothing; else
it deletes what the enumeration lists, as far as the deletes succeed. -/
theorem clearFiltersInTransaction_spec (engine : Nat) (t : FilterTable) (hP : b → P w.table) :
    Spec G F P (WfpEngine.clearFiltersInTransaction engine) (w.txn t) b fun st w' b' =>
      st.isError = true ∧ w' = w.txn t ∨
      st = Status.ok ∧ ∃ s : SweepOutcome, s.Of (w.txn t) ∧ w' = w.txn (s.left t) ∧
        (b' ↔ b ∧ s.Meets G F (w.txn t)) := by
  refine Spec.call hP fun o => ?_
  split
  · exact .ret (fun h => hP h.1) (.inl ⟨isError_wfpError _ _, rfl⟩)
  refine Spec.call (fun h => hP h.1) fun o => ?_
  refine Spec.call (fun h => hP h.1.1) fun _ => ?_
  refine Spec.bind (deleteEach_spec (w := w) engine _ t fun h => hP h.1.1.1) fun _ w' b' hP' => ?_
  rintro ⟨deletes, hids, rfl, hb⟩
  refine .ret hP' (.inr ⟨rfl, ⟨o, deletes⟩, hids, rfl, ?_⟩)
  rw [hb]
  simp only [SweepCond, and_true, and_assoc, SweepOutcome.Meets, SweepOutcome.answer]

theorem addFilter_spec (engine : Nat) (spec : FilterSpec) (context : String) (t : FilterTable)
    (hP : b → P w.table) :
    Spec G F P (WfpEngine.addFilter engine spec context) (w.txn t) b fun st w' b' =>
      (st.isError = true ∧ w' = w.txn t ∨ st = Status.ok ∧ w' = w.txn (t.add spec (some engine))) ∧
        (b' ↔ b) := by
  refine Spec.call hP fun o => ?_
  have hb : b ∧ SweepCond G F (.filterAdd engine spec) o (w.txn t) ↔ b := and_iff_left trivial
  cases o with
  | some code =>
    show Spec G F P (if code.1 ≠ Win.noError then _ else _) _ _ _
    rw [if_pos code.2]
    exact .ret (fun h => hP h.1) ⟨.inl ⟨isError_wfpError _ _, rfl⟩, hb⟩
  | none => exact .ret (fun h => hP h.1) ⟨.inr ⟨rfl, rfl⟩, hb⟩

theorem addAll_spec (engine : Nat) (filters : List (FilterSpec × String)) (t : FilterTable)
    (hP : b → P w.table) :
    Spec G F P (addAll engine filters) (w.txn t) b fun st w' b' =>
      ((st.isError = true ∧ ∃ t', w' = w.txn t') ∨
        st = Status.ok ∧ w' = w.txn (t.addEach engine (filters.map (·.1)))) ∧ (b' ↔ b) := by
  induction filters generalizing t b with
  | nil => exact .ret hP ⟨.inr ⟨rfl, rfl⟩, Iff.rfl⟩
  | cons f filters ih =>
    refine Spec.andThen (addFilter_spec engine f.1 f.2 t hP) ?_ ?_
    · rintro st w' b' he ⟨h | h, hb⟩
      · exact ⟨.inl ⟨he, t, h.2⟩, hb⟩
      · rw [h.1] at he
        cases he
    · rintro st w' b' hP' he ⟨h | h, hb⟩
      · rw [h.1] at he
        cases he
      · obtain ⟨rfl, rfl⟩ := h
        refine (ih (t.add f.1 (some engine)) hP').mono fun st w' b'' h => ?_
        exact ⟨h.1, h.2.trans hb⟩

theorem beginTransaction_spec (engine : Nat) (hP : b → P w.table) :
    Spec G F P (WfpEngine.beginTransaction engine) w b fun st w' b' =>
      (st.isError = true ∧ w' = w ∨ st = Status.ok ∧ w.working = none ∧ w' = w.txn w.table) ∧
        (b' ↔ b) := by
  refine Spec.call hP fun o => ?_
  have hb : b ∧ SweepCond G F (.transactionBegin engine) o w ↔ b := and_iff_left trivial
  cases o with
  | some code =>
    show Spec G F P (if code.1 ≠ Win.noError then _ else _) _ _ _
    rw [if_pos code.2]
    exact .ret (fun h => hP h.1) ⟨.inl ⟨isError_wfpError _ _, rfl⟩, hb⟩
  | none =>
    cases hw : w.working with
    | some t =>
      have hstep : w.transactionBegin none = (fwpTxnInProgress, w) := by
        simp [FwWorld.transactionBegin, hw]
      show Spec G F P (if (w.transactionBegin none).1 ≠ Win.noError then _ else _)
        (w.transactionBegin none).2 _ _
      rw [hstep, if_pos (show fwpTxnInProgress ≠ Win.noError by decide)]
      exact .ret (fun h => hP h.1) ⟨.inl ⟨isError_wfpError _ _, rfl⟩, hb⟩
    | none =>
      have hstep : w.transactionBegin none = (Win.noError, w.txn w.table) := by
        simp [FwWorld.transactionBegin, FwWorld.txn, hw]
      show Spec G F P (if (w.transactionBegin none).1 ≠ Win.noError then _ else _)
        (w.transactionBegin none).2 _ _
      rw [hstep, if_neg (not_not_intro rfl)]
      exact .ret (fun h => hP h.1) ⟨.inr ⟨rfl, rfl, rfl⟩, hb⟩

theorem finish_spec (engine : Nat) {st : Status} (context : String) (t : FilterTable)
    (hw : w.working = none) (hP : b → P w.table) (ht : st.isError = false → b → P t) :
    Spec G F P (WfpEngine.finish engine st context) (w.txn t) b fun st' w' b' =>
      (st'.isError = true ∧ w' = w ∨
        st.isError = false ∧ st' = Status.ok ∧ w' = { w with table := t }) ∧ (b' ↔ b) := by
  have hback : ({ w.txn t with working := none } : FwWorld) = w := by
    rw [FwWorld.txn, ← hw]
  unfold WfpEngine.finish
  cases he : st.isError with
  | true =>
    rw [if_pos rfl]
    refine Spec.call hP fun o => ?_
    show Spec G F P _ { w.txn t with working := none } _ _
    rw [hback]
    exact .ret (fun h => hP h.1) ⟨.inl ⟨he, rfl⟩, and_iff_left trivial⟩
  | false =>
    rw [if_neg Bool.false_ne_true]
    refine Spec.call hP fun o => ?_
    have hb : b ∧ SweepCond G F (.transactionCommit engine) o (w.txn t) ↔ b :=
      and_iff_left trivial
    cases o with
    | some code =>
      show Spec G F P (if code.1 ≠ Win.noError then _ else _)
        { w.txn t with working := none } _ _
      rw [if_pos code.2, hback]
      exact .ret (fun h => hP h.1) ⟨.inl ⟨isError_wfpError _ _, rfl⟩, hb⟩
    | none =>
      show Spec G F P (if Win.noError ≠ Win.noError then _ else _)
        { w.txn t with table := t, working := none } _ _
      have hcommit : ({ w.txn t with table := t, working := none } : FwWorld) =
          { w with table := t } := by
        rw [FwWorld.txn, ← hw]
      rw [if_neg (not_not_intro rfl), hcommit]
      exact .ret (fun h => ht he h.1) ⟨.inr ⟨rfl, rfl, rfl⟩, hb⟩

/-- A transaction: an error leaves the filters in force as they were, and
success puts what the body made of them in their place. -/
theorem transaction_spec (engine : Nat) (body : FwProg Status) (context : String)
    {R : FilterTable → Prop → Prop} (hP : b → P w.table)
    (hbody : Spec G F P body (w.txn w.table) b fun st w' b' =>
      (st.isError = true ∧ ∃ t, w' = w.txn t) ∨ st = Status.ok ∧ ∃ t, w' = w.txn t ∧ R t b')
    (hR : ∀ t b', R t b' → b' → P t) :
    Spec G F P (andThen (WfpEngine.beginTransaction engine) do
        let status ← body
        WfpEngine.finish engine status context) w b fun st w' b' =>
      st.isError = true ∧ w' = w ∨
      st = Status.ok ∧ w.working = none ∧ ∃ t, w' = { w with table := t } ∧ R t b' := by
  refine Spec.andThen (beginTransaction_spec engine hP) ?_ ?_
  · rintro st w' b' he ⟨h | h, -⟩
    · exact .inl h
    · rw [h.1] at he
      cases he
  · rintro st w' b' - he ⟨h | ⟨-, hw, rfl⟩, hb⟩
    · rw [h.1] at he
      cases he
    rw [propext hb]
    refine Spec.bind hbody fun st w' b' hP' h => ?_
    rcases h with ⟨herr, t, rfl⟩ | ⟨rfl, t, rfl, hRt⟩
    · refine (finish_spec engine context t hw hP' fun h => ?_).mono fun st' w' b'' h => ?_
      · rw [herr] at h
        cases h
      · rcases h.1 with h | h
        · exact .inl h
        · rw [herr] at h
          cases h.1
    · refine (finish_spec engine context t hw hP' fun _ => hR t b' hRt).mono fun st' w' b'' h => ?_
      rcases h with ⟨h | ⟨-, rfl, rfl⟩, hb'⟩
      · exact .inl h
      · exact .inr ⟨rfl, hw, t, rfl, propext hb' ▸ hRt⟩

/-- The table a sweep and the adding of `specs` make of that of `w`, in a run
that met the condition before it as `b` says, and meets it after it as `b'`
says. -/
def Replaced (G : Except UInt32 (List Filter) → FwWorld → Prop) (F : Option Failure → Prop)
    (w : FwWorld) (b : Prop) (engine : Nat) (specs : List FilterSpec) (t : FilterTable)
    (b' : Prop) : Prop :=
  ∃ s : SweepOutcome, s.Of (w.txn w.table) ∧ t = (s.left w.table).addEach engine specs ∧
    (b' ↔ b ∧ s.Meets G F (w.txn w.table))

theorem clearFiltersLocked_spec (engine : Nat) (hP : b → P w.table)
    (hR : ∀ t b', Replaced G F w b engine [] t b' → b' → P t) :
    Spec G F P (WfpEngine.clearFiltersLocked engine) w b fun st w' b' =>
      st.isError = true ∧ w' = w ∨
      st = Status.ok ∧ w.working = none ∧
        ∃ t, w' = { w with table := t } ∧ Replaced G F w b engine [] t b' := by
  refine transaction_spec engine _ _ hP ?_ hR
  refine (clearFiltersInTransaction_spec engine w.table hP).mono fun st w' b' h => ?_
  rcases h with ⟨he, rfl⟩ | ⟨rfl, s, hs, rfl, hb⟩
  · exact .inl ⟨he, _, rfl⟩
  · exact .inr ⟨rfl, _, rfl, s, hs, rfl, hb⟩

theorem applyPolicyLocked_spec (engine : Nat) (policy : FirewallPolicy) (hP : b → P w.table) :
    Spec G F P (WfpEngine.applyPolicyLocked engine policy) (w.txn w.table) b fun st w' b' =>
      (st.isError = true ∧ ∃ t, w' = w.txn t) ∨
      st = Status.ok ∧ ∃ t, w' = w.txn t ∧ Replaced G F w b engine (policySpecs policy) t b' := by
  rw [applyPolicyLocked_eq]
  refine Spec.andThen (clearFiltersInTransaction_spec engine w.table hP) ?_ ?_
  · rintro st w' b' he (⟨-, rfl⟩ | ⟨rfl, -⟩)
    · exact .inl ⟨he, _, rfl⟩
    · cases he
  · rintro st w' b' hP' he (⟨he', -⟩ | ⟨rfl, s, hs, rfl, hb⟩)
    · rw [he] at he'
      cases he'
    refine (addAll_spec engine _ (s.left w.table) hP').mono fun st w' b'' h => ?_
    rcases h with ⟨⟨he, t, rfl⟩ | ⟨rfl, rfl⟩, hb'⟩
    · exact .inl ⟨he, t, rfl⟩
    · exact .inr ⟨rfl, _, rfl, s, hs, rfl, hb'.trans hb⟩

end Specs

/-! ## The operations -/

/-- The filters an operation that replaces the NovaVPN filters puts in
force. -/
def FwOp.target : FwOp → Option (List FilterSpec)
  | .apply policy => some (if policy.mode = .off then [] else policySpecs policy)
  | .clear | .reconcile => some []
  | .openEngine | .close => none

/-- The engine's members after such an operation. -/
def FwOp.after (op : FwOp) (self : WfpEngine) : WfpEngine :=
  match op with
  | .apply policy =>
    if policy.mode = .off then { self with engaged := false, policy := none }
    else { self with engaged := true, policy := some policy }
  | .clear => { self with engaged := false, policy := none }
  | _ => self

section Operations

variable {G : Except UInt32 (List Filter) → FwWorld → Prop} {F : Option Failure → Prop}
  {P : FilterTable → Prop} {w : FwWorld} {b : Prop} {self : WfpEngine}

/-- What `apply`, `clear` and `reconcile` come to: an error changes nothing;
success replaces the filters by the target. -/
def Outcome (G : Except UInt32 (List Filter) → FwWorld → Prop) (F : Option Failure → Prop)
    (op : FwOp) (specs : List FilterSpec) (self : WfpEngine) (w : FwWorld) (b : Prop)
    (r : Status × WfpEngine) (w' : FwWorld) (b' : Prop) : Prop :=
  r.1.isError = true ∧ r.2 = self ∧ w' = w ∨
  r.1 = Status.ok ∧ r.2 = op.after self ∧ w.working = none ∧
    ∃ engine, self.engine = some engine ∧
      ∃ t, w' = { w with table := t } ∧ Replaced G F w b engine specs t b'

theorem release_spec {op : FwOp} {engine : Nat} (he : self.engine = some engine)
    (hop : op.after self = { self with engaged := false, policy := none }) (hP : b → P w.table)
    (hR : ∀ t b', Replaced G F w b engine [] t b' → b' → P t) :
    Spec G F P (self.release engine) w b (Outcome G F op [] self w b) := by
  refine Spec.bind (clearFiltersLocked_spec engine hP hR) fun st w' b' hP' h => ?_
  rcases h with ⟨herr, rfl⟩ | ⟨rfl, hw, ht⟩
  · rw [if_pos herr]
    exact .ret hP' (.inl ⟨herr, rfl, rfl⟩)
  · exact .ret hP' (.inr ⟨rfl, hop.symm, hw, engine, he, ht⟩)

theorem op_spec {op : FwOp} {specs : List FilterSpec} (htarget : op.target = some specs)
    (hP : b → P w.table)
    (hR : ∀ engine t b', Replaced G F w b engine specs t b' → b' → P t) :
    Spec G F P (op.run self) w b (Outcome G F op specs self w b) := by
  have hnone {op : FwOp} : Spec G F P (pure (WfpEngine.notOpen, self)) w b
      (Outcome G F op specs self w b) := .ret hP (.inl ⟨rfl, rfl, rfl⟩)
  cases op with
  | openEngine => cases htarget
  | close => cases htarget
  | apply policy =>
    show Spec G F P (self.apply policy) w b _
    unfold WfpEngine.apply
    split
    · exact hnone
    rename_i engine he
    by_cases hoff : policy.mode = .off
    · simp only [FwOp.target, hoff, if_true, Option.some.injEq] at htarget
      subst htarget
      rw [if_pos hoff]
      exact release_spec he (by simp [FwOp.after, hoff]) hP (hR engine)
    · simp only [FwOp.target, if_neg hoff, Option.some.injEq] at htarget
      subst htarget
      rw [if_neg hoff]
      refine Spec.bind (transaction_spec engine _ _ hP (applyPolicyLocked_spec engine policy hP)
        (hR engine)) fun st w' b' hP' h => ?_
      rcases h with ⟨herr, rfl⟩ | ⟨rfl, hw, ht⟩
      · rw [if_pos herr]
        exact .ret hP' (.inl ⟨herr, rfl, rfl⟩)
      · exact .ret hP' (.inr ⟨rfl, by simp [FwOp.after, hoff], hw, engine, he, ht⟩)
  | clear =>
    cases htarget
    show Spec G F P self.clear w b _
    unfold WfpEngine.clear
    split
    · exact hnone
    · rename_i engine he
      exact release_spec he rfl hP (hR engine)
  | reconcile =>
    cases htarget
    show Spec G F P self.reconcile w b _
    unfold WfpEngine.reconcile
    split
    · exact hnone
    · rename_i engine he
      refine Spec.bind (clearFiltersLocked_spec engine hP (hR engine)) fun st w' b' hP' h => ?_
      rcases h with ⟨herr, rfl⟩ | ⟨rfl, hw, ht⟩
      · exact .ret hP' (.inl ⟨herr, rfl, rfl⟩)
      · exact .ret hP' (.inr ⟨rfl, rfl, hw, engine, he, ht⟩)

theorem ensureProviderAndSublayer_spec (engine : Nat) (hP : b → P w.table) :
    Spec G F P (WfpEngine.ensureProviderAndSublayer engine) w b fun _ w' b' => w' = w ∧ (b' ↔ b) := by
  have hok {b₀ b₁ : Prop} (h₀ : b₀ ↔ b) (h₁ : b₁ ↔ True) : b₀ ∧ b₁ ↔ b := by
    rw [h₀, h₁, and_true]
  refine Spec.andThen (Q := fun _ w' b' => w' = w ∧ (b' ↔ b)) ?_ (fun _ _ _ _ h => h) ?_
  · refine Spec.call hP fun o => ?_
    split
    · exact .ret (fun h => hP h.1) ⟨rfl, hok Iff.rfl Iff.rfl⟩
    · exact .ret (fun h => hP h.1) ⟨rfl, hok Iff.rfl Iff.rfl⟩
  · rintro st w' b' hP' - ⟨rfl, hb⟩
    refine Spec.call hP' fun o => ?_
    split
    · exact .ret (fun h => hP' h.1) ⟨rfl, hok hb Iff.rfl⟩
    · exact .ret (fun h => hP' h.1) ⟨rfl, hok hb Iff.rfl⟩

/-- Opening: the engine gets a new session, or stays as it is; in that case a
session may have been opened and closed again. -/
theorem openEngine_spec (hP : b → P w.table)
    (hclose : b → P (w.table.closeSession w.nextSession)) :
    Spec G F P self.openEngine w b fun r w' _ =>
      w.nextSession ≤ w'.nextSession ∧
      (r.2 = self ∧ (w'.table = w.table ∨ w'.table = w.table.closeSession w.nextSession) ∨
        r.2 = { self with engine := some w.nextSession } ∧ w'.table = w.table ∧
          w.nextSession < w'.nextSession) := by
  unfold WfpEngine.openEngine
  split
  · exact .ret hP ⟨le_refl _, .inl ⟨rfl, .inl rfl⟩⟩
  refine Spec.call hP fun o => ?_
  cases o with
  | some code => exact .ret (fun h => hP h.1) ⟨le_refl _, .inl ⟨rfl, .inl rfl⟩⟩
  | none =>
    refine Spec.bind (ensureProviderAndSublayer_spec w.nextSession fun h => hP h.1)
      fun st w' b' hP' h => ?_
    obtain ⟨rfl, hb⟩ := h
    split
    · refine Spec.call hP' fun _ => .ret (fun h => hclose (hb.mp h.1).1) ?_
      exact ⟨Nat.le_succ _, .inl ⟨rfl, .inr rfl⟩⟩
    · exact .ret hP' ⟨Nat.le_succ _, .inr ⟨rfl, rfl, Nat.lt_succ_self _⟩⟩

theorem close_spec (hP : b → P w.table)
    (hclose : ∀ engine, self.engine = some engine → b → P (w.table.closeSession engine)) :
    Spec G F P self.close w b fun r w' _ =>
      w'.nextSession = w.nextSession ∧
      (self.engine = none ∧ r.2 = self ∧ w'.table = w.table ∨
        ∃ engine, self.engine = some engine ∧ r.2 = { self with engine := none } ∧
          w'.table = w.table.closeSession engine) := by
  unfold WfpEngine.close
  split
  · rename_i he
    exact .ret hP ⟨rfl, .inl ⟨he, rfl, rfl⟩⟩
  · rename_i engine he
    exact Spec.call hP fun _ => .ret (fun h => hclose engine he h.1)
      ⟨rfl, .inr ⟨engine, he, rfl, rfl⟩⟩

theorem Spec.exec {α : Type} {p : FwProg α} {Q : α → FwWorld → Prop → Prop}
    (h : Spec G F P p w True Q) {ts : List fwEnv.Turn}
    (hm : Prog.Meets fwEnv (SweepCond G F) p w ts) : P (Prog.exec fwEnv p w ts).2.table := by
  have hI := Prog.Safe.exec h (Prog.meets_true p (w, True) ts)
  rw [Prog.exec_watch] at hI
  exact hI ⟨trivial, hm⟩

theorem Spec.post {α : Type} {p : FwProg α} {Q : α → FwWorld → Prop → Prop}
    (h : Spec G F P p w True Q) {ts : List fwEnv.Turn} {a : α} {w' : FwWorld}
    (hr : Prog.exec fwEnv p w ts = (.ret a, w')) :
    Q a w' (Prog.Meets fwEnv (SweepCond G F) p w ts) :=
  Prog.Safe.post_watch h hr

end Operations

end NovaVpn.Firewall
