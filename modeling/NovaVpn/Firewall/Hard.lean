import NovaVpn.Firewall.Exact
import NovaVpn.Framework.Machine

/-!
# The hard kill switch across restarts

A host runs one process of the service at a time, and the process ends by a
crash or a restart of the machine at any point of an operation. The block-all
filters of a persistent policy survive all of that (`HardInstalled.keep`).
What removes them is `reconcile`, which sweeps the filters a crashed run left
and does not tell a hard policy's from others; every start of the service
calls it (`reconcile_releases_hard`). `hard_holds` is the result for the runs
in which no `reconcile` lists a block-all filter.
-/

namespace NovaVpn.Firewall

open NovaVpn.Framework NovaVpn.Net

/-- The persistent block-all filters are installed at both connect layers. -/
def HardInstalled (t : FilterTable) : Prop :=
  ∀ layer ∈ connectLayers, ∃ f ∈ t.filters, f.spec = blockAllFilter layer true

/-- The enumeration lists no persistent block-all filter. -/
def ListsNoBlockAll (answer : Except UInt32 (List Filter)) (_ : FwWorld) : Prop :=
  ∀ entries, answer = .ok entries → ∀ f ∈ entries, ∀ layer, f.spec ≠ blockAllFilter layer true

/-! ## The host -/

structure Host where
  /-- The engine of the running process, if there is one. -/
  engine : Option WfpEngine
  world : FwWorld

/-- What happens on a host: a process starts, an operation runs to its end,
or the process ends within one, alone or with the machine. -/
inductive HostEvent where
  | start
  | op (op : FwOp) (ts : List fwEnv.Turn)
  | crash (op : FwOp) (ts : List fwEnv.Turn)
  | reboot (op : FwOp) (ts : List fwEnv.Turn)

def hostStep (h : Host) (e : HostEvent) : Option Host :=
  match h.engine, e with
  | none, .start => some ⟨some {}, h.world⟩
  | some self, .op op ts =>
    match Prog.exec fwEnv (op.run self) h.world ts with
    | (.ret r, w') => some ⟨some r.2, w'⟩
    | (.call _ _, _) => none
  | some self, .crash op ts => some ⟨none, (Prog.exec fwEnv (op.run self) h.world ts).2.crash⟩
  | some self, .reboot op ts => some ⟨none, (Prog.exec fwEnv (op.run self) h.world ts).2.reboot⟩
  | none, .reboot _ _ => some ⟨none, h.world.reboot⟩
  | _, _ => none

/-- Neither a `clear` nor an `apply` of another policy. -/
def FwOp.Keeping (policy : FirewallPolicy) (op : FwOp) : Prop :=
  op ≠ .clear ∧ ∀ other, op = .apply other → other = policy

/-- The same of the operation an event is in. -/
def HostEvent.Keeping (policy : FirewallPolicy) : HostEvent → Prop
  | .start => True
  | .op o _ | .crash o _ | .reboot o _ => FwOp.Keeping policy o

/-- The condition on an operation: a `reconcile` lists no persistent
block-all filter. -/
def FwOp.HardOk (op : FwOp) (self : WfpEngine) (w : FwWorld) (ts : List fwEnv.Turn) : Prop :=
  op = .reconcile →
    Prog.Meets fwEnv (SweepCond ListsNoBlockAll fun _ => True) (op.run self) w ts

/-- The same of the operation an event is in. -/
def HardOk (h : Host) : HostEvent → Prop
  | .start => True
  | .op op ts | .crash op ts | .reboot op ts =>
    ∀ self, h.engine = some self → op.HardOk self h.world ts

/-! ## The steps -/

theorem HardInstalled.keep {t : FilterTable} (h : HardInstalled t) {p : Filter → Bool}
    (hp : ∀ f, f.spec.persistent = true → p f = true) : HardInstalled (t.keep p) := by
  intro layer hl
  obtain ⟨f, hf, hspec⟩ := h layer hl
  exact ⟨f, List.mem_filter.mpr ⟨hf, hp f (by rw [hspec]; rfl)⟩, hspec⟩

theorem HardInstalled.closeSession {t : FilterTable} (h : HardInstalled t) (session : Nat) :
    HardInstalled (t.closeSession session) :=
  h.keep fun f hf => by simp [hf]

theorem HardInstalled.crash {w : FwWorld} (h : HardInstalled w.table) :
    HardInstalled w.crash.table := by
  show HardInstalled (w.sessions.foldl FilterTable.closeSession w.table)
  generalize w.sessions = sessions, w.table = t at h
  induction sessions generalizing t with
  | nil => exact h
  | cons session sessions ih => exact ih _ (h.closeSession session)

theorem HardInstalled.reboot {w : FwWorld} (h : HardInstalled w.table) :
    HardInstalled w.reboot.table :=
  h.keep fun _ hf => hf

/-- A sweep that lists no block-all filter leaves them. -/
theorem HardInstalled.left {w : FwWorld} {s : SweepOutcome} (h : HardInstalled w.table)
    (hs : s.Of (w.txn w.table)) (hlists : ListsNoBlockAll (s.answer (w.txn w.table)) (w.txn w.table)) :
    HardInstalled (s.left w.table) := by
  intro layer hl
  obtain ⟨f, hf, hspec⟩ := h layer hl
  refine ⟨f, SweepOutcome.mem_left.mpr ⟨hf, fun d hd _ hid => ?_⟩, hspec⟩
  obtain ⟨entries, ha, g, hg, -, hgid⟩ := hs.listed hd
  have hfg : f = g := FilterTable.eq_of_id hf ((SweepOutcome.answer_ok ha).1 g hg)
    (hid.symm.trans hgid.symm)
  exact hlists entries ha g hg layer (hfg ▸ hspec)

/-- A replacement by the filters of a persistent policy installs them. -/
theorem Replaced.hardInstalled {G : Except UInt32 (List Filter) → FwWorld → Prop}
    {F : Option Failure → Prop} {w : FwWorld} {b b' : Prop} {engine : Nat}
    {policy : FirewallPolicy} {t : FilterTable} (hpers : policy.persistent = true)
    (h : Replaced G F w b engine (policySpecs policy) t b') : HardInstalled t := by
  obtain ⟨s, -, rfl, -⟩ := h
  obtain ⟨new, hnew, hmap, -⟩ := (s.left w.table).addEach_filters engine (policySpecs policy)
  intro layer hl
  have hmem : blockAllFilter layer true ∈ policySpecs policy :=
    mem_policySpecs.mpr (.inl ⟨layer, hl, by rw [hpers]⟩)
  rw [← hmap] at hmem
  obtain ⟨f, hf, hspec⟩ := List.mem_map.mp hmem
  exact ⟨f, by rw [hnew]; exact List.mem_append_right _ hf, hspec⟩

/-- At every point of an operation that is neither a `clear` nor an `apply` of
another policy, and that lists no block-all filter if it is a `reconcile`. -/
theorem op_hard {policy : FirewallPolicy} (hmode : policy.mode = .hard)
    (hpers : policy.persistent = true) {op : FwOp} {self : WfpEngine} {w : FwWorld}
    {ts : List fwEnv.Turn} (h : HardInstalled w.table) (hkeep : op.Keeping policy)
    (hok : op.HardOk self w ts) : HardInstalled (Prog.exec fwEnv (op.run self) w ts).2.table := by
  have hfree {p : FwProg (Status × WfpEngine)} :
      Prog.Meets fwEnv (SweepCond (fun _ _ => True) fun _ => True) p w ts := by
    refine Prog.meets_of_forall (fun call _ _ => ?_) p w ts
    cases call <;> trivial
  cases op with
  | clear => exact absurd rfl hkeep.1
  | openEngine => exact Spec.exec (openEngine_spec (fun _ => h) fun _ => h.closeSession _) hfree
  | close => exact Spec.exec (close_spec (fun _ => h) fun _ _ _ => h.closeSession _) hfree
  | apply other =>
    obtain rfl := hkeep.2 other rfl
    have htarget : FwOp.target (.apply other) = some (policySpecs other) := by
      simp [FwOp.target, hmode]
    exact Spec.exec (op_spec htarget (fun _ => h) fun _ _ _ hrep _ => hrep.hardInstalled hpers) hfree
  | reconcile =>
    have htarget : FwOp.target .reconcile = some [] := rfl
    refine Spec.exec (op_spec htarget (fun _ => h) ?_) (hok rfl)
    rintro engine t b' ⟨s, hs, rfl, hb⟩ hb'
    exact h.left hs (hb.mp hb').2.1

theorem hostStep_hard {policy : FirewallPolicy} (hmode : policy.mode = .hard)
    (hpers : policy.persistent = true) {h h' : Host} {e : HostEvent}
    (hinst : HardInstalled h.world.table) (hkeep : e.Keeping policy) (hok : HardOk h e)
    (hstep : hostStep h e = some h') : HardInstalled h'.world.table := by
  obtain ⟨engine, w⟩ := h
  cases engine with
  | none =>
    cases e with
    | start =>
      cases hstep
      exact hinst
    | op op ts => cases hstep
    | crash op ts => cases hstep
    | reboot op ts =>
      cases hstep
      exact hinst.reboot
  | some self =>
    cases e with
    | start => cases hstep
    | op op ts =>
      have hpoint := op_hard hmode hpers hinst hkeep (hok self rfl)
      simp only [hostStep] at hstep
      split at hstep
      · rename_i r w' he
        cases hstep
        rw [he] at hpoint
        exact hpoint
      · cases hstep
    | crash op ts =>
      have hpoint := op_hard hmode hpers hinst hkeep (hok self rfl)
      cases hstep
      exact hpoint.crash
    | reboot op ts =>
      have hpoint := op_hard hmode hpers hinst hkeep (hok self rfl)
      cases hstep
      exact hpoint.reboot

/-- Once an `apply` of a hard, persistent policy has returned ok, the
block-all filters stay installed through every run of the host that makes
neither a `clear` nor an `apply` of another policy and whose `reconcile`s list
no block-all filter: after every event, and at every point of an operation. -/
theorem hard_holds (policy : FirewallPolicy) (self self' : WfpEngine) (w w' : FwWorld)
    (ts : List fwEnv.Turn) (st : Status) (es : List HostEvent) (h : Host)
    (hmode : policy.mode = .hard) (hpers : policy.persistent = true)
    (happly : Prog.exec fwEnv (self.apply policy) w ts = (.ret (st, self'), w'))
    (hok : st.isOk = true) (hrun : run hostStep ⟨some self', w'⟩ es = some h)
    (hmeets : RunMeets hostStep (fun h e => e.Keeping policy ∧ HardOk h e) ⟨some self', w'⟩ es) :
    HardInstalled h.world.table ∧
    ∀ (self : WfpEngine) (op : FwOp) (ts : List fwEnv.Turn), h.engine = some self →
      op.Keeping policy → op.HardOk self h.world ts →
      HardInstalled (Prog.exec fwEnv (op.run self) h.world ts).2.table := by
  have htarget : FwOp.target (.apply policy) = some (policySpecs policy) := by
    simp [FwOp.target, hmode]
  have hstart : HardInstalled w'.table := by
    rcases op_outcome htarget happly with ⟨herr, -, -⟩ | ⟨-, -, -, engine, -, t, rfl, hrep⟩
    · rw [Status.isError_eq_not_isOk, hok] at herr
      cases herr
    · exact hrep.hardInstalled hpers
  have hend : HardInstalled h.world.table :=
    run_invariant (I := fun h => HardInstalled h.world.table)
      (fun _ _ _ hi hk hs => hostStep_hard hmode hpers hi hk.1 hk.2 hs) hstart hmeets hrun
  exact ⟨hend, fun self op ts _ hkeep hop => op_hard hmode hpers hend hkeep hop⟩

/-- The hard policy without exceptions. -/
def hardPolicy : FirewallPolicy where
  mode := .hard
  persistent := true

/-- The engine after the policy was applied, every call succeeding. -/
def hardHost : Host :=
  ⟨some { engine := some 0, engaged := true, policy := some hardPolicy },
    (Prog.exec fwEnv (WfpEngine.apply { engine := some 0 } hardPolicy)
      { table := .empty, sessions := [0], nextSession := 1 } (List.replicate 16 fwQuietTurn)).2⟩

/-- The process crashes and the machine restarts: the filters hold. -/
theorem hard_holds_restart :
    ∃ h, run hostStep hardHost [.crash .openEngine [], .reboot .openEngine [], .start] = some h ∧
      HardInstalled h.world.table := by
  have hmeets : RunMeets hostStep (fun h e => e.Keeping hardPolicy ∧ HardOk h e) hardHost
      [.crash .openEngine [], .reboot .openEngine [], .start] := by
    refine ⟨⟨⟨nofun, nofun⟩, fun _ _ => nofun⟩, fun h hs => ?_⟩
    refine ⟨⟨⟨nofun, nofun⟩, fun _ _ => nofun⟩, fun h hs => ?_⟩
    exact ⟨⟨trivial, trivial⟩, fun _ _ => trivial⟩
  exact ⟨_, rfl, (hard_holds hardPolicy { engine := some 0 } _
    { table := .empty, sessions := [0], nextSession := 1 } _ (List.replicate 16 fwQuietTurn)
    Status.ok _ _ rfl rfl rfl rfl rfl hmeets).1⟩

/-- A crash, and the next start of the service: the engine is opened and
reconciled, and the kill switch is gone. -/
theorem reconcile_releases_hard :
    ¬ ∀ (policy : FirewallPolicy) (self self' : WfpEngine) (w w' : FwWorld)
      (ts : List fwEnv.Turn) (st : Status) (es : List HostEvent) (h : Host),
      policy.mode = .hard → policy.persistent = true →
      Prog.exec fwEnv (self.apply policy) w ts = (.ret (st, self'), w') → st.isOk = true →
      run hostStep ⟨some self', w'⟩ es = some h → (∀ e ∈ es, e.Keeping policy) →
      HardInstalled h.world.table := by
  intro hall
  have hkeep : ∀ e ∈ [HostEvent.crash .openEngine [], .start,
      .op .openEngine (List.replicate 3 fwQuietTurn), .op .reconcile (List.replicate 16 fwQuietTurn)],
      e.Keeping hardPolicy := by
    simp [HostEvent.Keeping, FwOp.Keeping]
  have hinst := hall hardPolicy { engine := some 0 } _
    { table := .empty, sessions := [0], nextSession := 1 } _ (List.replicate 16 fwQuietTurn)
    Status.ok _ _ rfl rfl rfl rfl rfl hkeep
  obtain ⟨f, hf, -⟩ := hinst .connectV4 (by decide)
  cases hf

end NovaVpn.Firewall
