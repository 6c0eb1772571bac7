import NovaVpn.Firewall.Exact
import NovaVpn.Framework.Machine

/-!
# What the engine reports, and what is installed

`isEngaged` and `currentPolicy` read two members; the filters are in the
platform. `Reported` says that they agree. An `apply` or `clear` that returns
an error changes neither (`op_outcome`), and one that returns ok
moves both, if its sweep is complete. `close` and `reconcile` do not touch
the members: the first drops the filters that are not persistent, the second
deletes them all (`close_stays_engaged`). `ReportOk` is the condition under
which neither matters, and `reported_of_run` the result over every run of an
engine.
-/

namespace NovaVpn.Firewall

open NovaVpn.Framework NovaVpn.Net

/-- The block-all filters are installed at both connect layers. -/
def BlockAllInstalled (t : FilterTable) : Prop :=
  ∀ layer ∈ connectLayers, ∃ f ∈ t.own, f.spec = blockAllFilter layer f.spec.persistent

/-- The filters of the policy are installed, or none if there is no policy. -/
def PolicyInstalled (policy : Option FirewallPolicy) (t : FilterTable) : Prop :=
  match policy with
  | some policy => policy.mode ≠ .off ∧ t.own.map (·.spec) = policySpecs policy
  | none => t.own = []

/-- The engine reports what is installed. -/
def Reported (self : WfpEngine) (t : FilterTable) : Prop :=
  (self.engaged = true ↔ BlockAllInstalled t) ∧ PolicyInstalled self.policy t

/-! ## Runs of an engine -/

/-- One operation, run to its end. -/
def engineStep (s : WfpEngine × FwWorld) (e : FwOp × List fwEnv.Turn) : Option (WfpEngine × FwWorld) :=
  match Prog.exec fwEnv (e.1.run s.1) s.2 e.2 with
  | (.ret r, w') => some (r.2, w')
  | (.call _ _, _) => none

theorem engineStep_eq_some {s s' : WfpEngine × FwWorld} {e : FwOp × List fwEnv.Turn}
    (h : engineStep s e = some s') :
    ∃ st, Prog.exec fwEnv (e.1.run s.1) s.2 e.2 = (.ret (st, s'.1), s'.2) := by
  unfold engineStep at h
  split at h
  · rename_i r w' he
    cases h
    exact ⟨r.1, he⟩
  · cases h

/-- The condition on a step: an engine with a policy is closed only if the
policy is persistent, and is not reconciled; and every sweep is complete. -/
def ReportOk (s : WfpEngine × FwWorld) (e : FwOp × List fwEnv.Turn) : Prop :=
  (e.1 = .close → ∀ policy, s.1.policy = some policy → policy.persistent = true) ∧
  (e.1 = .reconcile → s.1.policy = none) ∧
  Prog.Meets fwEnv SweepComplete (e.1.run s.1) s.2 e.2

/-- The invariant: the policy is the one installed, and no session is newer
than the next. -/
structure ReportInv (s : WfpEngine × FwWorld) : Prop where
  engaged : s.1.engaged = s.1.policy.isSome
  installed : PolicyInstalled s.1.policy s.2.table
  sessions : ∀ f ∈ s.2.table.own, ∀ session, f.session = some session → session < s.2.nextSession
  engine : ∀ session, s.1.engine = some session → session < s.2.nextSession

theorem PolicyInstalled.blockAll_iff {policy : Option FirewallPolicy} {t : FilterTable}
    (h : PolicyInstalled policy t) : policy.isSome = true ↔ BlockAllInstalled t := by
  cases policy with
  | none =>
    have hnil : t.own = [] := h
    refine ⟨fun hs => absurd hs Bool.false_ne_true, fun hb => ?_⟩
    obtain ⟨f, hf, -⟩ := hb .connectV4 (by decide)
    rw [hnil] at hf
    cases hf
  | some policy =>
    refine ⟨fun _ layer hl => ?_, fun _ => rfl⟩
    have hmem : blockAllFilter layer policy.persistent ∈ policySpecs policy :=
      mem_policySpecs.mpr (.inl ⟨layer, hl, rfl⟩)
    rw [← h.2] at hmem
    obtain ⟨f, hf, hspec⟩ := List.mem_map.mp hmem
    exact ⟨f, hf, by rw [hspec]; rfl⟩

theorem ReportInv.reported {s : WfpEngine × FwWorld} (h : ReportInv s) :
    Reported s.1 s.2.table := by
  refine ⟨?_, h.installed⟩
  rw [h.engaged]
  exact h.installed.blockAll_iff

/-! ## The steps -/

theorem FilterTable.own_keep (t : FilterTable) {p : Filter → Bool}
    (h : ∀ f ∈ t.own, p f = true) : (t.keep p).own = t.own := by
  rw [FilterTable.own, FilterTable.keep, List.filter_filter]
  refine List.filter_congr fun f hf => ?_
  cases ho : f.isOwn with
  | false => rfl
  | true => rw [h f (FilterTable.mem_own.mpr ⟨hf, ho⟩)]; rfl

/-- Closing a session that added no NovaVPN filter, or persistent ones only,
leaves them. -/
theorem FilterTable.own_closeSession {t : FilterTable} {session : Nat}
    (h : ∀ f ∈ t.own, f.spec.persistent = true ∨ f.session ≠ some session) :
    (t.closeSession session).own = t.own := by
  refine t.own_keep fun f hf => ?_
  simpa using h f hf

theorem PolicyInstalled.congr {policy : Option FirewallPolicy} {t t' : FilterTable}
    (h : PolicyInstalled policy t) (ht : t'.own = t.own) : PolicyInstalled policy t' := by
  cases policy with
  | none => exact ht.trans h
  | some policy => exact ⟨h.1, by rw [ht]; exact h.2⟩

theorem PolicyInstalled.persistent {policy : FirewallPolicy} {t : FilterTable}
    (h : PolicyInstalled (some policy) t) {f : Filter} (hf : f ∈ t.own) :
    f.spec.persistent = policy.persistent := by
  have hmem : f.spec ∈ policySpecs policy := h.2 ▸ List.mem_map_of_mem hf
  exact (policySpecs_stamp hmem).2.2

/-- A step that leaves the members alone but for the session, and the NovaVPN
filters as they are. -/
theorem ReportInv.of_own {s : WfpEngine × FwWorld} {self' : WfpEngine} {w' : FwWorld}
    (h : ReportInv s) (hpolicy : self'.policy = s.1.policy) (hengaged : self'.engaged = s.1.engaged)
    (hown : w'.table.own = s.2.table.own) (hnext : s.2.nextSession ≤ w'.nextSession)
    (hengine : ∀ session, self'.engine = some session → session < w'.nextSession) :
    ReportInv (self', w') where
  engaged := by
    show self'.engaged = self'.policy.isSome
    rw [hengaged, hpolicy, h.engaged]
  installed := by
    show PolicyInstalled self'.policy w'.table
    rw [hpolicy]
    exact h.installed.congr hown
  sessions f hf session hs := by
    have := h.sessions f (hown ▸ hf) session hs
    show session < w'.nextSession
    omega
  engine := hengine

theorem ReportInv.openEngine {s s' : WfpEngine × FwWorld} {ts : List fwEnv.Turn} {st : Status}
    (h : ReportInv s)
    (hrun : Prog.exec fwEnv (s.1.openEngine) s.2 ts = (.ret (st, s'.1), s'.2)) : ReportInv s' := by
  have hspec := Spec.post (openEngine_spec (G := ListsOwn) (F := (· = none)) (P := fun _ => True)
    (fun _ => trivial) (fun _ => trivial)) hrun
  have hfresh : (s.2.table.closeSession s.2.nextSession).own = s.2.table.own := by
    refine FilterTable.own_closeSession fun f hf => .inr fun hs => ?_
    exact Nat.lt_irrefl _ (h.sessions f hf _ hs)
  dsimp only at hspec
  obtain ⟨hnext, ⟨hself, ht⟩ | ⟨hself, ht, hlt⟩⟩ := hspec
  · refine h.of_own (by rw [hself]) (by rw [hself]) ?_ hnext fun session hs => ?_
    · rcases ht with ht | ht
      · rw [ht]
      · rw [ht, hfresh]
    · rw [hself] at hs
      exact Nat.lt_of_lt_of_le (h.engine session hs) hnext
  · refine h.of_own (by rw [hself]) (by rw [hself]) (by rw [ht]) hnext fun session hs => ?_
    rw [hself] at hs
    cases hs
    exact hlt

theorem ReportInv.close {s s' : WfpEngine × FwWorld} {ts : List fwEnv.Turn} {st : Status}
    (h : ReportInv s) (hok : ∀ policy, s.1.policy = some policy → policy.persistent = true)
    (hrun : Prog.exec fwEnv (s.1.close) s.2 ts = (.ret (st, s'.1), s'.2)) : ReportInv s' := by
  have hspec := Spec.post (close_spec (G := ListsOwn) (F := (· = none)) (P := fun _ => True)
    (fun _ => trivial) (fun _ _ _ => trivial)) hrun
  have hkept (session : Nat) : (s.2.table.closeSession session).own = s.2.table.own := by
    refine FilterTable.own_closeSession fun f hf => .inl ?_
    have hi := h.installed
    cases hp : s.1.policy with
    | none =>
      rw [hp] at hi
      rw [show s.2.table.own = [] from hi] at hf
      cases hf
    | some policy =>
      rw [hp] at hi
      rw [hi.persistent hf, hok policy hp]
  dsimp only at hspec
  obtain ⟨hnext, ⟨-, hself, ht⟩ | ⟨session, -, hself, ht⟩⟩ := hspec
  · refine h.of_own (by rw [hself]) (by rw [hself]) (by rw [ht]) hnext.ge fun session hs => ?_
    rw [hself] at hs
    rw [hnext]
    exact h.engine session hs
  · refine h.of_own (by rw [hself]) (by rw [hself]) (by rw [ht, hkept]) hnext.ge fun k hs => ?_
    rw [hself] at hs
    cases hs

theorem FwOp.engine_after (op : FwOp) (self : WfpEngine) : (op.after self).engine = self.engine := by
  unfold FwOp.after
  split
  · split <;> rfl
  · rfl
  · rfl

theorem FwOp.engaged_after (op : FwOp) {self : WfpEngine} (h : self.engaged = self.policy.isSome) :
    (op.after self).engaged = (op.after self).policy.isSome := by
  unfold FwOp.after
  split
  · split <;> rfl
  · rfl
  · exact h

/-- The policy after an operation is the one whose filters it is for. -/
theorem FwOp.installed_after (op : FwOp) {specs : List FilterSpec} {self : WfpEngine}
    {t : FilterTable} (htarget : op.target = some specs) (hrec : op = .reconcile → self.policy = none)
    (hown : t.own.map (·.spec) = specs) : PolicyInstalled (op.after self).policy t := by
  cases op with
  | openEngine => cases htarget
  | close => cases htarget
  | clear =>
    cases htarget
    exact List.map_eq_nil_iff.mp hown
  | reconcile =>
    cases htarget
    show PolicyInstalled self.policy t
    rw [hrec rfl]
    exact List.map_eq_nil_iff.mp hown
  | apply policy =>
    simp only [FwOp.target, Option.some.injEq] at htarget
    subst htarget
    by_cases hoff : policy.mode = .off
    · rw [if_pos hoff, List.map_eq_nil_iff] at hown
      simp only [FwOp.after, if_pos hoff]
      exact hown
    · rw [if_neg hoff] at hown
      simp only [FwOp.after, if_neg hoff]
      exact ⟨hoff, hown⟩

/-- The filters after a replacement belong to sessions already opened. -/
theorem Replaced.session_lt {G : Except UInt32 (List Filter) → FwWorld → Prop}
    {F : Option Failure → Prop} {w : FwWorld} {b b' : Prop} {engine : Nat}
    {specs : List FilterSpec} {t : FilterTable} (h : Replaced G F w b engine specs t b') {n : Nat}
    (hold : ∀ f ∈ w.table.own, ∀ session, f.session = some session → session < n)
    (hengine : engine < n) {f : Filter} (hf : f ∈ t.own) {session : Nat}
    (hs : f.session = some session) : session < n := by
  obtain ⟨s, -, rfl, -⟩ := h
  obtain ⟨new, hnew, -, hids⟩ := (s.left w.table).addEach_filters engine specs
  obtain ⟨hf, ho⟩ := FilterTable.mem_own.mp hf
  rw [hnew, List.mem_append] at hf
  rcases hf with hf | hf
  · exact hold f (FilterTable.mem_own.mpr ⟨(SweepOutcome.mem_left.mp hf).1, ho⟩) session hs
  · have := (hids f hf).2
    rw [hs] at this
    cases this
    exact hengine

/-- An operation that replaces the filters, with a complete sweep. -/
theorem ReportInv.replace {s s' : WfpEngine × FwWorld} {op : FwOp} {specs : List FilterSpec}
    {ts : List fwEnv.Turn} {st : Status} (h : ReportInv s) (htarget : op.target = some specs)
    (hrec : op = .reconcile → s.1.policy = none)
    (hsweep : Prog.Meets fwEnv SweepComplete (op.run s.1) s.2 ts)
    (hrun : Prog.exec fwEnv (op.run s.1) s.2 ts = (.ret (st, s'.1), s'.2)) : ReportInv s' := by
  rcases op_outcome htarget hrun with ⟨-, hself, hw⟩ | ⟨-, hself, -, engine, he, t, hw, hrep⟩
  · obtain rfl : s' = s := Prod.ext hself hw
    exact h
  dsimp only at hself
  have hinstalled : PolicyInstalled s'.1.policy t := by
    have hown := (hrep.own_eq_iff (FwOp.target_own htarget)).mpr hsweep
    rw [hself]
    exact op.installed_after htarget (fun hr => hrec hr) hown
  refine ⟨?_, ?_, fun f hf session hs => ?_, fun session hs => ?_⟩
  · rw [hself]
    exact op.engaged_after h.engaged
  · rw [hw]
    exact hinstalled
  · rw [hw] at hf ⊢
    exact hrep.session_lt h.sessions (h.engine engine he) hf hs
  · rw [hw]
    rw [hself, op.engine_after] at hs
    exact h.engine session hs

theorem ReportInv.step {s s' : WfpEngine × FwWorld} {e : FwOp × List fwEnv.Turn}
    (h : ReportInv s) (hok : ReportOk s e) (hstep : engineStep s e = some s') : ReportInv s' := by
  obtain ⟨op, ts⟩ := e
  obtain ⟨st, hrun⟩ := engineStep_eq_some hstep
  obtain ⟨hclose, hrec, hsweep⟩ := hok
  cases op with
  | openEngine => exact h.openEngine hrun
  | close => exact h.close (hclose rfl) hrun
  | apply policy => exact h.replace rfl hrec hsweep hrun
  | clear => exact h.replace rfl hrec hsweep hrun
  | reconcile => exact h.replace rfl hrec hsweep hrun

/-- Over every sequence of operations on a new engine, with any outcome of
every call, on a machine without NovaVPN filters: if the steps meet
`ReportOk`, the engine reports what is installed after each of them; and an
`apply` or `clear` that returns an error changes neither the filters nor the
members. -/
theorem reported_of_run (w : FwWorld) (es : List (FwOp × List fwEnv.Turn)) (s : WfpEngine × FwWorld)
    (hstart : w.table.own = []) (hrun : run engineStep ({}, w) es = some s) :
    (RunMeets engineStep ReportOk ({}, w) es → Reported s.1 s.2.table) ∧
    ∀ op : FwOp, (op = .clear ∨ ∃ policy, op = .apply policy) → ∀ ts st s',
      Prog.exec fwEnv (op.run s.1) s.2 ts = (.ret (st, s'.1), s'.2) → st.isError = true →
        s' = s := by
  constructor
  · intro hok
    have hinit : ReportInv ({}, w) := by
      refine ⟨rfl, hstart, fun f hf => ?_, fun session hs => ?_⟩
      · rw [hstart] at hf
        cases hf
      · cases hs
    exact (run_invariant (fun _ _ _ h hok hs => ReportInv.step h hok hs) hinit hok hrun).reported
  · rintro op hop ts st s' hexec herr
    obtain ⟨specs, htarget⟩ : ∃ specs, op.target = some specs := by
      rcases hop with rfl | ⟨policy, rfl⟩
      · exact ⟨[], rfl⟩
      · exact ⟨_, rfl⟩
    rcases op_outcome htarget hexec with ⟨-, hself, hw⟩ | ⟨hst, -⟩
    · exact Prod.ext hself hw
    · dsimp only at hst
      rw [hst] at herr
      cases herr

/-- The engine opened and a policy applied, every call succeeding. -/
def protectedRun (policy : FirewallPolicy) : List (FwOp × List fwEnv.Turn) :=
  [(.openEngine, List.replicate 16 fwQuietTurn), (.apply policy, List.replicate 16 fwQuietTurn)]

/-- After opening and applying the default policy, the block-all filters are
installed. -/
theorem reported_protected :
    ∃ s, run engineStep ({}, { table := .empty }) (protectedRun {}) = some s ∧
      s.1.engaged = true ∧ BlockAllInstalled s.2.table := by
  have h := reported_of_run { table := .empty } (protectedRun {}) _ rfl rfl
  have hmeets : RunMeets engineStep ReportOk ({}, { table := .empty }) (protectedRun {}) := by
    refine ⟨⟨nofun, nofun, trivial, trivial, trivial, trivial⟩, fun s hs => ?_⟩
    cases hs
    refine ⟨⟨nofun, nofun, trivial, trivial, nofun, trivial, ?_⟩, fun s hs => trivial⟩
    exact ⟨trivial, trivial, trivial, trivial, trivial, trivial, trivial, trivial⟩
  exact ⟨_, rfl, rfl, (h.1 hmeets).1.mp rfl⟩

/-- Closing an engine with a policy that is not persistent drops its filters,
and the engine still reports that it is engaged. -/
theorem close_stays_engaged :
    ¬ ∀ (w : FwWorld) (es : List (FwOp × List fwEnv.Turn)) (s : WfpEngine × FwWorld),
      w.table.own = [] → run engineStep ({}, w) es = some s → Reported s.1 s.2.table := by
  intro h
  have hrep := h { table := .empty } (protectedRun {} ++ [(.close, [fwQuietTurn])]) _ rfl rfl
  obtain ⟨f, hf, -⟩ := hrep.1.mp rfl .connectV4 (by decide)
  cases hf

end NovaVpn.Firewall
