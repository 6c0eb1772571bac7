import NovaVpn.Tunnel.Threads

/-!
# Engines and the tunnel that owns them

An engine whose `start` has returned ok and whose `stop` was not called is to
be the one the tunnel has attached; there is to be none once the tunnel is
Disconnected and at rest; and what an engine that is not attached calls back
with is to change nothing.

`connect` attaches its engine before it stores Connecting and starts it
without the lock, it replaces an engine that has reported Faulted or
Disconnected without stopping it, and the callbacks of a host do not say which
engine they come from. `engines_owned` is about the runs that keep clear of
these: `EngineOk`.
-/

namespace NovaVpn

open NovaVpn.Framework

/-- Within `disconnect`, and past its first section. -/
def Phase.disconnecting : Phase → Bool
  | .stopping _ | .inStop | .stopped => true
  | _ => false

/-- The engine a `connect` has created and not started yet. -/
def Phase.holds : Phase → Option Nat
  | .created e | .announcing e _ => some e
  | _ => none

/-- The engine whose thread calls back. -/
def ThreadAct.host : ThreadAct → Option Nat
  | .engineState e _ _ | .sessionSet e | .counters e _ => some e
  | _ => none

/-- An engine that runs is the one attached, and there is none when the tunnel
is Disconnected and no call is in progress. -/
structure EnginesOwned (s : TunnelThreads) : Prop where
  attached : ∀ e, s.life e = .running → s.engine = some e
  ended : s.state = .disconnected → (∀ t, s.phase t = .idle) → ∀ e, s.life e ≠ .running

/-- A callback of an engine that is not attached changes nothing. -/
def StaleInert (s : TunnelThreads) (act : ThreadAct) (s' : TunnelThreads) : Prop :=
  ∀ e, act.host = some e → s.engine ≠ some e →
    s'.state = s.state ∧ s'.session = s.session ∧ s'.statistics = s.statistics

/-- An engine is created while the one attached, if there is one, is neither
starting nor running; it is started while it is attached and every
`disconnect` in progress has still to stop it; callbacks come from the engine
attached, and Disconnected only from one that was stopped or failed to
start. -/
def EngineOk (s : TunnelThreads) : ThreadAct → Prop
  | .connectCreate _ created _ => s.state ≠ .connected → s.registry = true →
    created.isError = false → ∀ e, s.engine = some e → (s.life e).active = false
  | .connectStart _ e _ =>
    s.engine = some e ∧ ∀ t, (s.phase t).disconnecting = true → s.phase t = .stopping e
  | .engineState e state _ =>
    s.engine = some e ∧ (state = .disconnected → (s.life e).active = false)
  | .sessionSet e => s.engine = some e
  | .counters e _ => s.engine = some e
  | _ => True

/-! ## The invariant -/

/-- What a thread's place says of the engines. -/
def PhaseOwn (s : TunnelThreads) : Phase → Prop
  | .created e => s.life e = .fresh ∧ e < s.created
  | .announcing e _ => s.life e = .fresh ∧ e < s.created ∧
    (s.engine = some e → s.state ≠ .disconnected)
  | .starting e => s.life e ≠ .fresh
  | .stopping e => ∀ e', (s.life e').active = true → e' = e
  | .inStop | .stopped => ∀ e', (s.life e').active = false
  | _ => True

structure OwnInv (s : TunnelThreads) : Prop where
  current : ∀ e, (s.life e).active = true → s.engine = some e
  state : ∀ e, (s.life e).active = true → s.state ≠ .disconnected
  unborn : ∀ e, s.created ≤ e → s.life e = .fresh
  phases : ∀ t, PhaseOwn s (s.phase t)
  only : ∀ t t' e, (s.phase t).holds = some e → (s.phase t').holds = some e → t = t'

theorem OwnInv.owned {s : TunnelThreads} (h : OwnInv s) : EnginesOwned s where
  attached e he := h.current e (by rw [he]; rfl)
  ended hstate _ e he := h.state e (by rw [he]; rfl) hstate

/-- A step that creates and starts no engine: it may end engines and detach
the one attached. -/
structure OwnFrame (s s' : TunnelThreads) : Prop where
  fresh : ∀ e, s'.life e = .fresh ↔ s.life e = .fresh
  active : ∀ e, (s'.life e).active = true → (s.life e).active = true
  created : s'.created = s.created
  engine : ∀ e, s'.engine = some e → s.engine = some e
  kept : ∀ e, (s'.life e).active = true → s.engine = some e → s'.engine = some e
  disconnected : ∀ e, s'.engine = some e → s'.state = .disconnected →
    s.state = .disconnected ∨ s.life e ≠ .fresh ∧ (s'.life e).active = false

namespace OwnFrame

variable {s s' : TunnelThreads}

/-- Nothing changes but phases, the session, the statistics, the log and a
state that is not Disconnected. -/
theorem of_eq (hlife : s'.life = s.life) (hcreated : s'.created = s.created)
    (hengine : s'.engine = s.engine)
    (hstate : s'.state = .disconnected → s.state = .disconnected) : OwnFrame s s' where
  fresh e := by rw [hlife]
  active e := by rw [hlife]; exact id
  created := hcreated
  engine e := by rw [hengine]; exact id
  kept e _ := by rw [hengine]; exact id
  disconnected e _ hd := .inl (hstate hd)

theorem of_live (hlife : s'.life = s.life) (hcreated : s'.created = s.created)
    (hengine : s'.engine = s.engine) (hstate : s'.state ≠ .disconnected) : OwnFrame s s' :=
  of_eq hlife hcreated hengine fun hd => absurd hd hstate

/-- The engine attached, which is not active, is detached. -/
theorem of_detached (hlife : s'.life = s.life) (hcreated : s'.created = s.created)
    (hengine : s'.engine = none) (hnone : ∀ e, (s.life e).active = false) : OwnFrame s s' where
  fresh e := by rw [hlife]
  active e := by rw [hlife]; exact id
  created := hcreated
  engine e he := by rw [hengine] at he; cases he
  kept e he := by rw [hlife, hnone e] at he; cases he
  disconnected e he := by rw [hengine] at he; cases he

/-- One engine goes on with its life, and does not become active. -/
theorem of_life {e : Nat} {l : EngineLife} (hlife : s'.life = Function.update s.life e l)
    (hborn : s.life e ≠ .fresh) (hl : l ≠ .fresh)
    (hactive : l.active = true → (s.life e).active = true) (hcreated : s'.created = s.created)
    (hengine : s'.engine = s.engine) (hstate : s'.state = s.state) : OwnFrame s s' where
  fresh := by
    rw [hlife, Function.forall_update_iff s.life fun e' l => l = .fresh ↔ s.life e' = .fresh]
    exact ⟨⟨fun h => absurd h hl, fun h => absurd h hborn⟩, fun _ _ => Iff.rfl⟩
  active := by
    rw [hlife, Function.forall_update_iff s.life fun e' l =>
      l.active = true → (s.life e').active = true]
    exact ⟨hactive, fun _ _ => id⟩
  created := hcreated
  engine e' := by rw [hengine]; exact id
  kept e' _ := by rw [hengine]; exact id
  disconnected e' _ hd := .inl (hstate ▸ hd)

theorem of_ended {e : Nat} (hlife : s'.life = Function.update s.life e .ended)
    (hborn : s.life e ≠ .fresh) (hcreated : s'.created = s.created)
    (hengine : s'.engine = s.engine) (hstate : s'.state = s.state) : OwnFrame s s' :=
  of_life hlife hborn (by decide) (fun hactive => by cases hactive) hcreated hengine hstate

theorem phaseOwn (hf : OwnFrame s s') {p : Phase} (h : PhaseOwn s p) : PhaseOwn s' p := by
  have hinactive : ∀ e, (s.life e).active = false → (s'.life e).active = false := by
    intro e he
    by_contra hne
    rw [hf.active e (eq_true_of_ne_false hne)] at he
    cases he
  cases p with
  | created e => exact ⟨(hf.fresh e).mpr h.1, by rw [hf.created]; exact h.2⟩
  | announcing e previous =>
    refine ⟨(hf.fresh e).mpr h.1, by rw [hf.created]; exact h.2.1, fun hengine hstate => ?_⟩
    obtain hd | ⟨hne, -⟩ := hf.disconnected e hengine hstate
    · exact h.2.2 (hf.engine e hengine) hd
    · exact hne h.1
  | starting e => exact fun he => h ((hf.fresh e).mp he)
  | stopping e => exact fun e' he => h e' (hf.active e' he)
  | inStop => exact fun e => hinactive e (h e)
  | stopped => exact fun e => hinactive e (h e)
  | _ => trivial

end OwnFrame

namespace OwnInv

variable {s s' : TunnelThreads}

/-- A thread that moves on holds no engine that it did not hold. -/
theorem holds_of_update {t : Nat} {p : Phase} (hphase : s'.phase = Function.update s.phase t p)
    (hholds : ∀ e, p.holds = some e → (s.phase t).holds = some e) :
    ∀ t' e, (s'.phase t').holds = some e → (s.phase t').holds = some e := by
  rw [hphase, Function.forall_update_iff s.phase fun t' q =>
    ∀ e, q.holds = some e → (s.phase t').holds = some e]
  exact ⟨hholds, fun _ _ _ => id⟩

/-- One thread moves on, and holds no engine it did not hold. -/
theorem move (h : OwnInv s) (hf : OwnFrame s s') {t : Nat} {p : Phase}
    (hphase : s'.phase = Function.update s.phase t p) (hp : PhaseOwn s' p)
    (hholds : ∀ e, p.holds = some e → (s.phase t).holds = some e) : OwnInv s' := by
  have hcurrent : ∀ e, (s'.life e).active = true → s'.engine = some e :=
    fun e he => hf.kept e he (h.current e (hf.active e he))
  have hold := holds_of_update hphase hholds
  refine ⟨hcurrent, fun e he hstate => ?_, fun e he => ?_, ?_, fun t₁ t₂ e h₁ h₂ => ?_⟩
  · obtain hd | ⟨-, hi⟩ := hf.disconnected e (hcurrent e he) hstate
    · exact h.state e (hf.active e he) hd
    · rw [he] at hi
      cases hi
  · rw [hf.created] at he
    exact (hf.fresh e).mpr (h.unborn e he)
  · rw [hphase, Function.forall_update_iff s.phase fun _ q => PhaseOwn s' q]
    exact ⟨hp, fun t' _ => hf.phaseOwn (h.phases t')⟩
  · exact h.only t₁ t₂ e (hold t₁ e h₁) (hold t₂ e h₂)

/-- One thread moves on, and holds no engine. -/
theorem release (h : OwnInv s) (hf : OwnFrame s s') {t : Nat} {p : Phase}
    (hphase : s'.phase = Function.update s.phase t p) (hp : PhaseOwn s' p)
    (hnone : p.holds = none) : OwnInv s' := by
  refine h.move hf hphase hp fun e he => ?_
  rw [hnone] at he
  cases he

/-- No thread moves. -/
theorem stay (h : OwnInv s) (hf : OwnFrame s s') (hphase : s'.phase = s.phase) : OwnInv s' :=
  h.move hf (t := 0) (hphase.trans (Function.update_eq_self 0 s.phase).symm)
    (hf.phaseOwn (h.phases 0)) fun _ he => he

theorem inactive_of_attached (h : OwnInv s)
    (hattached : ∀ e, s.engine = some e → (s.life e).active = false) (e : Nat) :
    (s.life e).active = false := by
  by_contra hne
  have hactive := eq_true_of_ne_false hne
  rw [hattached e (h.current e hactive)] at hactive
  cases hactive

/-- A `disconnect` past its `stop` has ended every engine. -/
theorem inactive_of_stopped (h : OwnInv s) {t : Nat}
    (ht : s.phase t = .inStop ∨ s.phase t = .stopped) (e : Nat) : (s.life e).active = false := by
  have hown := h.phases t
  obtain ht | ht := ht
  · rw [ht] at hown
    exact hown e
  · rw [ht] at hown
    exact hown e

/-- A thread's place, when a new engine is attached and none is active. -/
theorem phaseOwn_create (hnone : ∀ e, (s'.life e).active = false) (hlife : s'.life = s.life)
    (hcreated : s'.created = s.created + 1) (hengine : s'.engine = some s.created) {p : Phase}
    (hown : PhaseOwn s p) : PhaseOwn s' p := by
  have hactive : ∀ e, ¬ (s'.life e).active = true := fun e he => by rw [hnone e] at he; cases he
  cases p with
  | created e => exact ⟨by rw [hlife]; exact hown.1, by have := hown.2; omega⟩
  | announcing e previous =>
    have hlt := hown.2.1
    refine ⟨by rw [hlife]; exact hown.1, by omega, fun he => ?_⟩
    rw [hengine] at he
    cases he
    omega
  | starting e =>
    rw [PhaseOwn, hlife]
    exact hown
  | stopping e => exact fun e' he => absurd he (hactive e')
  | inStop => exact hnone
  | stopped => exact hnone
  | _ => trivial

/-- A new engine is attached while no engine is active. -/
theorem create (h : OwnInv s) (hinactive : ∀ e, (s.life e).active = false) {t : Nat} {p : Phase}
    (hlife : s'.life = s.life) (hcreated : s'.created = s.created + 1)
    (hengine : s'.engine = some s.created) (hphase : s'.phase = Function.update s.phase t p)
    (hp : p = .idle ∨ p = .created s.created) : OwnInv s' := by
  have hnone : ∀ e, (s'.life e).active = false := fun e => by rw [hlife]; exact hinactive e
  have hactive : ∀ e, ¬ (s'.life e).active = true := fun e he => by rw [hnone e] at he; cases he
  have hlt : ∀ t' e, (s.phase t').holds = some e → e < s.created := by
    intro t' e he
    have hown := h.phases t'
    revert he hown
    cases s.phase t' <;> intro he hown <;> cases he
    · exact hown.2
    · exact hown.2.1
  have hpholds : ∀ e, p.holds = some e → e = s.created := by
    intro e he
    obtain rfl | rfl := hp
    · cases he
    · exact (Option.some.inj he).symm
  refine ⟨fun e he => absurd he (hactive e), fun e he => absurd he (hactive e), fun e he => ?_,
    ?_, fun t₁ t₂ e h₁ h₂ => ?_⟩
  · rw [hlife]
    exact h.unborn e (by omega)
  · rw [hphase, Function.forall_update_iff s.phase fun _ q => PhaseOwn s' q]
    refine ⟨?_, fun t' _ => ?_⟩
    · obtain rfl | rfl := hp
      · trivial
      · exact ⟨by rw [hlife]; exact h.unborn _ (Nat.le_refl _), by omega⟩
    · exact phaseOwn_create hnone hlife hcreated hengine (h.phases t')
  · rw [hphase] at h₁ h₂
    by_cases heq₁ : t₁ = t <;> by_cases heq₂ : t₂ = t
    · rw [heq₁, heq₂]
    · rw [heq₁, Function.update_self] at h₁
      rw [Function.update_of_ne heq₂] at h₂
      have hlt₂ := hlt t₂ e h₂
      rw [hpholds e h₁] at hlt₂
      omega
    · rw [heq₂, Function.update_self] at h₂
      rw [Function.update_of_ne heq₁] at h₁
      have hlt₁ := hlt t₁ e h₁
      rw [hpholds e h₂] at hlt₁
      omega
    · rw [Function.update_of_ne heq₁] at h₁
      rw [Function.update_of_ne heq₂] at h₂
      exact h.only t₁ t₂ e h₁ h₂

/-- The place of another thread, when engine `e` starts: it does not hold
`e`, and would stop no other engine. -/
theorem phaseOwn_start {e : Nat} (hne : ∀ e', e' ≠ e → s'.life e' = s.life e')
    (hstarted : s'.life e = .starting) (honly : ∀ e', (s'.life e').active = true → e' = e)
    (hcreated : s'.created = s.created) (hengine : s'.engine = s.engine)
    (hstate : s'.state = s.state) {p : Phase} (hother : ∀ e', p.holds = some e' → e' ≠ e)
    (hstop : p.disconnecting = true → p = .stopping e) (hown : PhaseOwn s p) : PhaseOwn s' p := by
  cases p with
  | created e' =>
    exact ⟨by rw [hne e' (hother e' rfl)]; exact hown.1, by rw [hcreated]; exact hown.2⟩
  | announcing e' previous' =>
    refine ⟨by rw [hne e' (hother e' rfl)]; exact hown.1, by rw [hcreated]; exact hown.2.1, ?_⟩
    rw [hengine, hstate]
    exact hown.2.2
  | starting e' =>
    by_cases hee : e' = e
    · subst hee
      rw [PhaseOwn, hstarted]
      decide
    · rw [PhaseOwn, hne e' hee]
      exact hown
  | stopping e' =>
    cases hstop rfl
    exact honly
  | inStop => cases hstop rfl
  | stopped => cases hstop rfl
  | _ => trivial

/-- The engine attached is started, while no `disconnect` is past the point
where it would stop it. -/
theorem start (h : OwnInv s) {t e : Nat} {previous : ConnectionState}
    (ht : s.phase t = .announcing e previous) (hattached : s.engine = some e)
    (hstops : ∀ t', (s.phase t').disconnecting = true → s.phase t' = .stopping e)
    (hlife : s'.life = Function.update s.life e .starting) (hcreated : s'.created = s.created)
    (hengine : s'.engine = s.engine) (hstate : s'.state = s.state)
    (hphase : s'.phase = Function.update s.phase t (.starting e)) : OwnInv s' := by
  have hself := h.phases t
  rw [ht] at hself
  have hne : ∀ e', e' ≠ e → s'.life e' = s.life e' := by
    intro e' hne
    rw [hlife, Function.update_of_ne hne]
  have hstarted : s'.life e = .starting := by rw [hlife, Function.update_self]
  -- any other active engine would be attached as well
  have honly : ∀ e', (s'.life e').active = true → e' = e := by
    intro e' he
    by_contra hcon
    rw [hne e' hcon] at he
    have hboth := h.current e' he
    rw [hattached] at hboth
    exact hcon (Option.some.inj hboth).symm
  refine ⟨fun e' he => ?_, fun e' he => ?_, fun e' he => ?_, ?_, fun t₁ t₂ e' h₁ h₂ => ?_⟩
  · rw [honly e' he, hengine, hattached]
  · rw [hstate]
    exact hself.2.2 hattached
  · rw [hcreated] at he
    have hlt := hself.2.1
    rw [hne e' (by omega)]
    exact h.unborn e' he
  · rw [hphase, Function.forall_update_iff s.phase fun _ q => PhaseOwn s' q]
    refine ⟨?_, fun t' heq => ?_⟩
    · rw [PhaseOwn, hstarted]
      decide
    · refine phaseOwn_start hne hstarted honly hcreated hengine hstate ?_ (hstops t') (h.phases t')
      rintro e' he' rfl
      exact heq (h.only t' t e' he' (by rw [ht]; rfl))
  · have hold := holds_of_update hphase fun e he => by cases he
    exact h.only t₁ t₂ e' (hold t₁ e' h₁) (hold t₂ e' h₂)

/-- Where `disconnect` goes on. -/
def stopPhase : Option Nat → Phase
  | some e => .stopping e
  | none => .stopped

/-- `disconnect` goes on to stop the engine attached, or past that if there
is none. -/
theorem disconnectBegin (h : OwnInv s) (t : Nat) : OwnInv (s.disconnectSection t) := by
  rw [TunnelThreads.disconnectSection]
  split
  · exact h.stay (.of_eq rfl rfl rfl id) rfl
  · refine h.release (.of_live rfl rfl rfl fun hd => by cases hd) (p := stopPhase s.engine) rfl ?_ ?_
    · cases hengine : s.engine with
      | none => exact h.inactive_of_attached fun e he => by rw [hengine] at he; cases he
      | some e =>
        intro e' hactive
        have hcur := h.current e' hactive
        rw [hengine] at hcur
        exact (Option.some.inj hcur).symm
    · cases s.engine with
      | none => rfl
      | some e => rfl

/-- `stop` ends the only engine that may be active. -/
theorem stopCall (h : OwnInv s) {t e : Nat} (ht : s.phase t = .stopping e) :
    OwnInv (s.effect (.stopCall t e)) := by
  have hown := h.phases t
  rw [ht] at hown
  have hother : ∀ e', e' ≠ e → (s.life e').active = false := by
    intro e' hne
    by_contra hactive
    exact hne (hown e' (eq_true_of_ne_false hactive))
  rw [TunnelThreads.effect]
  split
  · next hactive =>
    have hborn : s.life e ≠ .fresh := by
      intro hfresh
      rw [hfresh] at hactive
      cases hactive
    refine h.release (.of_ended rfl hborn rfl rfl rfl) rfl ?_ rfl
    show ∀ e', (Function.update s.life e .ended e').active = false
    rw [Function.forall_update_iff s.life fun _ l => l.active = false]
    exact ⟨rfl, hother⟩
  · next hactive =>
    refine h.release (.of_eq rfl rfl rfl id) rfl (fun e' => ?_) rfl
    by_cases he : e' = e
    · subst he
      exact eq_false_of_ne_true hactive
    · exact hother e' he

/-- Every step that meets the condition keeps the invariant. -/
theorem step {act : ThreadAct} (h : OwnInv s) (hok : EngineOk s act)
    (hs : s.step act = some s') : OwnInv s' := by
  obtain ⟨hallow, rfl⟩ := TunnelThreads.step_eq_some.mp hs
  cases act with
  | connectGuard t =>
    rw [TunnelThreads.effect]
    split
    · exact h.stay (.of_eq rfl rfl rfl id) rfl
    · exact h.release (.of_eq rfl rfl rfl id) rfl trivial rfl
  | connectCreate t created validated =>
    rw [TunnelThreads.effect, TunnelThreads.connectSection]
    split
    · exact h.release (.of_eq rfl rfl rfl id) rfl trivial rfl
    · next hpass =>
      simp only [not_or, Bool.not_eq_false, Bool.not_eq_true] at hpass
      have hinactive := h.inactive_of_attached (hok hpass.1 hpass.2.1 hpass.2.2)
      refine h.create hinactive rfl rfl rfl rfl ?_
      split
      · exact .inl rfl
      · exact .inr rfl
  | connectExchange t e =>
    have ht : s.phase t = .created e := beq_iff_eq.mp hallow
    have hown := h.phases t
    rw [ht] at hown
    refine h.move (.of_live rfl rfl rfl fun hd => by cases hd) rfl
      ⟨hown.1, hown.2, fun _ hd => by cases hd⟩ fun e' he' => ?_
    rw [ht]
    exact he'
  | connectStart t e previous =>
    exact h.start (beq_iff_eq.mp hallow) hok.1 hok.2 rfl rfl rfl rfl rfl
  | startReturned t e started =>
    have hown := h.phases t
    rw [beq_iff_eq.mp hallow] at hown
    rw [TunnelThreads.effect]
    split
    · exact h.release (.of_ended rfl hown rfl rfl rfl) rfl trivial rfl
    · split
      · next hstarting =>
        have hactive : (s.life e).active = true := by rw [hstarting]; rfl
        exact h.release (.of_life rfl hown (by decide) (fun _ => hactive) rfl rfl rfl) rfl trivial rfl
      · exact h.release (.of_eq rfl rfl rfl id) rfl trivial rfl
  | faultExchange t reason => exact h.release (.of_live rfl rfl rfl fun hd => by cases hd) rfl trivial rfl
  | faultPublish t previous reason => exact h.release (.of_eq rfl rfl rfl id) rfl trivial rfl
  | disconnectBegin t => exact h.disconnectBegin t
  | stopCall t e => exact h.stopCall (beq_iff_eq.mp hallow)
  | stopReturned t =>
    have hnone := h.inactive_of_stopped (.inl (beq_iff_eq.mp hallow))
    exact h.release (.of_eq rfl rfl rfl id) rfl hnone rfl
  | disconnectEnd t =>
    rw [TunnelThreads.allows, Bool.and_eq_true] at hallow
    have hnone := h.inactive_of_stopped (.inr (beq_iff_eq.mp hallow.1))
    exact h.release (.of_detached rfl rfl rfl hnone) rfl trivial rfl
  | reconnectRead t =>
    rw [TunnelThreads.effect]
    split
    · exact h
    · exact h.release (.of_eq rfl rfl rfl id) rfl trivial rfl
  | reconnectExchange t => exact h.release (.of_live rfl rfl rfl fun hd => by cases hd) rfl trivial rfl
  | reconnectReturned t previous => exact h.release (.of_eq rfl rfl rfl id) rfl trivial rfl
  | engineState e state reason =>
    rw [TunnelThreads.allows, TunnelThreads.calls, Bool.and_eq_true, Bool.and_eq_true] at hallow
    have hborn : s.life e ≠ .fresh := bne_iff_ne.mp hallow.1.1
    rw [TunnelThreads.effect, TunnelThreads.onEngineState]
    have hframe : ∀ s' : TunnelThreads, s'.life = s.life → s'.created = s.created →
        s'.engine = s.engine → s'.state = state → OwnFrame s s' := by
      intro s' hlife hcreated hengine hstate
      refine ⟨fun e' => by rw [hlife], fun e' => by rw [hlife]; exact id, hcreated,
        fun e' => by rw [hengine]; exact id, fun e' _ => by rw [hengine]; exact id,
        fun e' he' hd => .inr ?_⟩
      rw [hengine, hok.1] at he'
      cases he'
      rw [hlife]
      exact ⟨hborn, hok.2 (hstate.symm.trans hd)⟩
    split
    · exact h.stay (hframe _ rfl rfl rfl rfl) rfl
    · exact h.stay (hframe _ rfl rfl rfl rfl) rfl
  | sessionSet e => exact h.stay (.of_eq rfl rfl rfl id) rfl
  | sessionUp e => exact h.stay (.of_eq rfl rfl rfl id) rfl
  | counters e c => exact h.stay (.of_eq rfl rfl rfl id) rfl

end OwnInv

/-- In every run whose steps meet the condition the engines that run are owned,
and at every step callbacks of engines not attached change nothing. -/
theorem engines_owned {registry : Bool} {acts : List ThreadAct} {s : TunnelThreads}
    (hok : RunMeets TunnelThreads.step EngineOk { registry } acts)
    (hr : run TunnelThreads.step { registry } acts = some s) :
    EnginesOwned s ∧ ∀ before act after, acts = before ++ act :: after →
      ∀ s₁ s₂, run TunnelThreads.step { registry } before = some s₁ →
        s₁.step act = some s₂ → StaleInert s₁ act s₂ := by
  have hinit : OwnInv { registry } := by
    refine ⟨fun e he => ?_, fun e he => ?_, fun _ _ => rfl, fun _ => trivial, fun t t' e he => ?_⟩ <;>
      cases he
  refine ⟨(run_invariant (fun _ _ _ h hok hs => h.step hok hs) hinit hok hr).owned, ?_⟩
  rintro before act after rfl s₁ s₂ hbefore - e hhost hstale
  have hact : EngineOk s₁ act := (runMeets_split hok hbefore).1
  cases act <;> cases hhost
  · exact absurd hact.1 hstale
  · exact absurd hact hstale
  · exact absurd hact hstale

theorem engines_owned_connected : ∃ s, run TunnelThreads.step {}
    (connectEngine ++ [.sessionSet 0, .sessionUp 0, .startReturned 1 0 .ok]) = some s ∧
      s.life 0 = .running ∧ EnginesOwned s := by
  have hok : RunMeets TunnelThreads.step EngineOk {}
      (connectEngine ++ [.sessionSet 0, .sessionUp 0, .startReturned 1 0 .ok]) := by
    refine runMeets_append ?_ fun s hs => ?_
    · refine ⟨trivial, fun _ h => ?_⟩
      cases h
      refine ⟨fun _ _ _ _ hattached => (by cases hattached), fun _ h => ?_⟩
      cases h
      refine ⟨trivial, fun _ h => ?_⟩
      cases h
      refine ⟨⟨rfl, fun t ht => ?_⟩, fun _ _ => trivial⟩
      -- thread 1 is inside `connect`, every other one is idle
      by_cases h1 : t = 1
      · subst h1
        cases ht
      · simp [TunnelThreads.effect, TunnelThreads.connectSection, TunnelThreads.setPhase,
          TunnelThreads.record, isTransitional, h1, Phase.disconnecting] at ht
    · cases hs
      exact ⟨rfl, fun _ _ => ⟨trivial, fun _ _ => ⟨trivial, fun _ _ => trivial⟩⟩⟩
  exact ⟨_, rfl, rfl, (engines_owned hok rfl).1⟩

/-- An engine that runs reports Faulted, and the next `connect` attaches
another one: the first is not stopped, and not attached. -/
theorem faulted_engine_orphaned : ∃ s, run TunnelThreads.step {}
    (connectEngine ++ [.startReturned 1 0 .ok,
      .engineState 0 .faulted (Err.make .handshakeFailed "link lost"), .connectGuard 1,
      .connectCreate 1 .ok .ok]) = some s ∧ ¬ EnginesOwned s := by
  refine ⟨_, rfl, fun h => ?_⟩
  have hattached : some 1 = some 0 := h.attached 0 rfl
  cases hattached

end NovaVpn
