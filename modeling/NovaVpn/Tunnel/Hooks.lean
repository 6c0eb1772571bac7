import NovaVpn.Tunnel.Threads

/-!
# Session hooks and the events they precede

`onSessionUp` and `onSessionDown` install and remove what a session needs of
the machine. They are to alternate, and to end with `onSessionDown` once a
`disconnect` has returned (`hooks_alternate`); and the tunnel is to be unwound
when it reports Disconnected or Faulted (`unwound_before_reported`).

Neither holds of every run. An engine that establishes a session again
overwrites the one that is set; `onSessionUp` runs outside the lock, so that a
release may come first; and `connect` reports a failed `start` without a
release. `HookOk` and `UnwindOk` are the conditions that leave these out.
-/

namespace NovaVpn

open NovaVpn.Framework

/-! ## Alternation -/

inductive Hook where
  | up
  | down
  deriving DecidableEq, Repr

/-- The hook called last. -/
def lastHook : List Entry → Option Hook
  | [] => none
  | .sessionUp :: _ => some .up
  | .sessionDown :: _ => some .down
  | _ :: es => lastHook es

/-- The hooks of a log alternate, and the first one is `onSessionUp`. -/
def Alternates : List Entry → Prop
  | [] => True
  | .sessionUp :: es => lastHook es ≠ some .up ∧ Alternates es
  | .sessionDown :: es => lastHook es = some .up ∧ Alternates es
  | _ :: es => Alternates es

/-- A `disconnect` has returned, and no `connect` was called after it. -/
def quiet : List Entry → Bool
  | [] => false
  | .disconnectReturned :: _ => true
  | .connectCalled :: _ => false
  | _ :: es => quiet es

/-- What the hooks are to be like. -/
structure HooksPaired (s : TunnelThreads) : Prop where
  alternates : Alternates s.log
  ended : quiet s.log = true → lastHook s.log ≠ some .up

/-- A session is established while none is set, and not after a `disconnect`
without a new `connect`; it is released after its `onSessionUp`; and a
`disconnect` that finds the tunnel Disconnected finds no session. -/
def HookOk (s : TunnelThreads) : ThreadAct → Prop
  | .sessionSet _ => s.session = false ∧ quiet s.log = false
  | .engineState _ state _ =>
    state.terminal = true → s.session = true → s.upPending = []
  | .disconnectEnd _ => s.session = true → s.upPending = []
  | .disconnectBegin _ => s.state = .disconnected → s.session = false
  | _ => True

instance (s : TunnelThreads) : DecidablePred (HookOk s)
  | .sessionSet _ => inferInstanceAs (Decidable (s.session = false ∧ quiet s.log = false))
  | .engineState _ state _ => inferInstanceAs (Decidable
      (state.terminal = true → s.session = true → s.upPending = []))
  | .disconnectEnd _ => inferInstanceAs (Decidable (s.session = true → s.upPending = []))
  | .disconnectBegin _ => inferInstanceAs (Decidable (s.state = .disconnected → s.session = false))
  | .connectGuard _ | .connectCreate .. | .connectExchange .. | .connectStart ..
  | .startReturned .. | .faultExchange .. | .faultPublish .. | .stopCall .. | .stopReturned _
  | .reconnectRead _ | .reconnectExchange _ | .reconnectReturned .. | .sessionUp _
  | .counters .. => isTrue trivial

structure HookInv (x : Seen) : Prop where
  alternates : Alternates x.log
  single : x.pending ≠ [] → ∃ e, x.pending = [e] ∧ x.session = true
  last : lastHook x.log = some .up ↔ x.session = true ∧ x.pending = []
  ended : quiet x.log = true → x.session = false

namespace HookInv

variable {x : Seen}

theorem paired {s : TunnelThreads} (h : HookInv s.seen) : HooksPaired s where
  alternates := h.alternates
  ended hq hlast := by
    have hset : s.session = true := (h.last.mp hlast).1
    have hclear : s.session = false := h.ended hq
    rw [hclear] at hset
    cases hset

theorem published (h : HookInv x) (previous current : ConnectionState) (reason : Status)
    (attempt : Nat) : HookInv (x.published previous current reason attempt) := by
  unfold Seen.published
  split
  · exact h
  · exact ⟨h.alternates, h.single, h.last, h.ended⟩

theorem connectCalled (h : HookInv x) : HookInv (x.add .connectCalled) :=
  ⟨h.alternates, h.single, h.last, fun hquiet => by cases hquiet⟩

theorem disconnectReturned (h : HookInv x) (hclear : x.session = false) :
    HookInv (x.add .disconnectReturned) :=
  ⟨h.alternates, h.single, h.last, fun _ => hclear⟩

theorem established (h : HookInv x) (hclear : x.session = false) (hq : quiet x.log = false)
    (e : Nat) : HookInv (x.established e) := by
  have hnone : x.pending = [] := by
    by_contra hne
    obtain ⟨_, _, hset⟩ := h.single hne
    rw [hclear] at hset
    cases hset
  have hlast : lastHook x.log ≠ some .up := by
    intro hl
    rw [h.last, hclear] at hl
    cases hl.1
  refine ⟨h.alternates, fun _ => ⟨e, congrArg (e :: ·) hnone, rfl⟩, ?_, fun hq' => ?_⟩
  · simp [Seen.established, lastHook, hlast]
  · have hold : quiet x.log = true := hq'
    rw [hq] at hold
    cases hold

theorem up (h : HookInv x) {e : Nat} (he : e ∈ x.pending) : HookInv (x.up e) := by
  obtain ⟨e', heq, hset⟩ := h.single (List.ne_nil_of_mem he)
  rw [heq] at he
  cases List.mem_singleton.mp he
  have hlast : lastHook x.log ≠ some .up := by
    intro hl
    rw [h.last, heq] at hl
    cases hl.2
  have hnone : x.pending.erase e = [] := by simp [heq]
  refine ⟨⟨hlast, h.alternates⟩, fun hne => absurd hnone hne, ?_, h.ended⟩
  simp [Seen.up, lastHook, hset, hnone]

/-- A release after `onSessionUp`. -/
theorem released (h : HookInv x) (hp : x.session = true → x.pending = []) :
    HookInv x.released := by
  unfold Seen.released
  cases hs : x.session with
  | false =>
    refine ⟨h.alternates, fun hne => ?_, ?_, fun _ => rfl⟩
    · obtain ⟨_, _, hset⟩ := h.single hne
      rw [hs] at hset
      cases hset
    · have hlast := h.last
      rwa [hs] at hlast
  | true =>
    have hnone := hp hs
    refine ⟨⟨h.last.mpr ⟨hs, hnone⟩, h.alternates⟩, fun hne => absurd hnone hne, ?_, fun _ => rfl⟩
    simp [lastHook]

/-- Every step that meets the condition keeps the invariant. -/
theorem step {s s' : TunnelThreads} {act : ThreadAct} (h : HookInv s.seen) (hok : HookOk s act)
    (hs : s.step act = some s') : HookInv s'.seen := by
  generalize hx : s'.seen = x
  have hobs := TunnelThreads.observed hs
  rw [hx] at hobs
  cases hobs with
  | silent => exact h
  | called => exact h.connectCalled
  | reported act previous current reason attempt => exact h.published _ _ _ _
  | returned t hstate => exact h.disconnectReturned (hok hstate)
  | ended t => exact ((h.released hok).published _ _ _ _).disconnectReturned rfl
  | terminal e state reason hend => exact (h.released (hok hend)).published _ _ _ _
  | established e => exact h.established hok.1 hok.2 e
  | up e he => exact h.up he

end HookInv

/-- In every run whose steps meet the condition the hooks alternate, and end
with `onSessionDown` once a `disconnect` has returned. -/
theorem hooks_alternate {registry : Bool} {acts : List ThreadAct} {s : TunnelThreads}
    (hok : RunMeets TunnelThreads.step HookOk { registry } acts)
    (hr : run TunnelThreads.step { registry } acts = some s) : HooksPaired s := by
  have hinit : HookInv ⟨[], false, []⟩ :=
    ⟨trivial, fun h => absurd rfl h, by simp [lastHook], fun hquiet => by cases hquiet⟩
  have hinv : HookInv s.seen :=
    run_invariant (I := fun s => HookInv s.seen) (fun _ _ _ h hok hs => h.step hok hs) hinit hok hr
  exact hinv.paired

/-- Its session, with `start` still running. -/
def connectSession : List ThreadAct :=
  connectEngine ++ [.sessionSet 0, .sessionUp 0, .engineState 0 .connected .ok]

/-- A `disconnect` of thread 1. -/
def disconnectSession : List ThreadAct :=
  [.disconnectBegin 1, .stopCall 1 0, .engineState 0 .disconnected .ok, .stopReturned 1,
    .disconnectEnd 1]

theorem hooks_alternate_session :
    ∃ s, run TunnelThreads.step {}
        (connectSession ++ .startReturned 1 0 .ok :: disconnectSession) = some s ∧
      quiet s.log = true ∧ lastHook s.log = some .down ∧ HooksPaired s := by
  have hok : RunMeets TunnelThreads.step HookOk {}
      (connectSession ++ .startReturned 1 0 .ok :: disconnectSession) := by decide
  exact ⟨_, rfl, rfl, rfl, hooks_alternate hok rfl⟩

/-- The engine comes back after a loss of its link, and establishes a session
while the first one is set: `onSessionUp` twice. -/
theorem reestablished_up_twice : ∃ s, run TunnelThreads.step {}
    (connectSession ++ [.startReturned 1 0 .ok, .engineState 0 .reconnecting .ok, .sessionSet 0,
      .sessionUp 0, .engineState 0 .connected .ok]) = some s ∧ ¬ HooksPaired s := by
  refine ⟨_, rfl, fun h => ?_⟩
  exact h.alternates.1 rfl

/-- `onSessionUp` comes after the release of its session, and after
`disconnect` has returned. -/
example : (run TunnelThreads.step {}
    (connectEngine ++ [.sessionSet 0, .startReturned 1 0 .ok, .disconnectBegin 1, .stopCall 1 0,
      .stopReturned 1, .disconnectEnd 1, .sessionUp 0])).map
    (fun s => (quiet s.log, lastHook s.log)) = some (true, some .up) := by
  decide

/-! ## Unwound before reported -/

def Entry.isEstablished : Entry → Bool
  | .established _ => true
  | _ => false

/-- How many sessions were established. -/
def sessions (log : List Entry) : Nat := log.countP Entry.isEstablished

/-- How often `onSessionDown` was called. -/
def downs (log : List Entry) : Nat := log.count .sessionDown

/-- When Disconnected or Faulted is published no session is set, and
`onSessionDown` was called for each one. -/
def Unwound : List Entry → Prop
  | [] => True
  | .published _ current _ _ session :: es =>
    (current.terminal = true → session = false ∧ downs es = sessions es) ∧
      Unwound es
  | _ :: es => Unwound es

/-- A session is established while none is set and no failed `start` is still
to be reported, and `start` fails only while none is set. -/
def UnwindOk (s : TunnelThreads) : ThreadAct → Prop
  | .sessionSet _ => s.session = false ∧ ∀ t, (s.phase t).failing = false
  | .startReturned _ _ started => started.isError = true → s.session = false
  | _ => True

structure UnwindInv (x : Seen) : Prop where
  unwound : Unwound x.log
  balance : sessions x.log = downs x.log + if x.session then 1 else 0

namespace UnwindInv

variable {x : Seen}

theorem published (h : UnwindInv x) (previous current : ConnectionState)
    (hend : current.terminal = true → x.session = false) (reason : Status) (attempt : Nat) :
    UnwindInv (x.published previous current reason attempt) := by
  unfold Seen.published
  split
  · exact h
  · refine ⟨⟨fun hc => ⟨hend hc, ?_⟩, h.unwound⟩, ?_⟩
    · have hb := h.balance
      rw [hend hc] at hb
      simpa using hb.symm
    · simpa [sessions, downs, Entry.isEstablished] using h.balance

/-- An entry that is neither a session nor a release. -/
theorem add {y : Seen} (h : UnwindInv x) {e : Entry} (hlog : y.log = e :: x.log)
    (hsession : y.session = x.session) (hunwound : Unwound (e :: x.log))
    (he : e.isEstablished = false) (hdown : e ≠ .sessionDown) : UnwindInv y := by
  refine ⟨by rw [hlog]; exact hunwound, ?_⟩
  rw [hlog, hsession, sessions, List.countP_cons_of_neg (by simp [he]), downs,
    List.count_cons_of_ne hdown]
  exact h.balance

theorem established (h : UnwindInv x) (hclear : x.session = false) (e : Nat) :
    UnwindInv (x.established e) := by
  have hb := h.balance
  rw [hclear] at hb
  refine ⟨h.unwound, ?_⟩
  simpa [Seen.established, sessions, downs, Entry.isEstablished, List.countP_cons] using hb

theorem released (h : UnwindInv x) : UnwindInv x.released := by
  have hb := h.balance
  unfold Seen.released
  cases hs : x.session with
  | false =>
    rw [hs] at hb
    exact ⟨h.unwound, hb⟩
  | true =>
    rw [hs] at hb
    exact ⟨h.unwound, by simpa [sessions, downs, Entry.isEstablished] using hb⟩

/-- Every step that meets the condition keeps the invariant, as long as no
session is set while a failed `start` is to be reported. -/
theorem step {s s' : TunnelThreads} {act : ThreadAct} (h : UnwindInv s.seen)
    (hclear : ∀ t, (s.phase t).failing = true → s.session = false) (hok : UnwindOk s act)
    (hs : s.step act = some s') : UnwindInv s'.seen := by
  generalize hx : s'.seen = x
  have hobs := TunnelThreads.observed hs
  rw [hx] at hobs
  cases hobs with
  | silent => exact h
  | called => exact h.add rfl rfl h.unwound rfl (by decide)
  | reported act previous current reason attempt hend =>
    refine h.published _ _ (fun hc => ?_) _ _
    obtain ⟨t, ht⟩ := hend hc
    exact hclear t ht
  | returned t hstate => exact h.add rfl rfl h.unwound rfl (by decide)
  | ended t =>
    have hpub := h.released.published s.state .disconnected (fun _ => rfl) .ok 0
    exact hpub.add rfl rfl hpub.unwound rfl (by decide)
  | terminal e state reason hend => exact h.released.published _ _ (fun _ => rfl) _ _
  | established e => exact h.established hok.1 e
  | up e he => exact h.add rfl rfl h.unwound rfl (by decide)

end UnwindInv

/-- No session is set while a failed `start` is to be reported. -/
def ClearWhileFailing (s : TunnelThreads) : Prop :=
  ∀ t, (s.phase t).failing = true → s.session = false

/-- One thread moves on, and fails only without a session. -/
theorem ClearWhileFailing.setPhase {s s' : TunnelThreads} (h : ClearWhileFailing s) {t : Nat}
    {p : Phase} (hphase : s'.phase = Function.update s.phase t p)
    (hsession : s.session = false → s'.session = false)
    (hp : p.failing = true → s'.session = false) : ClearWhileFailing s' := by
  rw [ClearWhileFailing, hphase, Function.forall_update_iff s.phase fun _ q =>
    q.failing = true → s'.session = false]
  exact ⟨hp, fun t' _ ht => hsession (h t' ht)⟩

/-- One thread moves on to where it has not failed. -/
theorem ClearWhileFailing.goOn {s s' : TunnelThreads} (h : ClearWhileFailing s) {t : Nat}
    {p : Phase} (hphase : s'.phase = Function.update s.phase t p)
    (hsession : s.session = false → s'.session = false) (hp : p.failing = false) :
    ClearWhileFailing s' := by
  refine h.setPhase hphase hsession fun hfails => ?_
  rw [hp] at hfails
  cases hfails

theorem ClearWhileFailing.congr {s s' : TunnelThreads} (h : ClearWhileFailing s)
    (hphase : s'.phase = s.phase) (hsession : s.session = false → s'.session = false) :
    ClearWhileFailing s' := by
  intro t ht
  rw [hphase] at ht
  exact hsession (h t ht)

section

variable {s s' : TunnelThreads} {act : ThreadAct}

theorem ClearWhileFailing.step (h : ClearWhileFailing s) (hok : UnwindOk s act)
    (hs : s.step act = some s') : ClearWhileFailing s' := by
  obtain ⟨hallow, rfl⟩ := TunnelThreads.step_eq_some.mp hs
  cases act with
  | connectGuard t =>
    simp only [TunnelThreads.effect]
    split
    · exact h
    · exact h.goOn rfl id rfl
  | connectCreate t created validated =>
    simp only [TunnelThreads.effect, TunnelThreads.connectSection]
    split
    · exact h.goOn rfl id rfl
    · refine h.goOn rfl id ?_
      split
      · rfl
      · rfl
  | connectExchange t e => exact h.goOn rfl id rfl
  | connectStart t e previous => exact h.goOn rfl id rfl
  | startReturned t e started =>
    simp only [TunnelThreads.effect]
    split
    · next herr => exact h.setPhase rfl id fun _ => hok herr
    · split
      · exact h.goOn rfl id rfl
      · exact h.goOn rfl id rfl
  | faultExchange t reason =>
    have hclear : s.session = false := h t (by rw [beq_iff_eq.mp hallow]; rfl)
    exact h.setPhase rfl id fun _ => hclear
  | faultPublish t previous reason => exact h.goOn rfl id rfl
  | disconnectBegin t =>
    simp only [TunnelThreads.effect, TunnelThreads.disconnectSection]
    split
    · exact h
    · refine h.goOn rfl id ?_
      split
      · rfl
      · rfl
  | stopCall t e =>
    simp only [TunnelThreads.effect]
    split
    · exact h.goOn rfl id rfl
    · exact h.goOn rfl id rfl
  | stopReturned t => exact h.goOn rfl id rfl
  | disconnectEnd t => exact h.goOn rfl (fun _ => rfl) rfl
  | reconnectRead t =>
    simp only [TunnelThreads.effect]
    split
    · exact h
    · exact h.goOn rfl id rfl
  | reconnectExchange t => exact h.goOn rfl id rfl
  | reconnectReturned t previous => exact h.goOn rfl id rfl
  | engineState e state reason =>
    simp only [TunnelThreads.effect, TunnelThreads.onEngineState]
    split
    · exact h.congr rfl fun _ => rfl
    · exact h
  | sessionSet e =>
    intro t ht
    have hfalse := hok.2 t
    rw [show (s.phase t).failing = true from ht] at hfalse
    cases hfalse
  | sessionUp e => exact h
  | counters e c => exact h

end

/-- In every run whose steps meet the condition the tunnel is unwound whenever
Disconnected or Faulted is published. -/
theorem unwound_before_reported {registry : Bool} {acts : List ThreadAct} {s : TunnelThreads}
    (hok : RunMeets TunnelThreads.step UnwindOk { registry } acts)
    (hr : run TunnelThreads.step { registry } acts = some s) : Unwound s.log := by
  have hinit : UnwindInv ⟨[], false, []⟩ := ⟨trivial, rfl⟩
  have hinv := run_invariant (I := fun s => UnwindInv s.seen ∧ ClearWhileFailing s)
    (fun _ _ _ h hok hs => ⟨h.1.step h.2 hok hs, h.2.step hok hs⟩) ⟨hinit, fun _ _ => rfl⟩ hok hr
  exact hinv.1.unwound

theorem unwound_before_reported_session :
    ∃ s, run TunnelThreads.step {}
        (connectSession ++ .startReturned 1 0 .ok :: disconnectSession) = some s ∧
      downs s.log = 1 ∧ Unwound s.log := by
  have hok : RunMeets TunnelThreads.step UnwindOk {}
      (connectEngine ++ (.sessionSet 0 :: [.sessionUp 0, .engineState 0 .connected .ok,
        .startReturned 1 0 .ok] ++ disconnectSession)) := by
    refine runMeets_append (runMeets_of_forall (by simp [connectEngine, UnwindOk])) fun s hs => ?_
    have hsession : s.session = false := by
      cases hs
      rfl
    refine ⟨⟨hsession, fun t => ?_⟩, fun s hs => runMeets_of_forall ?_⟩
    · rw [connectEngine_phase hs t]
      split
      · rfl
      · rfl
    · simp [disconnectSession, UnwindOk]
  exact ⟨_, rfl, rfl, unwound_before_reported hok rfl⟩

/-- An engine that establishes a session from inside `start` and then fails:
Faulted is published with the session set. -/
theorem failed_start_reported_set : ∃ s, run TunnelThreads.step {}
    (connectSession ++ [.startReturned 1 0 (Err.make .handshakeFailed "link lost"),
      .faultExchange 1 (Err.make .handshakeFailed "link lost"),
      .faultPublish 1 .connected (Err.make .handshakeFailed "link lost")]) = some s ∧
    ¬ Unwound s.log := by
  refine ⟨_, rfl, fun h => ?_⟩
  cases (h.1 rfl).1

end NovaVpn
