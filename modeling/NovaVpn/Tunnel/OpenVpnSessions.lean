import NovaVpn.Tunnel.OpenVpnEngine

/-!
# The sessions of the OpenVPN engine

Where no `start` and no `stop` comes while a `stop` is in progress, nothing that was
destroyed is in use and every session reports its end last (`sessions_safe`), and after a
`stop` the host is not called until the next `start` (`host_silent_after_stop`).
-/

namespace NovaVpn.OpenVpn

open NovaVpn.Framework

/-! ## The invariant -/

structure EngineInv (s : Engine) : Prop where
  unbroken : s.broken = false
  idle : s.stopping = 0 → ∀ t, s.phase t = .idle
  only : ∀ t t', s.phase t ≠ .idle → s.phase t' ≠ .idle → t = t'
  taken : ∀ t, (s.phase t).past = true → s.worker = none ∧ s.statsWorker = none
  stats : ∀ k, s.statsWorker = some k → s.worker = some k
  bound : ∀ k, s.client = some k → k < s.created
  unborn : ∀ k, s.created ≤ k → s.sessions k = {}
  alive : ∀ k, s.client = some k → (s.sessions k).alive = true
  working : ∀ k, (s.sessions k).worker.active = true →
    s.client = some k ∧ (s.worker = some k ∨ ∃ t, (s.phase t).worker = some k)
  connecting : ∀ k c, (s.sessions k).worker = .connecting c → c = k
  polling : ∀ k, (s.sessions k).poller.active = true →
    s.statsWorker = some k ∨ ∃ t, (s.phase t).statsWorker = some k
  ended : ∀ k, (s.sessions k).worker = .done → (s.sessions k).host.onStateChanged = true →
    Over (s.sessions k).calls

namespace EngineInv

variable {s s' : Engine}

theorem safe (h : EngineInv s) : Safe s where
  unbroken := h.unbroken
  client k c hc := by
    have hactive : (s.sessions k).worker.active = true := by rw [hc]; rfl
    have hclient := (h.working k hactive).1
    exact ⟨h.connecting k c hc, hclient, h.alive k hclient⟩
  one k k' hk hk' := by
    have hclient := (h.working k hk).1
    rw [(h.working k' hk').1] at hclient
    exact (Option.some.inj hclient).symm
  ended := h.ended

theorem init : EngineInv {} where
  unbroken := rfl
  idle _ _ := rfl
  only _ _ ht := absurd rfl ht
  taken _ h := nomatch h
  stats _ h := nomatch h
  bound _ h := nomatch h
  unborn _ _ := rfl
  alive _ h := nomatch h
  working _ h := nomatch h
  connecting _ _ h := nomatch h
  polling _ h := nomatch h
  ended _ h := nomatch h

/-- A session that has begun is one of those created. -/
theorem lt_created (h : EngineInv s) {k : Nat} (hk : s.sessions k ≠ {}) : k < s.created :=
  Nat.lt_of_not_le fun hle => hk (h.unborn k hle)

/-- A step of one session's threads. -/
theorem setSession (h : EngineInv s) {k : Nat} {session : Session} (hk : k < s.created)
    (halive : session.alive = (s.sessions k).alive)
    (hworker : session.worker.active = true → (s.sessions k).worker.active = true)
    (hconnecting : ∀ c, session.worker = .connecting c → c = k)
    (hpoller : session.poller.active = true → (s.sessions k).poller.active = true)
    (hended : session.worker = .done → session.host.onStateChanged = true → Over session.calls) :
    EngineInv (s.setSession k session) where
  unbroken := h.unbroken
  idle := h.idle
  only := h.only
  taken := h.taken
  stats := h.stats
  bound := h.bound
  unborn j hj := by
    have hjk : j ≠ k := fun hjk => absurd hk (Nat.not_lt.mpr (hjk ▸ hj))
    exact (Function.update_of_ne hjk _ _).trans (h.unborn j hj)
  alive j hj := by
    show (Function.update s.sessions k session j).alive = true
    by_cases hjk : j = k
    · subst hjk
      rw [Function.update_self, halive]
      exact h.alive j hj
    · rw [Function.update_of_ne hjk]
      exact h.alive j hj
  working j hj := by
    change (Function.update s.sessions k session j).worker.active = true at hj
    by_cases hjk : j = k
    · subst hjk
      rw [Function.update_self] at hj
      exact h.working j (hworker hj)
    · rw [Function.update_of_ne hjk] at hj
      exact h.working j hj
  connecting j c hj := by
    change (Function.update s.sessions k session j).worker = .connecting c at hj
    by_cases hjk : j = k
    · subst hjk
      rw [Function.update_self] at hj
      exact hconnecting c hj
    · rw [Function.update_of_ne hjk] at hj
      exact h.connecting j c hj
  polling j hj := by
    change (Function.update s.sessions k session j).poller.active = true at hj
    by_cases hjk : j = k
    · subst hjk
      rw [Function.update_self] at hj
      exact h.polling j (hpoller hj)
    · rw [Function.update_of_ne hjk] at hj
      exact h.polling j hj
  ended j hj hhost := by
    change (Function.update s.sessions k session j).worker = .done at hj
    change (Function.update s.sessions k session j).host.onStateChanged = true at hhost
    show Over (Function.update s.sessions k session j).calls
    by_cases hjk : j = k
    · subst hjk
      rw [Function.update_self] at hj hhost ⊢
      exact hended hj hhost
    · rw [Function.update_of_ne hjk] at hj hhost ⊢
      exact h.ended j hj hhost

/-- A step of `stop` that destroys nothing. -/
theorem move (h : EngineInv s) {t : Nat} {p : Phase}
    (hphase : s'.phase = Function.update s.phase t p) (hsessions : s'.sessions = s.sessions)
    (hclient : s'.client = s.client) (hcreated : s'.created = s.created)
    (hbroken : s'.broken = s.broken) (hstopping : s'.stopping ≠ 0)
    (hothers : ∀ t', t' ≠ t → s.phase t' = .idle)
    (hpast : p.past = true → s'.worker = none ∧ s'.statsWorker = none)
    (hstats : ∀ k, s'.statsWorker = some k → s'.worker = some k)
    (hworking : ∀ k, (s.sessions k).worker.active = true →
      s.worker = some k ∨ (s.phase t).worker = some k → s'.worker = some k ∨ p.worker = some k)
    (hpolling : ∀ k, (s.sessions k).poller.active = true →
      s.statsWorker = some k ∨ (s.phase t).statsWorker = some k →
        s'.statsWorker = some k ∨ p.statsWorker = some k) : EngineInv s' where
  unbroken := hbroken.trans h.unbroken
  idle h0 := absurd h0 hstopping
  only t₁ t₂ h₁ h₂ := by
    have hmoved : ∀ t', s'.phase t' ≠ .idle → t' = t := by
      intro t' ht'
      by_contra hne
      rw [hphase, Function.update_of_ne hne] at ht'
      exact ht' (hothers t' hne)
    rw [hmoved t₁ h₁, hmoved t₂ h₂]
  taken t' ht' := by
    rw [hphase] at ht'
    by_cases hne : t' = t
    · rw [hne, Function.update_self] at ht'
      exact hpast ht'
    · rw [Function.update_of_ne hne, hothers t' hne] at ht'
      cases ht'
  stats := hstats
  bound k hk := by
    rw [hclient] at hk
    rw [hcreated]
    exact h.bound k hk
  unborn k hk := by
    rw [hcreated] at hk
    rw [hsessions]
    exact h.unborn k hk
  alive k hk := by
    rw [hclient] at hk
    rw [hsessions]
    exact h.alive k hk
  working k hk := by
    rw [hsessions] at hk
    obtain ⟨hc, hheld⟩ := h.working k hk
    refine ⟨hclient.trans hc, ?_⟩
    have hheld : s.worker = some k ∨ (s.phase t).worker = some k := by
      refine hheld.imp_right fun ⟨t', ht'⟩ => ?_
      by_cases hne : t' = t
      · rwa [hne] at ht'
      · rw [hothers t' hne] at ht'
        cases ht'
    refine (hworking k hk hheld).imp_right fun hp => ⟨t, ?_⟩
    rwa [hphase, Function.update_self]
  connecting := hsessions ▸ h.connecting
  polling k hk := by
    rw [hsessions] at hk
    have hheld : s.statsWorker = some k ∨ (s.phase t).statsWorker = some k := by
      refine (h.polling k hk).imp_right fun ⟨t', ht'⟩ => ?_
      by_cases hne : t' = t
      · rwa [hne] at ht'
      · rw [hothers t' hne] at ht'
        cases ht'
    refine (hpolling k hk hheld).imp_right fun hp => ⟨t, ?_⟩
    rwa [hphase, Function.update_self]
  ended := hsessions ▸ h.ended

end EngineInv

/-- No thread of a session is left. -/
def Quiet (s : Engine) : Prop :=
  ∀ k, (s.sessions k).worker.active = false ∧ (s.sessions k).poller.active = false

namespace EngineInv

variable {s s' : Engine}

theorem others (h : EngineInv s) {t : Nat} (ht : s.phase t ≠ .idle) :
    ∀ t', t' ≠ t → s.phase t' = .idle := by
  intro t' hne
  by_contra ht'
  exact hne (h.only t' t ht' ht)

theorem stopping_ne (h : EngineInv s) {t : Nat} (ht : s.phase t ≠ .idle) : s.stopping ≠ 0 :=
  fun h0 => ht (h.idle h0 t)

/-- With no thread in the engine, nor with a `stop`, no session has one. -/
theorem quiet (h : EngineInv s) (hw : s.worker = none) (hs : s.statsWorker = none)
    (hphase : ∀ t, (s.phase t).worker = none ∧ (s.phase t).statsWorker = none) : Quiet s := by
  intro k
  constructor
  · by_contra hk
    obtain ⟨-, hheld | ⟨t, ht⟩⟩ := h.working k ((Bool.not_eq_false _).mp hk)
    · rw [hw] at hheld
      cases hheld
    · rw [(hphase t).1] at ht
      cases ht
  · by_contra hk
    obtain hheld | ⟨t, ht⟩ := h.polling k ((Bool.not_eq_false _).mp hk)
    · rw [hs] at hheld
      cases hheld
    · rw [(hphase t).2] at ht
      cases ht

theorem statsWorker_none (h : EngineInv s) (hw : s.worker = none) : s.statsWorker = none := by
  cases hs : s.statsWorker with
  | none => rfl
  | some k =>
    rw [h.stats k hs] at hw
    cases hw

theorem inUse_eq_false (hq : Quiet s) (k : Nat) : s.inUse k = false := by
  rw [Engine.inUse, List.any_eq_false]
  intro j _ hj
  have hactive := (hq j).1
  rw [of_decide_eq_true hj] at hactive
  cases hactive

/-- What destroying the client does to a session. -/
theorem resetClient_session (s : Engine) (j : Nat) :
    s.resetClient.sessions j =
      { s.sessions j with alive := (s.sessions j).alive && s.client != some j } := by
  unfold Engine.resetClient
  cases hc : s.client with
  | none =>
    show s.sessions j = { s.sessions j with alive := (s.sessions j).alive && true }
    rw [Bool.and_true]
  | some k =>
    show Function.update s.sessions k { s.sessions k with alive := false } j = _
    by_cases hjk : j = k
    · subst hjk
      rw [Function.update_self, bne_self_eq_false, Bool.and_false]
    · have hne : (some k != some j) = true := bne_iff_ne.mpr fun h => hjk (Option.some.inj h).symm
      rw [Function.update_of_ne hjk, hne, Bool.and_true]

theorem resetClient_frame (s : Engine) :
    s.resetClient.client = none ∧ s.resetClient.worker = s.worker ∧
      s.resetClient.statsWorker = s.statsWorker ∧ s.resetClient.created = s.created ∧
      s.resetClient.phase = s.phase ∧ s.resetClient.stopping = s.stopping ∧
      s.resetClient.hung = s.hung := by
  unfold Engine.resetClient
  split
  · next hc => exact ⟨hc, rfl, rfl, rfl, rfl, rfl, rfl⟩
  · exact ⟨rfl, rfl, rfl, rfl, rfl, rfl, rfl⟩

theorem quiet_resetClient (hq : Quiet s) : Quiet s.resetClient := by
  intro j
  rw [resetClient_session]
  exact hq j

/-- Destroying the client of no session that runs. -/
theorem resetClient (h : EngineInv s) (hq : Quiet s) : EngineInv s.resetClient := by
  obtain ⟨hclient, hworker, hstats, hcreated, hphase, hstopping, -⟩ := resetClient_frame s
  have hsession := resetClient_session s
  have hq' := quiet_resetClient hq
  constructor
  case unbroken =>
    unfold Engine.resetClient
    split
    · exact h.unbroken
    · next k _ =>
      show (s.broken || s.inUse k) = false
      rw [h.unbroken, inUse_eq_false hq]
      rfl
  case idle => rw [hstopping, hphase]; exact h.idle
  case only => rw [hphase]; exact h.only
  case taken => rw [hphase, hworker, hstats]; exact h.taken
  case stats => rw [hworker, hstats]; exact h.stats
  case bound => intro k hk; rw [hclient] at hk; cases hk
  case unborn =>
    intro k hk
    rw [hcreated] at hk
    have hne : (s.client != some k) = true :=
      bne_iff_ne.mpr fun hc => absurd (h.bound k hc) (Nat.not_lt.mpr hk)
    rw [hsession, hne, h.unborn k hk]
    rfl
  case alive => intro k hk; rw [hclient] at hk; cases hk
  case working => intro k hk; rw [(hq' k).1] at hk; cases hk
  case connecting =>
    intro k c hk
    rw [hsession] at hk
    exact h.connecting k c hk
  case polling => intro k hk; rw [(hq' k).2] at hk; cases hk
  case ended =>
    intro k
    rw [hsession]
    exact h.ended k

theorem quiet_makeClient (hq : Quiet s) (host : EngineHost) : Quiet (s.makeClient host) := by
  intro j
  show (Function.update s.resetClient.sessions _ _ j).worker.active = false ∧
    (Function.update s.resetClient.sessions _ _ j).poller.active = false
  by_cases hj : j = s.resetClient.created
  · subst hj
    rw [Function.update_self]
    exact ⟨rfl, rfl⟩
  · rw [Function.update_of_ne hj]
    exact quiet_resetClient hq j

theorem makeClient (h : EngineInv s) (hq : Quiet s) (host : EngineHost) :
    EngineInv (s.makeClient host) := by
  have hr := h.resetClient hq
  have hq' := quiet_makeClient hq host
  refine ⟨hr.unbroken, hr.idle, hr.only, hr.taken, hr.stats, ?_, ?_, ?_, ?_, ?_, ?_, ?_⟩
  · intro k hk
    cases hk
    exact Nat.lt_succ_self _
  · intro k hk
    have hlt : s.resetClient.created < k := hk
    exact (Function.update_of_ne (by omega) _ _).trans (hr.unborn k (by omega))
  · intro k hk
    cases hk
    show (Function.update s.resetClient.sessions _ _ s.resetClient.created).alive = true
    rw [Function.update_self]
  · intro k hk
    rw [(hq' k).1] at hk
    cases hk
  · intro k c hk
    have hactive := (hq' k).1
    rw [hk] at hactive
    cases hactive
  · intro k hk
    rw [(hq' k).2] at hk
    cases hk
  · intro k hk hhost
    change (Function.update s.resetClient.sessions _ _ k).worker = .done at hk
    change (Function.update s.resetClient.sessions _ _ k).host.onStateChanged = true at hhost
    show Over (Function.update s.resetClient.sessions _ _ k).calls
    by_cases hkc : k = s.resetClient.created
    · subst hkc
      rw [Function.update_self] at hk
      cases hk
    · rw [Function.update_of_ne hkc] at hk hhost ⊢
      exact hr.ended k hk hhost

theorem spawn_sessions (s : Engine) (host : EngineHost) (k : Nat) :
    (s.spawn host k).sessions = Function.update s.sessions k
      { s.sessions k with
        worker := .begun
        poller := if host.onCounters then .checking else (s.sessions k).poller } := by
  unfold Engine.spawn
  cases host.onCounters with
  | false => rfl
  | true =>
    show Function.update (Function.update s.sessions k _) k
      { Function.update s.sessions k { s.sessions k with worker := .begun } k with
        poller := .checking } = _
    rw [Function.update_self, Function.update_idem]
    rfl

theorem spawn_frame (s : Engine) (host : EngineHost) (k : Nat) :
    (s.spawn host k).worker = some k ∧
      (s.spawn host k).statsWorker = (if host.onCounters then some k else s.statsWorker) ∧
      (s.spawn host k).broken = (s.broken || (host.onCounters && s.statsWorker.isSome)) ∧
      (s.spawn host k).client = s.client ∧ (s.spawn host k).created = s.created ∧
      (s.spawn host k).phase = s.phase ∧ (s.spawn host k).stopping = s.stopping := by
  unfold Engine.spawn
  cases host.onCounters with
  | false =>
    rw [Bool.false_and, Bool.or_false]
    exact ⟨rfl, rfl, rfl, rfl, rfl, rfl, rfl⟩
  | true => exact ⟨rfl, rfl, rfl, rfl, rfl, rfl, rfl⟩

/-- The threads of the session whose client was just made. -/
theorem spawn (h : EngineInv s) (hq : Quiet s) {k : Nat} (hclient : s.client = some k)
    (hw : s.worker = none) (hidle : ∀ t, s.phase t = .idle) (host : EngineHost) :
    EngineInv (s.spawn host k) := by
  have hk := h.bound k hclient
  have hs := h.statsWorker_none hw
  obtain ⟨hworker, hstats, hbroken, hclient', hcreated, hphase, hstopping⟩ := spawn_frame s host k
  have hsessions := spawn_sessions s host k
  have hother : ∀ {j}, j ≠ k → (s.spawn host k).sessions j = s.sessions j := fun hj => by
    rw [hsessions, Function.update_of_ne hj]
  have hself : (s.spawn host k).sessions k = { s.sessions k with
      worker := .begun
      poller := if host.onCounters then .checking else (s.sessions k).poller } := by
    rw [hsessions, Function.update_self]
  constructor
  case unbroken => rw [hbroken, h.unbroken, hs]; exact Bool.and_false _
  case idle => intro _; rw [hphase]; exact hidle
  case only => rw [hphase]; exact h.only
  case taken => intro t ht; rw [hphase, hidle t] at ht; cases ht
  case stats =>
    intro j hj
    rw [hstats, hs] at hj
    split at hj
    · exact hworker.trans hj
    · cases hj
  case bound => rw [hclient', hcreated]; exact h.bound
  case unborn =>
    intro j hj
    rw [hcreated] at hj
    rw [hother (by omega)]
    exact h.unborn j hj
  case alive =>
    intro j hj
    rw [hclient', hclient] at hj
    cases hj
    rw [hself]
    exact h.alive k hclient
  case working =>
    intro j hj
    by_cases hjk : j = k
    · subst hjk
      exact ⟨hclient'.trans hclient, .inl hworker⟩
    · rw [hother hjk, (hq j).1] at hj
      cases hj
  case connecting =>
    intro j c hj
    by_cases hjk : j = k
    · subst hjk
      rw [hself] at hj
      cases hj
    · rw [hother hjk] at hj
      exact h.connecting j c hj
  case polling =>
    intro j hj
    by_cases hjk : j = k
    · subst hjk
      rw [hself] at hj
      cases hc : host.onCounters with
      | true => exact .inl (by rw [hstats, hc]; rfl)
      | false =>
        simp only [hc, Bool.false_eq_true, if_false, (hq j).2] at hj
    · rw [hother hjk, (hq j).2] at hj
      cases hj
  case ended =>
    intro j hj
    by_cases hjk : j = k
    · subst hjk
      rw [hself] at hj
      cases hj
    · rw [hother hjk] at hj ⊢
      exact h.ended j hj

/-- A start while no stop is in progress. -/
theorem start (h : EngineInv s) (hstop : s.stopping = 0) (answers : StartAnswers) :
    EngineInv (s.start answers).2 := by
  have hidle := h.idle hstop
  unfold Engine.start
  cases hw : s.worker with
  | some k => exact h
  | none =>
    have hq : Quiet s := h.quiet hw (h.statsWorker_none hw) fun t => by
      rw [hidle t]
      exact ⟨rfl, rfl⟩
    have hmade := h.makeClient hq answers.host
    have hquiet := quiet_makeClient hq answers.host
    obtain ⟨-, hworker, -, hcreated, hphase, -⟩ := resetClient_frame s
    simp only [Option.isSome_none, Bool.false_eq_true, if_false]
    split
    · exact hmade.resetClient hquiet
    split
    · exact hmade.resetClient hquiet
    split
    · -- it hangs, before it has made a thread
      exact { hmade with }
    · refine hmade.spawn hquiet ?_ ?_ ?_ answers.host
      · exact congrArg some hcreated
      · exact hworker.trans hw
      · intro t
        exact (congrFun hphase t).trans (hidle t)

/-- When `stop` has joined its threads there are no others. -/
theorem quiet_of_joined (h : EngineInv s) {t : Nat} (ht : s.phase t = .joined) : Quiet s := by
  have hothers := h.others (t := t) (by rw [ht]; decide)
  obtain ⟨hw, hs⟩ := h.taken t (by rw [ht]; rfl)
  refine h.quiet hw hs fun t' => ?_
  by_cases htt : t' = t
  · rw [htt, ht]
    exact ⟨rfl, rfl⟩
  · rw [hothers t' htt]
    exact ⟨rfl, rfl⟩

/-- The last part of a `stop`. -/
theorem stopReset (h : EngineInv s) {t : Nat} (ht : s.phase t = .joined) :
    EngineInv { s.resetClient.setPhase t .idle with stopping := s.stopping - 1 } := by
  have hothers := h.others (t := t) (by rw [ht]; decide)
  have hq := h.quiet_of_joined ht
  have hr := h.resetClient hq
  have hidle : ∀ t', Function.update s.resetClient.phase t .idle t' = .idle := by
    intro t'
    by_cases htt : t' = t
    · rw [htt, Function.update_self]
    · rw [Function.update_of_ne htt, (resetClient_frame s).2.2.2.2.1]
      exact hothers t' htt
  have hq' := quiet_resetClient hq
  exact {
    unbroken := hr.unbroken
    idle := fun _ => hidle
    only := fun t₁ _ h₁ => absurd (hidle t₁) h₁
    taken := fun t' ht' => by
      change (Function.update s.resetClient.phase t .idle t').past = true at ht'
      rw [hidle t'] at ht'
      cases ht'
    stats := hr.stats
    bound := hr.bound
    unborn := hr.unborn
    alive := hr.alive
    working := fun k hk => nomatch (hq' k).1.symm.trans hk
    connecting := hr.connecting
    polling := fun k hk => nomatch (hq' k).2.symm.trans hk
    ended := hr.ended }

/-- A session with a thread is one of those created. -/
theorem active_lt (h : EngineInv s) {k : Nat}
    (hk : (s.sessions k).worker ≠ .absent ∨ (s.sessions k).poller ≠ .absent) : k < s.created := by
  refine h.lt_created fun hnew => ?_
  rw [hnew] at hk
  exact hk.elim (fun h => h rfl) fun h => h rfl

/-- The worker goes on, and reports before it is done. -/
theorem setWorker (h : EngineInv s) {k : Nat} {worker : Worker}
    (hk : (s.sessions k).worker.active = true) (hc : ∀ c, worker = .connecting c → c = k)
    (hdone : worker = .done → (s.sessions k).host.onStateChanged = true →
      Over (s.sessions k).calls) : EngineInv (s.setWorker k worker) :=
  h.setSession (h.active_lt (.inl fun hw => by rw [hw] at hk; cases hk)) rfl (fun _ => hk) hc id hdone

theorem setPoller (h : EngineInv s) {k : Nat} {poller : Poller}
    (hk : (s.sessions k).poller.active = true) : EngineInv (s.setPoller k poller) :=
  h.setSession (h.active_lt (.inr fun hp => by rw [hp] at hk; cases hk)) rfl id (h.connecting k)
    (fun _ => hk) (h.ended k)

/-- A call of the host that leaves what the last report was. -/
theorem record (h : EngineInv s) {k : Nat} {calls : List HostCall} (hk : k < s.created)
    (hended : (s.sessions k).worker = .done → Over (s.sessions k).calls →
      Over (calls.reverse ++ (s.sessions k).calls)) : EngineInv (s.record k calls) :=
  h.setSession hk rfl id (h.connecting k) id fun hd hhost => hended hd (h.ended k hd hhost)

end EngineInv

theorem over_ended (outcome : Outcome) {host : EngineHost} (hhost : host.onStateChanged = true)
    (calls : List HostCall) : Over ((host.ended outcome).reverse ++ calls) := by
  unfold EngineHost.ended
  rw [if_pos hhost]
  cases outcome with
  | none => exact .inl rfl
  | some message => exact .inr rfl

theorem over_counters {counters : TrafficCounters} {calls : List HostCall} (h : Over calls) :
    Over (.counters counters :: calls) := h

namespace EngineInv

variable {s s' : Engine}

attribute [local simp] Engine.step

theorem stopRequest (h : EngineInv s) {t : Nat} (hstop : s.stopping = 0)
    (hs : s.step (.stopRequest t) = some s') : EngineInv s' := by
  simp only [Engine.step] at hs
  split at hs
  · cases hs
  split at hs
  · next ht =>
    cases hs
    refine h.move rfl rfl rfl rfl rfl (Nat.succ_ne_zero _) (fun t' _ => h.idle hstop t')
      (fun hp => nomatch hp) h.stats (fun k _ hheld => ?_) fun k _ hheld => ?_
    · rw [ht] at hheld
      exact hheld
    · rw [ht] at hheld
      exact hheld
  · cases hs

theorem stopFlag (h : EngineInv s) {t : Nat} (hs : s.step (.stopFlag t) = some s') :
    EngineInv s' := by
  simp only [Engine.step] at hs
  split at hs
  · next ht =>
    cases hs
    have hne : s.phase t ≠ .idle := by rw [ht]; decide
    refine h.move rfl rfl rfl rfl rfl (h.stopping_ne hne) (h.others hne) (fun hp => nomatch hp)
      h.stats (fun k _ hheld => ?_) fun k _ hheld => ?_
    · rw [ht] at hheld
      exact hheld
    · rw [ht] at hheld
      exact hheld
  · cases hs

theorem stopTake (h : EngineInv s) {t : Nat} (hs : s.step (.stopTake t) = some s') :
    EngineInv s' := by
  simp only [Engine.step] at hs
  split at hs
  · cases hs
  split at hs
  · next ht =>
    cases hs
    have hne : s.phase t ≠ .idle := by rw [ht]; decide
    refine h.move rfl rfl rfl rfl rfl (h.stopping_ne hne) (h.others hne) (fun _ => ⟨rfl, rfl⟩)
      (fun k hk => nomatch hk) (fun k _ hheld => ?_) fun k _ hheld => ?_
    · rw [ht] at hheld
      exact .inr (hheld.resolve_right nofun)
    · rw [ht] at hheld
      exact .inr (hheld.resolve_right nofun)
  · cases hs

theorem joinPoller (h : EngineInv s) {t : Nat} (hs : s.step (.joinPoller t) = some s') :
    EngineInv s' := by
  simp only [Engine.step] at hs
  split at hs
  · next worker statsWorker ht =>
    split at hs
    · next hdone =>
      cases hs
      have hne : s.phase t ≠ .idle := by rw [ht]; nofun
      have htaken := h.taken t (by rw [ht]; rfl)
      refine h.move rfl rfl rfl rfl rfl (h.stopping_ne hne) (h.others hne) (fun _ => htaken)
        h.stats (fun k _ hheld => ?_) fun k hk hheld => ?_
      · rw [ht] at hheld
        exact hheld
      · rw [ht, htaken.2] at hheld
        obtain rfl : statsWorker = some k := hheld.resolve_left nofun
        have hpoller : (s.sessions k).poller = .done := of_decide_eq_true hdone
        rw [hpoller] at hk
        cases hk
    · cases hs
  · cases hs

theorem joinWorker (h : EngineInv s) {t : Nat} (hs : s.step (.joinWorker t) = some s') :
    EngineInv s' := by
  simp only [Engine.step] at hs
  split at hs
  · next worker ht =>
    split at hs
    · next hdone =>
      cases hs
      have hne : s.phase t ≠ .idle := by rw [ht]; nofun
      have htaken := h.taken t (by rw [ht]; rfl)
      refine h.move rfl rfl rfl rfl rfl (h.stopping_ne hne) (h.others hne) (fun _ => htaken)
        h.stats (fun k hk hheld => ?_) fun k _ hheld => ?_
      · rw [ht, htaken.1] at hheld
        obtain rfl : worker = some k := hheld.resolve_left nofun
        have hworker : (s.sessions k).worker = .done := of_decide_eq_true hdone
        rw [hworker] at hk
        cases hk
      · rw [ht] at hheld
        exact hheld
    · cases hs
  · cases hs

/-- A worker that has begun finds the client of its session. -/
theorem connect (h : EngineInv s) {k : Nat} (hs : s.step (.connect k) = some s') : EngineInv s' := by
  have hclient (hw : (s.sessions k).worker = .begun) : s.client = some k :=
    (h.working k (by rw [hw]; rfl)).1
  simp only [Engine.step] at hs
  split at hs
  · next client hw hc =>
    cases hs
    refine h.setWorker (by rw [hw]; rfl) (fun c hc' => ?_) nofun
    cases hc'
    rw [hclient hw] at hc
    exact (Option.some.inj hc).symm
  · next hw hc =>
    rw [hclient hw] at hc
    cases hc
  · cases hs

theorem event (h : EngineInv s) {k : Nat} {e : Event} (hs : s.step (.event k e) = some s') :
    EngineInv s' := by
  simp only [Engine.step] at hs
  split at hs
  · next client hw =>
    cases hs
    obtain rfl := h.connecting k client hw
    refine h.record (h.active_lt (.inl ?_)) fun hd => ?_
    · rw [hw]
      nofun
    · rw [hw] at hd
      cases hd
  · cases hs

theorem returns (h : EngineInv s) {k : Nat} {outcome : Outcome}
    (hs : s.step (.returns k outcome) = some s') : EngineInv s' := by
  simp only [Engine.step] at hs
  split at hs
  · next client hw =>
    cases hs
    exact h.setWorker (by rw [hw]; rfl) nofun nofun
  · cases hs

theorem report (h : EngineInv s) {k : Nat} (hs : s.step (.report k) = some s') : EngineInv s' := by
  simp only [Engine.step] at hs
  split at hs
  · next outcome hw =>
    cases hs
    have hk := h.active_lt (.inl (show (s.sessions k).worker ≠ .absent by rw [hw]; nofun))
    have hr := @record _ h _ ((s.sessions k).host.ended outcome) hk fun hd => by
      rw [hw] at hd
      cases hd
    have hself : (s.record k ((s.sessions k).host.ended outcome)).sessions k = { s.sessions k with
        calls := ((s.sessions k).host.ended outcome).reverse ++ (s.sessions k).calls } :=
      Function.update_self _ _ _
    refine hr.setWorker ?_ nofun fun _ hhost => ?_
    · rw [hself]
      show (s.sessions k).worker.active = true
      rw [hw]
      rfl
    · rw [hself] at hhost ⊢
      exact over_ended outcome hhost _
  · cases hs

theorem poll (h : EngineInv s) {k : Nat} {tun wire : Stats}
    (hs : s.step (.poll k tun wire) = some s') : EngineInv s' := by
  simp only [Engine.step] at hs
  split at hs
  · cases hs
  split at hs
  · next hp =>
    cases hs
    have hk := h.active_lt (.inr (show (s.sessions k).poller ≠ .absent by rw [hp]; nofun))
    refine (h.record hk fun _ hended => ?_).setPoller ?_
    · cases s.client.isSome with
      | false => exact hended
      | true => exact over_counters hended
    · show (Function.update s.sessions k _ k).poller.active = true
      rw [Function.update_self]
      show (s.sessions k).poller.active = true
      rw [hp]
      rfl
  · cases hs

/-- The other steps of a poller. -/
theorem check_wake (h : EngineInv s) {k : Nat} {act : EngineAct} (hact : act = .check k ∨ act = .wake k)
    (hs : s.step act = some s') : EngineInv s' := by
  rcases hact with rfl | rfl
  all_goals
    simp only [Engine.step] at hs
    split at hs
    · next hp =>
      cases hs
      exact h.setPoller (by rw [hp]; rfl)
    · cases hs

theorem step (h : EngineInv s) {act : EngineAct} (hok : s.Serial act) (hs : s.step act = some s') :
    EngineInv s' := by
  cases act with
  | start answers =>
    simp only [Engine.step] at hs
    split at hs
    · cases hs
    cases hs
    exact h.start (of_decide_eq_true hok) answers
  | stopRequest t => exact h.stopRequest (of_decide_eq_true hok) hs
  | stopFlag t => exact h.stopFlag hs
  | stopTake t => exact h.stopTake hs
  | joinPoller t => exact h.joinPoller hs
  | joinWorker t => exact h.joinWorker hs
  | stopReset t =>
    simp only [Engine.step] at hs
    split at hs
    · cases hs
    split at hs
    · next ht =>
      cases hs
      exact h.stopReset ht
    · cases hs
  | connect k => exact h.connect hs
  | event k e => exact h.event hs
  | returns k outcome => exact h.returns hs
  | report k => exact h.report hs
  | check k => exact h.check_wake (.inl rfl) hs
  | poll k tun wire => exact h.poll hs
  | wake k => exact h.check_wake (.inr rfl) hs

end EngineInv

/-- In every run in which no `start` and no `stop` comes while a `stop` is in progress, the
engine is safe. -/
theorem sessions_safe {acts : List EngineAct} {s : Engine}
    (hok : RunMeets Engine.step Engine.Serial {} acts) (h : run Engine.step {} acts = some s) :
    Safe s :=
  (run_invariant (fun _ _ _ h hok hs => EngineInv.step h hok hs) .init hok h).safe

/-- A session that connects, is polled and is stopped. -/
def session : List EngineAct :=
  [.start {}, .check 0, .connect 0, .event 0 { name := "RESOLVE" }, .event 0 { name := "CONNECTED" },
    .poll 0 {} { bytesIn := 7 }, .wake 0, .stopRequest 1, .check 0, .stopFlag 1, .stopTake 1,
    .poll 0 {} { bytesIn := 9 }, .returns 0 none, .wake 0, .report 0, .check 0, .joinPoller 1,
    .joinWorker 1]

theorem sessions_safe_session : ∃ s, run Engine.step {} session = some s ∧
    (s.sessions 0).worker = .done ∧ Safe s :=
  ⟨_, rfl, rfl, @sessions_safe session _ (by decide) rfl⟩

/-- Another `stop` has no thread to wait for and destroys the client that is in use. -/
example : (run Engine.step {} [.start {}, .connect 0, .stopRequest 1, .stopFlag 1, .stopTake 1,
    .stopRequest 2, .stopFlag 2, .stopTake 2, .joinPoller 2, .joinWorker 2, .stopReset 2]).map
    Engine.broken = some true := rfl

/-! ## After `stop` -/

def EngineAct.isStart : EngineAct → Bool
  | .start _ => true
  | _ => false

/-- The host is called as often in the one state as in the other. -/
def Silent (s s' : Engine) : Prop := ∀ k, (s'.sessions k).calls = (s.sessions k).calls

theorem Worker.eq_of_not_active {worker : Worker} (h : worker.active = false) :
    worker = .absent ∨ worker = .done := by
  cases worker with
  | absent => exact .inl rfl
  | done => exact .inr rfl
  | _ => cases h

theorem Poller.eq_of_not_active {poller : Poller} (h : poller.active = false) :
    poller = .absent ∨ poller = .done := by
  cases poller with
  | absent => exact .inl rfl
  | done => exact .inr rfl
  | _ => cases h

namespace Quiet

variable {s s' : Engine}

theorem of_eq (h : Quiet s) (hs : s'.sessions = s.sessions) : Quiet s' ∧ Silent s s' := by
  refine ⟨fun k => ?_, fun k => ?_⟩
  · rw [hs]
    exact h k
  · rw [hs]

/-- Only a thread of a session calls the host, and only `start` makes one. -/
theorem step (h : Quiet s) {act : EngineAct} (hact : act.isStart = false)
    (hs : s.step act = some s') : Quiet s' ∧ Silent s s' := by
  cases act with
  | start answers => cases hact
  | stopRequest t =>
    simp only [Engine.step] at hs
    split at hs
    · cases hs
    split at hs
    · cases hs
      exact h.of_eq rfl
    · cases hs
  | stopFlag t =>
    simp only [Engine.step] at hs
    split at hs
    · cases hs
      exact h.of_eq rfl
    · cases hs
  | stopTake t =>
    simp only [Engine.step] at hs
    split at hs
    · cases hs
    split at hs
    · cases hs
      exact h.of_eq rfl
    · cases hs
  | joinPoller t =>
    simp only [Engine.step] at hs
    split at hs
    · split at hs
      · cases hs
        exact h.of_eq rfl
      · cases hs
    · cases hs
  | joinWorker t =>
    simp only [Engine.step] at hs
    split at hs
    · split at hs
      · cases hs
        exact h.of_eq rfl
      · cases hs
    · cases hs
  | stopReset t =>
    simp only [Engine.step] at hs
    split at hs
    · cases hs
    split at hs
    · cases hs
      refine ⟨EngineInv.quiet_resetClient h, fun k => ?_⟩
      show (s.resetClient.sessions k).calls = _
      rw [EngineInv.resetClient_session]
    · cases hs
  | connect k | event k e | returns k outcome | report k =>
    rcases Worker.eq_of_not_active (h k).1 with hw | hw <;> simp [Engine.step, hw] at hs
  | check k | poll k tun wire | wake k =>
    rcases Poller.eq_of_not_active (h k).2 with hp | hp <;> simp [Engine.step, hp] at hs

theorem run (h : Quiet s) {acts : List EngineAct} (hacts : ∀ act ∈ acts, act.isStart = false)
    (hr : run Engine.step s acts = some s') : Silent s s' := by
  induction acts generalizing s with
  | nil =>
    cases hr
    exact fun _ => rfl
  | cons act acts ih =>
    rw [List.forall_mem_cons] at hacts
    obtain ⟨s₁, hs, hr⟩ := run_cons.mp hr
    obtain ⟨h₁, hsilent⟩ := h.step hacts.1 hs
    exact fun k => (ih h₁ hacts.2 hr k).trans (hsilent k)

end Quiet

/-- In every run in which no `start` and no `stop` comes while a `stop` is in progress: once a
`stop` has returned, the host is not called until the next `start`, whatever else is called,
overlapping stops too, and however many times. -/
theorem host_silent_after_stop {acts later : List EngineAct} {s s₁ s' : Engine} {t : Nat}
    (hok : RunMeets Engine.step Engine.Serial {} acts) (h : run Engine.step {} acts = some s)
    (hstop : s.step (.stopReset t) = some s₁) (hlater : ∀ act ∈ later, act.isStart = false)
    (h' : run Engine.step s₁ later = some s') : s₁.client = none ∧ Quiet s₁ ∧ Silent s s' := by
  have hinv : EngineInv s := run_invariant (fun _ _ _ h hok hs => EngineInv.step h hok hs) .init hok h
  simp only [Engine.step] at hstop
  split at hstop
  · cases hstop
  split at hstop
  · next ht =>
    have hq₁ : Quiet s₁ := by
      rw [← Option.some.inj hstop]
      exact EngineInv.quiet_resetClient (hinv.quiet_of_joined ht)
    have hcalls : Silent s s₁ := fun k => by
      rw [← Option.some.inj hstop]
      show (s.resetClient.sessions k).calls = _
      rw [EngineInv.resetClient_session]
    have hclient : s₁.client = none := by
      rw [← Option.some.inj hstop]
      exact (EngineInv.resetClient_frame s).1
    exact ⟨hclient, hq₁, fun k => (hq₁.run hlater h' k).trans (hcalls k)⟩
  · cases hstop

theorem host_silent_after_stop_session : ∃ s s₁ s', run Engine.step {} session = some s ∧
    s.step (.stopReset 1) = some s₁ ∧
    run Engine.step s₁ [.stopRequest 2, .stopFlag 2, .stopTake 2] = some s' ∧
    s₁.client = none ∧ Quiet s₁ ∧ Silent s s' :=
  ⟨_, _, _, rfl, rfl, rfl, @host_silent_after_stop session
    [.stopRequest 2, .stopFlag 2, .stopTake 2] _ _ _ 1 (by decide) rfl rfl (by decide) rfl⟩

end NovaVpn.OpenVpn
