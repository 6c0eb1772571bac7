import NovaVpn.Services.ServiceHost

/-!
# What the body of the service is told

The order of the calls that the main function and the control handler make: the
handler knows nothing of `onStart`, and it is the controls that a status accepts
which keep it from a body that has not started.
-/

namespace NovaVpn.Service

open NovaVpn.Framework

/-- The entry is a call of the body by the handler, or `onStop`. -/
def HostEntry.ofBody : HostEntry → Bool
  | reported _ | eventCreated | started => false
  | _ => true

/-- `onStart` has returned ok. -/
def MainPhase.afterStart : MainPhase → Bool
  | started | running | leaving | inStop | unwound => true
  | _ => false

/-- There is no stop event yet. -/
def MainPhase.beforeEvent : MainPhase → Bool
  | registering | starting | inStart => true
  | _ => false

namespace Host

variable {s s' : Host}

/-- Nothing is asked of a body that has not started, and `onStop` follows a
request to stop. -/
def Ordered (log : List HostEntry) : Prop :=
  ∀ earlier entry, earlier ++ [entry] <+: log →
    (entry.ofBody = true → .started ∈ earlier) ∧ (entry = .onStop → .stopRequested ∈ earlier)

theorem Ordered.concat {log : List HostEntry} (h : Ordered log) {entry : HostEntry}
    (hbody : entry.ofBody = true → .started ∈ log) (hstop : entry = .onStop → .stopRequested ∈ log) :
    Ordered (log ++ [entry]) := by
  intro earlier entry' hprefix
  rcases List.prefix_concat_iff.mp hprefix with heq | hprefix
  · obtain ⟨rfl, hsingle⟩ := List.append_inj' heq rfl
    cases hsingle
    exact ⟨hbody, hstop⟩
  · exact h earlier entry' hprefix

structure BodyInv (s : Host) : Prop where
  before : s.main.beforeEvent = true → s.event = none
  created : s.main = .eventCreated → s.event ≠ none
  started : s.main.afterStart = true ∨ s.handler ≠ .idle → .started ∈ s.log
  accepted : ∀ status ∈ s.status, status.controlsAccepted ≠ [] → status.currentState ≠ .stopped →
    .started ∈ s.log
  event : .started ∈ s.log → s.event ≠ none
  requested : .stopRequested ∈ s.log ↔ s.event = some true
  left : s.main = .leaving ∨ s.main = .inStop → s.event = some true
  stopped : .onStop ∈ s.log → s.main = .unwound ∨ s.main = .ended
  once : s.log.count .onStop ≤ 1
  ordered : Ordered s.log

theorem bodyInv_initial : BodyInv {} where
  before _ := rfl
  created h := by cases h
  started h := by rcases h with h | h <;> [cases h; exact absurd rfl h]
  accepted _ h := by cases h
  event h := by cases h
  requested := ⟨nofun, nofun⟩
  left h := by rcases h with h | h <;> cases h
  stopped h := by cases h
  once := Nat.zero_le 1
  ordered _ _ hprefix := by simp at hprefix

/-- The threads go on without a word. -/
theorem BodyInv.moved (h : BodyInv s) {main : MainPhase} {handler : HandlerPhase}
    (hbefore : main.beforeEvent = true → s.event = none) (hcreated : main = .eventCreated → s.event ≠ none)
    (hstarted : main.afterStart = true ∨ handler ≠ .idle → .started ∈ s.log)
    (hleft : main = .leaving ∨ main = .inStop → s.event = some true)
    (hstopped : .onStop ∈ s.log → main = .unwound ∨ main = .ended) :
    BodyInv { s with main, handler } :=
  ⟨hbefore, hcreated, hstarted, h.accepted, h.event, h.requested, hleft, hstopped, h.once, h.ordered⟩

/-- An entry that is none of those the invariant speaks of. -/
theorem BodyInv.record (h : BodyInv s) (entry : HostEntry)
    (hbody : entry.ofBody = true → .started ∈ s.log) (hstarted : HostEntry.started ≠ entry)
    (hrequested : HostEntry.stopRequested ≠ entry) (hstop : HostEntry.onStop ≠ entry) :
    BodyInv (s.record entry) where
  before := h.before
  created := h.created
  started hs := List.mem_append_left _ (h.started hs)
  accepted status hstatus hne hrunning := List.mem_append_left _ (h.accepted status hstatus hne hrunning)
  event hs := h.event ((mem_concat_of_ne hstarted).mp hs)
  requested := (mem_concat_of_ne hrequested).trans h.requested
  left := h.left
  stopped hs := h.stopped ((mem_concat_of_ne hstop).mp hs)
  once := by
    show (s.log ++ [entry]).count .onStop ≤ 1
    rw [List.count_append, List.count_singleton, if_neg (by simpa using hstop.symm)]
    exact h.once
  ordered := h.ordered.concat hbody fun heq => absurd heq.symm hstop

theorem BodyInv.report (h : BodyInv s) (state : ServiceState) (exitCode : UInt32) (hint : Nat)
    (hstarted : state = .running ∨ state = .stopPending → .started ∈ s.log) :
    BodyInv (s.reportStatus state exitCode hint) := by
  have hrecord := h.record (.reported (statusOf s.checkPoint state exitCode hint)) nofun nofun nofun nofun
  refine ⟨h.before, h.created, hrecord.started, ?_, hrecord.event, hrecord.requested, hrecord.left, hrecord.stopped,
    hrecord.once, hrecord.ordered⟩
  intro status hstatus hne hrunning
  cases hstatus
  refine List.mem_append_left _ (hstarted ?_)
  cases state with
  | startPending => exact absurd rfl hne
  | stopped => exact absurd rfl hrunning
  | running => exact .inl rfl
  | stopPending => exact .inr rfl

theorem BodyInv.reported (h : BodyInv s) (state : ServiceState) (exitCode : UInt32) (hint : Nat)
    {main : MainPhase} {handler : HandlerPhase}
    (hstate : state = .running ∨ state = .stopPending → .started ∈ s.log)
    (hbefore : main.beforeEvent = true → s.event = none) (hcreated : main = .eventCreated → s.event ≠ none)
    (hstarted : main.afterStart = true ∨ handler ≠ .idle → .started ∈ s.log)
    (hleft : main = .leaving ∨ main = .inStop → s.event = some true)
    (hstopped : .onStop ∈ s.log → main = .unwound ∨ main = .ended) :
    BodyInv { s.reportStatus state exitCode hint with main, handler } :=
  (h.report state exitCode hint hstate).moved hbefore hcreated (fun hs => List.mem_append_left _ (hstarted hs)) hleft
    fun hs => hstopped ((mem_concat_of_ne (by nofun)).mp hs)

/-- Before the main function stops the body, it has not. -/
theorem BodyInv.not_stopped (h : BodyInv s) (hm : s.main ≠ .unwound ∧ s.main ≠ .ended) :
    .onStop ∉ s.log :=
  fun hs => (h.stopped hs).elim hm.1 hm.2

/-- What the handler does with a control needs a body that has started. -/
theorem BodyInv.control (h : BodyInv s) {control : Control}
    (hd : s.delivers control = true) : BodyInv (s.controlHandler control) := by
  obtain ⟨status, hstatus, hstopped, haccept, -⟩ := delivers_cases hd
  have hstarted : control.accept.isSome = true → .started ∈ s.log := by
    intro hsome
    obtain ⟨accept, heq⟩ := Option.isSome_iff_exists.mp hsome
    refine h.accepted status hstatus (fun hnil => ?_) hstopped
    have hmem := haccept accept heq
    rw [hnil] at hmem
    cases hmem
  have hstop : .started ∈ s.log → BodyInv { s with handler := .stopping } := fun hs =>
    h.moved h.before h.created (fun _ => hs) h.left h.stopped
  cases control with
  | stop => exact hstop (hstarted rfl)
  | shutdown => exact hstop (hstarted rfl)
  | powerEvent event =>
    cases event with
    | other => exact h
    | suspend => exact h.record .onSuspend (fun _ => hstarted rfl) nofun nofun nofun
    | _ => exact h.record .onResume (fun _ => hstarted rfl) nofun nofun nofun
  | sessionChange event notification =>
    cases notification with
    | none => exact h
    | some session =>
      exact h.record (.onSessionChange event session) (fun _ => hstarted rfl) nofun nofun nofun
  | _ => exact h

/-- `onStart` has returned ok. -/
theorem BodyInv.recordStarted (h : BodyInv s) (hm : s.main = .eventCreated) (hevent : s.event ≠ none) :
    BodyInv { s.record .started with main := .started } where
  before hs := by cases hs
  created hs := by cases hs
  started _ := List.mem_append_right _ List.mem_cons_self
  accepted _ _ _ _ := List.mem_append_right _ List.mem_cons_self
  event _ := hevent
  requested := (mem_concat_of_ne (by nofun)).trans h.requested
  left hs := by rcases hs with hs | hs <;> cases hs
  stopped hs := by
    rcases h.stopped ((mem_concat_of_ne (by nofun)).mp hs) with heq | heq <;> rw [hm] at heq <;> cases heq
  once := by
    show (s.log ++ [HostEntry.started]).count .onStop ≤ 1
    rw [List.count_append]
    exact h.once
  ordered := h.ordered.concat nofun nofun

theorem BodyInv.recordStop (h : BodyInv s) (hm : s.main = .inStop) :
    BodyInv { s.record .onStop with main := .unwound } where
  before hs := by cases hs
  created hs := by cases hs
  started _ := List.mem_append_left _ (h.started (.inl (by rw [hm]; rfl)))
  accepted status hstatus hne hrunning := List.mem_append_left _ (h.accepted status hstatus hne hrunning)
  event hs := h.event ((mem_concat_of_ne (by nofun)).mp hs)
  requested := (mem_concat_of_ne (by nofun)).trans h.requested
  left hs := by rcases hs with hs | hs <;> cases hs
  stopped _ := .inl rfl
  once := by
    have hnot : HostEntry.onStop ∉ s.log := fun hs => by
      rcases h.stopped hs with heq | heq <;> rw [hm] at heq <;> cases heq
    show (s.log ++ [HostEntry.onStop]).count .onStop ≤ 1
    rw [List.count_append, List.count_eq_zero_of_not_mem hnot]
    exact Nat.le_refl 1
  ordered := h.ordered.concat (fun _ => h.started (.inl (by rw [hm]; rfl)))
    fun _ => h.requested.mpr (h.left (.inr hm))

theorem BodyInv.requestStop (h : BodyInv s) (hrequesting : s.handler = .requesting) :
    BodyInv { s.requestStop with handler := .idle } := by
  have hstarted : .started ∈ s.log := h.started (.inr (by rw [hrequesting]; nofun))
  obtain ⟨set, hset⟩ := Option.ne_none_iff_exists'.mp (h.event hstarted)
  have hevent : s.requestStop.event = some true := by
    show s.event.map _ = _
    rw [hset]
    rfl
  refine ⟨fun hs => ?_, fun _ => ?_, fun _ => List.mem_append_left _ hstarted,
    fun _ _ _ _ => List.mem_append_left _ hstarted, fun _ => ?_, ?_, fun _ => hevent,
    fun hs => h.stopped ((mem_concat_of_ne (by nofun)).mp hs), ?_, ?_⟩
  · rw [h.before hs] at hset
    cases hset
  · show s.requestStop.event ≠ none
    rw [hevent]
    nofun
  · show s.requestStop.event ≠ none
    rw [hevent]
    nofun
  · exact iff_of_true (List.mem_append_right _ List.mem_cons_self) hevent
  · show (s.log ++ [HostEntry.stopRequested]).count .onStop ≤ 1
    rw [List.count_append]
    exact h.once
  · exact h.ordered.concat (fun _ => hstarted) nofun

/-- `onStart` has created the stop event. -/
theorem BodyInv.recordEvent (h : BodyInv s) (hm : s.main = .inStart) :
    BodyInv { s.record .eventCreated with event := some false, main := .eventCreated } := by
  have hnone : s.event = none := h.before (by rw [hm]; rfl)
  have hrecord := h.record .eventCreated nofun nofun nofun nofun
  have hnot := h.not_stopped (by rw [hm]; decide)
  refine ⟨nofun, fun _ => nofun, fun hs => hrecord.started (hs.imp_left nofun), hrecord.accepted,
    fun _ => nofun, ⟨fun hs => ?_, nofun⟩, by nofun, fun hs => ?_, hrecord.once, hrecord.ordered⟩
  · have hset := h.requested.mp ((mem_concat_of_ne (by nofun)).mp hs)
    rw [hnone] at hset
    cases hset
  · exact absurd ((mem_concat_of_ne (by nofun)).mp hs) hnot

/-- Before `onStart` has returned only a handler at work says that the body has started. -/
theorem BodyInv.heard (h : BodyInv s) {main : MainPhase} (hmain : ¬ main.afterStart = true)
    (hs : main.afterStart = true ∨ s.handler ≠ .idle) : .started ∈ s.log :=
  h.started (.inr (hs.resolve_left hmain))

theorem BodyInv.register (h : BodyInv s) {ok : Bool}
    (hs : s.step (.register ok) = some s') : BodyInv s' := by
  simp only [Host.step] at hs
  split at hs
  next hm =>
    cases hs
    have hnot := h.not_stopped (by rw [hm]; decide)
    have hnone := h.before (by rw [hm]; rfl)
    cases ok <;> exact h.moved (fun _ => hnone) (absurd · (by decide)) (h.heard (by decide))
      (absurd · (by decide)) fun hs => absurd hs hnot
  next => cases hs

theorem BodyInv.createEvent (h : BodyInv s) {ok : Bool}
    (hs : s.step (.createEvent ok) = some s') : BodyInv s' := by
  simp only [Host.step] at hs
  split at hs
  next hm =>
    have hnot := h.not_stopped (by rw [hm]; decide)
    cases ok
    · cases hs
      exact h.moved (absurd · (by decide)) (absurd · (by decide)) (h.heard (by decide))
        (absurd · (by decide)) fun hs => absurd hs hnot
    · cases hs
      exact h.recordEvent hm
  next => cases hs

theorem BodyInv.startReturns (h : BodyInv s) {ok : Bool}
    (hs : s.step (.startReturns ok) = some s') : BodyInv s' := by
  simp only [Host.step] at hs
  split at hs
  next hm =>
    have hnot := h.not_stopped (by rw [hm]; decide)
    cases ok <;> cases hs
    exact h.moved (absurd · (by decide)) (absurd · (by decide)) (h.heard (by decide))
      (absurd · (by decide)) fun hs => absurd hs hnot
  next hm =>
    have hnot := h.not_stopped (by rw [hm]; decide)
    cases ok <;> cases hs
    · exact h.moved (absurd · (by decide)) (absurd · (by decide)) (h.heard (by decide))
        (absurd · (by decide)) fun hs => absurd hs hnot
    · exact h.recordStarted hm (h.created hm)
  next => cases hs

theorem BodyInv.reportRunning (h : BodyInv s)
    (hs : s.step .reportRunning = some s') : BodyInv s' := by
  simp only [Host.step] at hs
  split at hs
  next hm =>
    cases hs
    have hnot := h.not_stopped (by rw [hm]; decide)
    have hstarted := h.started (.inl (by rw [hm]; rfl))
    exact h.reported .running Win.noError 0 (fun _ => hstarted) (absurd · (by decide)) (absurd · (by decide))
      (fun _ => hstarted) (absurd · (by decide)) fun hs => absurd hs hnot
  next => cases hs

theorem BodyInv.runReturns (h : BodyInv s) (hs : s.step .runReturns = some s') : BodyInv s' := by
  simp only [Host.step] at hs
  split at hs
  next hc =>
    cases hs
    have hnot := h.not_stopped (by rw [hc.1]; decide)
    exact h.moved (absurd · (by decide)) (absurd · (by decide))
      (fun _ => h.started (.inl (by rw [hc.1]; rfl))) (fun _ => hc.2) fun hs => absurd hs hnot
  next => cases hs

theorem BodyInv.reportStopping (h : BodyInv s)
    (hs : s.step .reportStopping = some s') : BodyInv s' := by
  simp only [Host.step] at hs
  split at hs
  next hm =>
    cases hs
    have hnot := h.not_stopped (by rw [hm]; decide)
    have hstarted := h.started (.inl (by rw [hm]; rfl))
    exact h.reported .stopPending Win.noError 20000 (fun _ => hstarted) (absurd · (by decide))
      (absurd · (by decide)) (fun _ => hstarted) (fun _ => h.left (.inl hm)) fun hs => absurd hs hnot
  next => cases hs

theorem BodyInv.step (h : BodyInv s) {act : HostAct} (hs : s.step act = some s') : BodyInv s' := by
  cases act with
  | control control =>
    simp only [Host.step] at hs
    split at hs
    next hc =>
      cases hs
      exact h.control hc.2
    next => cases hs
  | register ok => exact h.register hs
  | reportStart =>
    simp only [Host.step] at hs
    split at hs
    next hm =>
      cases hs
      have hnot := h.not_stopped (by rw [hm]; decide)
      exact h.reported .startPending Win.noError 30000 (absurd · (by decide)) (fun _ => h.before (by rw [hm]; rfl))
        (absurd · (by decide)) (h.heard (by decide)) (absurd · (by decide)) fun hs => absurd hs hnot
    next => cases hs
  | createEvent ok => exact h.createEvent hs
  | startReturns ok => exact h.startReturns hs
  | reportFailed =>
    simp only [Host.step] at hs
    split at hs
    next hm =>
      cases hs
      exact h.reported .stopped errorServiceSpecificError 0 (absurd · (by decide)) (absurd · (by decide))
        (absurd · (by decide)) (h.heard (by decide)) (absurd · (by decide)) fun _ => .inr rfl
    next => cases hs
  | reportRunning => exact h.reportRunning hs
  | runReturns => exact h.runReturns hs
  | reportStopping => exact h.reportStopping hs
  | onStop =>
    simp only [Host.step] at hs
    split at hs
    next hm =>
      cases hs
      exact h.recordStop hm
    next => cases hs
  | reportStopped =>
    simp only [Host.step] at hs
    split at hs
    next hm =>
      cases hs
      exact h.reported .stopped Win.noError 0 (absurd · (by decide)) (absurd · (by decide))
        (absurd · (by decide)) (h.heard (by decide)) (absurd · (by decide)) fun _ => .inr rfl
    next => cases hs
  | handlerReports =>
    simp only [Host.step] at hs
    split at hs
    next hstopping =>
      cases hs
      have hstarted := h.started (.inr (by rw [hstopping]; decide))
      exact h.reported .stopPending Win.noError 20000 (fun _ => hstarted) h.before h.created
        (fun _ => hstarted) h.left h.stopped
    next => cases hs
  | handlerRequests =>
    simp only [Host.step] at hs
    split at hs
    next hrequesting =>
      cases hs
      exact h.requestStop hrequesting
    next => cases hs

/-- The body hears nothing from the handler before it has started, it is stopped at
most once and after a request, and once there was one `run` can return. -/
theorem body_protocol {acts : List HostAct} (hr : run step ({} : Host) acts = some s) :
    Ordered s.log ∧ s.log.count .onStop ≤ 1 ∧
      (.stopRequested ∈ s.log → s.main = .running → (s.step .runReturns).isSome = true) := by
  have h : BodyInv s := run_invariant' (fun _ _ _ h hs => h.step hs) bodyInv_initial hr
  refine ⟨h.ordered, h.once, fun hrequested hm => ?_⟩
  rw [Host.step, if_pos ⟨hm, h.requested.mp hrequested⟩]
  rfl

theorem body_protocol_stop : ∃ s, run step ({} : Host) (stopActs.take 9) = some s ∧
    (s.step .runReturns).isSome = true :=
  ⟨_, rfl, (@body_protocol _ (stopActs.take 9) rfl).2.2 (by decide) rfl⟩

end Host

end NovaVpn.Service
