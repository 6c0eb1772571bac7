import Mathlib.Data.List.Infix
import NovaVpn.Core.Status
import NovaVpn.Framework.Machine

/-!
# The service host

`Services/ServiceHost.cpp`: the main function of the service, which reports how
far it has come to the service control manager, and the control handler, which
runs on the thread of the dispatcher, one control at a time. `reportStatus` is
one step, as it holds its mutex. Of the body there is the stop event, which
`onStart` creates and `requestStop` sets, and the calls the host makes.

The manager delivers a control that the last reported status accepts to a
service that is not stopped, and a stop to a running one only. A check point is
counted without overflow: a run reports three that are pending.
-/

namespace NovaVpn.Service

open NovaVpn.Framework

/-! ## The status -/

/-- `dwCurrentState`. -/
inductive ServiceState where
  | startPending | running | stopPending | stopped
  deriving DecidableEq, Repr

/-- `dwControlsAccepted`. -/
inductive Accept where
  | stop | shutdown | powerEvent | sessionChange
  deriving DecidableEq, Repr

/-- `SERVICE_STATUS`. -/
structure ServiceStatus where
  currentState : ServiceState
  win32ExitCode : UInt32 := Win.noError
  waitHint : Nat := 0
  controlsAccepted : List Accept
  checkPoint : Nat := 0
  deriving DecidableEq, Repr

def errorServiceSpecificError : UInt32 := 1066

inductive PowerEvent where
  | suspend | resumeAutomatic | resumeSuspend | other
  deriving DecidableEq, Repr

/-- A control code with its data; `notification` is the session of a
`WTSSESSION_NOTIFICATION`, if there is one. -/
inductive Control where
  | stop
  | shutdown
  | powerEvent (event : PowerEvent)
  | sessionChange (event : UInt32) (notification : Option UInt32)
  | interrogate
  | other (code : UInt32)
  deriving DecidableEq, Repr

/-- What a status has to accept for the control, if anything. -/
def Control.accept : Control → Option Accept
  | stop => some .stop
  | shutdown => some .shutdown
  | powerEvent _ => some .powerEvent
  | sessionChange .. => some .sessionChange
  | interrogate | other _ => none

/-! ## The host -/

inductive MainPhase where
  /-- Before `RegisterServiceCtrlHandlerExW`. -/
  | registering
  | starting
  /-- In `onStart`, without a stop event. -/
  | inStart
  | eventCreated
  /-- `onStart` has failed. -/
  | failed
  | started
  /-- In `run`. -/
  | running
  | leaving
  | inStop
  | unwound
  | ended
  deriving DecidableEq, Repr

inductive HandlerPhase where
  | idle
  /-- With a stop or a shutdown, before the report. -/
  | stopping
  /-- Before `requestStop`. -/
  | requesting
  deriving DecidableEq, Repr

inductive HostEntry where
  | reported (status : ServiceStatus)
  | eventCreated
  /-- `onStart` has returned ok. -/
  | started
  | stopRequested
  | onSuspend
  | onResume
  | onSessionChange (event session : UInt32)
  | onStop
  deriving DecidableEq, Repr

structure Host where
  status : Option ServiceStatus := none
  checkPoint : Nat := 1
  /-- `m_stopEvent`, and whether it is set. -/
  event : Option Bool := none
  main : MainPhase := .registering
  handler : HandlerPhase := .idle
  log : List HostEntry := []

inductive HostAct where
  | register (ok : Bool)
  | reportStart
  | createEvent (ok : Bool)
  | startReturns (ok : Bool)
  | reportFailed
  | reportRunning
  | runReturns
  | reportStopping
  | onStop
  | reportStopped
  | control (control : Control)
  | handlerReports
  | handlerRequests
  deriving DecidableEq, Repr

/-- What `reportStatus` makes of its arguments. -/
def statusOf (checkPoint : Nat) (currentState : ServiceState) (win32ExitCode : UInt32)
    (waitHint : Nat) : ServiceStatus where
  currentState
  win32ExitCode
  waitHint
  controlsAccepted :=
    if currentState = .startPending then [] else [.stop, .shutdown, .powerEvent, .sessionChange]
  checkPoint := if currentState = .running || currentState = .stopped then 0 else checkPoint

namespace Host

def record (s : Host) (entry : HostEntry) : Host := { s with log := s.log ++ [entry] }

def reportStatus (s : Host) (currentState : ServiceState) (win32ExitCode : UInt32) (waitHint : Nat) :
    Host :=
  let status := statusOf s.checkPoint currentState win32ExitCode waitHint
  { s with
    status := some status
    checkPoint :=
      if currentState = .running || currentState = .stopped then s.checkPoint else s.checkPoint + 1
    log := s.log ++ [.reported status] }

/-- `requestStop`. -/
def requestStop (s : Host) : Host :=
  { s with event := s.event.map fun _ => true, log := s.log ++ [.stopRequested] }

/-- The manager delivers the control. -/
def delivers (s : Host) (control : Control) : Bool :=
  match s.status with
  | none => false
  | some status =>
    status.currentState ≠ .stopped &&
      (control.accept.all fun accept => accept ∈ status.controlsAccepted) &&
      (control ≠ .stop || status.currentState = .running)

/-- `controlHandler`, up to the report of a stop. -/
def controlHandler (s : Host) : Control → Host
  | .stop | .shutdown => { s with handler := .stopping }
  | .powerEvent .suspend => s.record .onSuspend
  | .powerEvent .resumeAutomatic | .powerEvent .resumeSuspend => s.record .onResume
  | .powerEvent .other => s
  | .sessionChange event (some session) => s.record (.onSessionChange event session)
  | .sessionChange _ none | .interrogate | .other _ => s

def step (s : Host) : HostAct → Option Host
  | .register ok =>
    if s.main = .registering then some { s with main := if ok then .starting else .ended } else none
  | .reportStart =>
    if s.main = .starting then
      some { s.reportStatus .startPending Win.noError 30000 with main := .inStart }
    else none
  | .createEvent ok =>
    if s.main = .inStart then
      some (if ok then { s.record .eventCreated with event := some false, main := .eventCreated }
        else { s with main := .failed })
    else none
  | .startReturns ok =>
    match s.main with
    | .inStart => if ok then none else some { s with main := .failed }
    | .eventCreated =>
      some (if ok then { s.record .started with main := .started } else { s with main := .failed })
    | _ => none
  | .reportFailed =>
    if s.main = .failed then
      some { s.reportStatus .stopped errorServiceSpecificError 0 with main := .ended }
    else none
  | .reportRunning =>
    if s.main = .started then
      some { s.reportStatus .running Win.noError 0 with main := .running }
    else none
  | .runReturns =>
    if s.main = .running ∧ s.event = some true then some { s with main := .leaving } else none
  | .reportStopping =>
    if s.main = .leaving then
      some { s.reportStatus .stopPending Win.noError 20000 with main := .inStop }
    else none
  | .onStop =>
    if s.main = .inStop then some { s.record .onStop with main := .unwound } else none
  | .reportStopped =>
    if s.main = .unwound then
      some { s.reportStatus .stopped Win.noError 0 with main := .ended }
    else none
  | .control control =>
    if s.handler = .idle ∧ s.delivers control = true then some (s.controlHandler control) else none
  | .handlerReports =>
    if s.handler = .stopping then
      some { s.reportStatus .stopPending Win.noError 20000 with handler := .requesting }
    else none
  | .handlerRequests =>
    if s.handler = .requesting then some { s.requestStop with handler := .idle } else none

/-- What was reported, from the first on. -/
def reports (log : List HostEntry) : List ServiceStatus :=
  log.filterMap fun
    | .reported status => some status
    | _ => none

/-! ## What the manager is told -/

/-- The reports of a service that starts and is stopped. -/
def runStatuses : List ServiceStatus :=
  [statusOf 1 .startPending Win.noError 30000, statusOf 2 .running Win.noError 0,
    statusOf 2 .stopPending Win.noError 20000, statusOf 3 .stopPending Win.noError 20000,
    statusOf 4 .stopped Win.noError 0]

/-- Those of one that does not start. -/
def failedStatuses : List ServiceStatus :=
  [statusOf 1 .startPending Win.noError 30000, statusOf 2 .stopped errorServiceSpecificError 0]

/-- A shutdown is sent to a running service. -/
def Orderly (s : Host) (act : HostAct) : Prop :=
  act = .control .shutdown → ∀ status ∈ s.status, status.currentState = .running

/-- The reports so far, the last of which is the status, and the next check point. -/
structure At (s : Host) (statuses : List ServiceStatus) (checkPoint : Nat) : Prop where
  reports_eq : reports s.log = statuses
  status_eq : s.status = statuses.getLast?
  checkPoint_eq : s.checkPoint = checkPoint

variable {s s' : Host} {statuses : List ServiceStatus} {checkPoint : Nat}

theorem reports_concat (log : List HostEntry) (entry : HostEntry) :
    reports (log ++ [entry]) = reports log ++ reports [entry] := List.filterMap_append

theorem mem_concat_of_ne {log : List HostEntry} {entry entry' : HostEntry} (hne : entry' ≠ entry) :
    entry' ∈ log ++ [entry] ↔ entry' ∈ log := by
  rw [List.mem_append, List.mem_singleton]
  exact or_iff_left hne

theorem At.report (h : s.At statuses checkPoint) (state : ServiceState) (exitCode : UInt32)
    (hint : Nat) : (s.reportStatus state exitCode hint).At
      (statuses ++ [statusOf checkPoint state exitCode hint])
      (if state = .running || state = .stopped then checkPoint else checkPoint + 1) where
  reports_eq := by
    show reports (s.log ++ [_]) = _
    rw [reports_concat, h.reports_eq, h.checkPoint_eq]
    rfl
  status_eq := by
    rw [List.getLast?_concat, ← h.checkPoint_eq]
    rfl
  checkPoint_eq := by
    rw [← h.checkPoint_eq]
    rfl

/-- The phases and the event are no part of it. -/
theorem At.moved (h : s.At statuses checkPoint) (main : MainPhase) (handler : HandlerPhase)
    (event : Option Bool) : At { s with main, handler, event } statuses checkPoint :=
  ⟨h.reports_eq, h.status_eq, h.checkPoint_eq⟩

/-- Other entries are no reports. -/
theorem At.record (h : s.At statuses checkPoint) {entry : HostEntry} (hentry : reports [entry] = []) :
    (s.record entry).At statuses checkPoint where
  reports_eq := by
    show reports (s.log ++ [entry]) = statuses
    rw [reports_concat, hentry, List.append_nil, h.reports_eq]
  status_eq := h.status_eq
  checkPoint_eq := h.checkPoint_eq

/-- How far both threads are, by what they have reported. -/
def Stage (s : Host) : Prop :=
  match s.main with
  | .registering | .starting => s.At [] 1 ∧ s.handler = .idle ∧ s.event ≠ some true
  | .inStart | .eventCreated | .failed | .started =>
    s.At (runStatuses.take 1) 2 ∧ s.handler = .idle ∧ s.event ≠ some true
  | .running =>
    s.event ≠ some true ∧
        (s.At (runStatuses.take 2) 2 ∧ s.handler ≠ .requesting ∨
          s.At (runStatuses.take 3) 3 ∧ s.handler = .requesting) ∨
      s.At (runStatuses.take 3) 3 ∧ s.handler = .idle
  | .leaving => s.At (runStatuses.take 3) 3 ∧ s.handler = .idle
  | .inStop | .unwound => s.At (runStatuses.take 4) 4 ∧ s.handler = .idle
  | .ended =>
    (s.At [] 1 ∨ s.At runStatuses 4 ∨ s.At failedStatuses 2) ∧ s.handler = .idle

/-- What `run` and a handler that is not idle have reported. -/
def Stopping (s : Host) : Prop :=
  s.At (runStatuses.take 2) 2 ∧ s.handler ≠ .requesting ∨
    s.At (runStatuses.take 3) 3 ∧ s.handler = .requesting

theorem stage_running (hm : s.main = .running)
    (h : s.event ≠ some true ∧ s.Stopping ∨ s.At (runStatuses.take 3) 3 ∧ s.handler = .idle) :
    s.Stage := by
  rw [Stage, hm]
  exact h

/-- The handler only has a stop while the service runs. -/
theorem Stage.busy (h : s.Stage) (hbusy : s.handler ≠ .idle) :
    s.main = .running ∧ s.event ≠ some true ∧ s.Stopping := by
  unfold Stage at h
  cases hm : s.main with
  | running =>
    rw [hm] at h
    exact ⟨rfl, h.resolve_right fun hidle => hbusy hidle.2⟩
  | registering | starting | inStart | eventCreated | failed | started =>
    rw [hm] at h
    exact absurd h.2.1 hbusy
  | leaving | inStop | unwound | ended =>
    rw [hm] at h
    exact absurd h.2 hbusy

/-- What the handler does with a control that is no stop. -/
theorem controlHandler_cases (s : Host) (control : Control) :
    (control = .stop ∨ control = .shutdown) ∧ s.controlHandler control = { s with handler := .stopping } ∨
      s.controlHandler control = s ∨
      control.accept.isSome = true ∧ ∃ entry, reports [entry] = [] ∧ s.controlHandler control = s.record entry := by
  cases control with
  | stop => exact .inl ⟨.inl rfl, rfl⟩
  | shutdown => exact .inl ⟨.inr rfl, rfl⟩
  | powerEvent event =>
    cases event with
    | other => exact .inr (.inl rfl)
    | suspend => exact .inr (.inr ⟨rfl, .onSuspend, rfl, rfl⟩)
    | _ => exact .inr (.inr ⟨rfl, .onResume, rfl, rfl⟩)
  | sessionChange event notification =>
    cases notification with
    | none => exact .inr (.inl rfl)
    | some session => exact .inr (.inr ⟨rfl, .onSessionChange event session, rfl, rfl⟩)
  | _ => exact .inr (.inl rfl)

theorem delivers_cases {control : Control} (h : s.delivers control = true) :
    ∃ status, s.status = some status ∧ status.currentState ≠ .stopped ∧
      (∀ accept ∈ control.accept, accept ∈ status.controlsAccepted) ∧
      (control = .stop → status.currentState = .running) := by
  unfold delivers at h
  split at h
  · cases h
  next status hstatus =>
    simp only [ne_eq, Bool.and_eq_true, Bool.or_eq_true, decide_eq_true_eq, Option.all_eq_true] at h
    obtain ⟨⟨hstopped, haccept⟩, hstop⟩ := h
    exact ⟨status, hstatus, hstopped, haccept, fun heq => hstop.resolve_left (not_not.mpr heq)⟩

/-- A service that is not running gets no stop, and one that is not started none
of the controls it would have to accept. -/
theorem controlHandler_quiet {control : Control} {status : ServiceStatus}
    (hstatus : s.status = some status) (hnot : status.currentState ≠ .running)
    (hd : s.delivers control = true) (hord : s.Orderly (.control control)) :
    s.controlHandler control = s ∨ status.controlsAccepted ≠ [] ∧
      ∃ entry, reports [entry] = [] ∧ s.controlHandler control = s.record entry := by
  obtain ⟨status', hstatus', -, haccept, hstop⟩ := delivers_cases hd
  obtain rfl : status' = status := Option.some.inj (hstatus'.symm.trans hstatus)
  rcases controlHandler_cases s control with ⟨rfl | rfl, -⟩ | hsame | ⟨hsome, hrecord⟩
  · exact absurd (hstop rfl) hnot
  · exact absurd (hord rfl status' hstatus) hnot
  · exact .inl hsame
  · obtain ⟨accept, heq⟩ := Option.isSome_iff_exists.mp hsome
    refine .inr ⟨fun hnil => ?_, hrecord⟩
    have hmem := haccept accept heq
    rw [hnil] at hmem
    cases hmem

theorem Stage.control (h : s.Stage) (hidle : s.handler = .idle) {control : Control}
    (hd : s.delivers control = true) (hord : s.Orderly (.control control)) :
    (s.controlHandler control).Stage := by
  obtain ⟨status, hstatus, hstopped, -⟩ := delivers_cases hd
  -- What is recorded changes neither the phases nor what was reported.
  have hquiet : ∀ {statuses checkPoint}, s.At statuses checkPoint → status.currentState ≠ .running →
      (s.controlHandler control).At statuses checkPoint ∧
        (s.controlHandler control).main = s.main ∧ (s.controlHandler control).handler = s.handler ∧
        (s.controlHandler control).event = s.event := by
    intro statuses checkPoint hat hnot
    rcases controlHandler_quiet hstatus hnot hd hord with heq | ⟨-, entry, hentry, heq⟩ <;> rw [heq]
    · exact ⟨hat, rfl, rfl, rfl⟩
    · exact ⟨hat.record hentry, rfl, rfl, rfl⟩
  have hstate : ∀ {statuses checkPoint state code hint n}, s.At statuses checkPoint →
      statuses.getLast? = some (statusOf n state code hint) → status.currentState = state := by
    intro statuses checkPoint state code hint n hat hlast
    rw [hat.status_eq, hlast] at hstatus
    cases hstatus
    rfl
  unfold Stage at h ⊢
  cases hm : s.main with
  | registering | starting =>
    rw [hm] at h
    rw [h.1.status_eq] at hstatus
    cases hstatus
  | inStart | eventCreated | failed | started =>
    rw [hm] at h
    have hnot := hstate h.1 rfl
    obtain ⟨hat, hmain, hhandler, hevent⟩ := hquiet h.1 (by rw [hnot]; decide)
    rw [hmain, hm, hhandler, hevent]
    exact ⟨hat, h.2⟩
  | running =>
    rw [hm] at h
    rcases h with ⟨hevent, ⟨hat, hhandler⟩ | ⟨-, hhandler⟩⟩ | ⟨hat, -⟩
    · rcases controlHandler_cases s control with ⟨-, heq⟩ | heq | ⟨-, entry, hentry, heq⟩ <;> rw [heq]
      · rw [hm]
        exact .inl ⟨hevent, .inl ⟨hat.moved _ _ _, nofun⟩⟩
      · rw [hm]
        exact .inl ⟨hevent, .inl ⟨hat, hhandler⟩⟩
      · rw [show (s.record entry).main = .running from hm]
        exact .inl ⟨hevent, .inl ⟨hat.record hentry, hhandler⟩⟩
    · rw [hidle] at hhandler
      cases hhandler
    · have hnot := hstate hat rfl
      obtain ⟨hat', hmain, hhandler, -⟩ := hquiet hat (by rw [hnot]; decide)
      rw [hmain, hm, hhandler]
      exact .inr ⟨hat', hidle⟩
  | leaving | inStop | unwound =>
    rw [hm] at h
    have hnot := hstate h.1 rfl
    obtain ⟨hat, hmain, hhandler, -⟩ := hquiet h.1 (by rw [hnot]; decide)
    rw [hmain, hm, hhandler]
    exact ⟨hat, h.2⟩
  | ended =>
    rw [hm] at h
    rcases h.1 with hat | hat | hat
    · rw [hat.status_eq] at hstatus
      cases hstatus
    · exact absurd (hstate hat rfl) hstopped
    · exact absurd (hstate hat rfl) hstopped

theorem Stage.register (h : s.Stage) {ok : Bool}
    (hs : s.step (.register ok) = some s') : s'.Stage := by
  simp only [Host.step] at hs
  split at hs
  next hm =>
    cases hs
    simp only [Stage, hm] at h
    cases ok
    · exact ⟨.inl (h.1.moved _ _ _), h.2.1⟩
    · exact ⟨h.1.moved _ _ _, h.2⟩
  next => cases hs

theorem Stage.reportStart (h : s.Stage) (hs : s.step .reportStart = some s') : s'.Stage := by
  simp only [Host.step] at hs
  split at hs
  next hm =>
    cases hs
    simp only [Stage, hm] at h
    exact ⟨(h.1.report .startPending Win.noError 30000).moved _ _ _, h.2⟩
  next => cases hs

theorem Stage.createEvent (h : s.Stage) {ok : Bool}
    (hs : s.step (.createEvent ok) = some s') : s'.Stage := by
  simp only [Host.step] at hs
  split at hs
  next hm =>
    simp only [Stage, hm] at h
    cases ok
    · cases hs
      exact ⟨h.1.moved _ _ _, h.2⟩
    · cases hs
      exact ⟨(h.1.record rfl).moved _ _ _, h.2.1, nofun⟩
  next => cases hs

theorem Stage.startReturns (h : s.Stage) {ok : Bool}
    (hs : s.step (.startReturns ok) = some s') : s'.Stage := by
  simp only [Host.step] at hs
  split at hs
  next hm =>
    simp only [Stage, hm] at h
    cases ok <;> cases hs
    exact ⟨h.1.moved _ _ _, h.2⟩
  next hm =>
    simp only [Stage, hm] at h
    cases ok <;> cases hs
    · exact ⟨h.1.moved _ _ _, h.2⟩
    · exact ⟨(h.1.record rfl).moved _ _ _, h.2⟩
  next => cases hs

theorem Stage.reportFailed (h : s.Stage) (hs : s.step .reportFailed = some s') : s'.Stage := by
  simp only [Host.step] at hs
  split at hs
  next hm =>
    cases hs
    simp only [Stage, hm] at h
    exact ⟨.inr (.inr ((h.1.report .stopped errorServiceSpecificError 0).moved _ _ _)), h.2.1⟩
  next => cases hs

theorem Stage.reportRunning (h : s.Stage) (hs : s.step .reportRunning = some s') : s'.Stage := by
  simp only [Host.step] at hs
  split at hs
  next hm =>
    cases hs
    simp only [Stage, hm] at h
    refine .inl ⟨h.2.2, .inl ⟨(h.1.report .running Win.noError 0).moved _ _ _, ?_⟩⟩
    show s.handler ≠ .requesting
    rw [h.2.1]
    nofun
  next => cases hs

/-- `run` only returns once it was requested to. -/
theorem Stage.runReturns (h : s.Stage) (hs : s.step .runReturns = some s') : s'.Stage := by
  simp only [Host.step] at hs
  split at hs
  next hc =>
    cases hs
    simp only [Stage, hc.1] at h
    rcases h with ⟨hevent, -⟩ | ⟨hat, hhandler⟩
    · exact absurd hc.2 hevent
    · exact ⟨hat.moved _ _ _, hhandler⟩
  next => cases hs

theorem Stage.reportStopping (h : s.Stage) (hs : s.step .reportStopping = some s') : s'.Stage := by
  simp only [Host.step] at hs
  split at hs
  next hm =>
    cases hs
    simp only [Stage, hm] at h
    exact ⟨(h.1.report .stopPending Win.noError 20000).moved _ _ _, h.2⟩
  next => cases hs

theorem Stage.onStop (h : s.Stage) (hs : s.step .onStop = some s') : s'.Stage := by
  simp only [Host.step] at hs
  split at hs
  next hm =>
    cases hs
    simp only [Stage, hm] at h
    exact ⟨(h.1.record rfl).moved _ _ _, h.2⟩
  next => cases hs

theorem Stage.reportStopped (h : s.Stage) (hs : s.step .reportStopped = some s') : s'.Stage := by
  simp only [Host.step] at hs
  split at hs
  next hm =>
    cases hs
    simp only [Stage, hm] at h
    exact ⟨.inr (.inl ((h.1.report .stopped Win.noError 0).moved _ _ _)), h.2⟩
  next => cases hs

/-- The handler has reported that the service is being stopped. -/
theorem Stage.handlerReports (h : s.Stage) (hs : s.step .handlerReports = some s') : s'.Stage := by
  simp only [Host.step] at hs
  split at hs
  next hstopping =>
    cases hs
    obtain ⟨hm, hevent, hstage⟩ := h.busy (by rw [hstopping]; nofun)
    rcases hstage with ⟨hat, -⟩ | ⟨-, hhandler⟩
    · exact stage_running hm (.inl ⟨hevent,
        .inr ⟨(hat.report .stopPending Win.noError 20000).moved _ _ _, rfl⟩⟩)
    · rw [hstopping] at hhandler
      cases hhandler
  next => cases hs

theorem Stage.handlerRequests (h : s.Stage)
    (hs : s.step .handlerRequests = some s') : s'.Stage := by
  simp only [Host.step] at hs
  split at hs
  next hrequesting =>
    cases hs
    obtain ⟨hm, -, hstage⟩ := h.busy (by rw [hrequesting]; nofun)
    rcases hstage with ⟨-, hhandler⟩ | ⟨hat, -⟩
    · exact absurd hrequesting hhandler
    · exact stage_running hm (.inr ⟨(hat.record rfl).moved _ _ _, rfl⟩)
  next => cases hs

theorem Stage.step (h : s.Stage) {act : HostAct} (hord : s.Orderly act) (hs : s.step act = some s') :
    s'.Stage := by
  cases act with
  | control control =>
    simp only [Host.step] at hs
    split at hs
    next hc =>
      cases hs
      exact h.control hc.1 hc.2 hord
    next => cases hs
  | register ok => exact h.register hs
  | reportStart => exact h.reportStart hs
  | createEvent ok => exact h.createEvent hs
  | startReturns ok => exact h.startReturns hs
  | reportFailed => exact h.reportFailed hs
  | reportRunning => exact h.reportRunning hs
  | runReturns => exact h.runReturns hs
  | reportStopping => exact h.reportStopping hs
  | onStop => exact h.onStop hs
  | reportStopped => exact h.reportStopped hs
  | handlerReports => exact h.handlerReports hs
  | handlerRequests => exact h.handlerRequests hs

theorem stage_initial : ({} : Host).Stage := ⟨⟨rfl, rfl, rfl⟩, rfl, nofun⟩

/-- What the manager is told is a part of one of two lists, from its beginning:
the check points count up while a state is pending, nothing but a report of a
stop follows that the service runs, and nothing follows that it is stopped. -/
theorem statuses_in_order {acts : List HostAct} (hok : RunMeets step Orderly {} acts)
    (hr : run step ({} : Host) acts = some s) :
    reports s.log <+: runStatuses ∨ reports s.log <+: failedStatuses := by
  have h : s.Stage := run_invariant (fun _ _ _ h hord => h.step hord) stage_initial hok hr
  have htake : ∀ {n checkPoint}, s.At (runStatuses.take n) checkPoint → reports s.log <+: runStatuses :=
    fun hat => hat.reports_eq ▸ List.take_prefix _ _
  unfold Stage at h
  cases hm : s.main with
  | registering | starting =>
    rw [hm] at h
    exact .inl (h.1.reports_eq ▸ List.nil_prefix)
  | inStart | eventCreated | failed | started | leaving | inStop | unwound =>
    rw [hm] at h
    exact .inl (htake h.1)
  | running =>
    rw [hm] at h
    rcases h with ⟨-, ⟨hat, -⟩ | ⟨hat, -⟩⟩ | ⟨hat, -⟩ <;> exact .inl (htake hat)
  | ended =>
    rw [hm] at h
    rcases h.1 with hat | hat | hat
    · exact .inl (hat.reports_eq ▸ List.nil_prefix)
    · exact .inl (hat.reports_eq ▸ List.prefix_rfl)
    · exact .inr (hat.reports_eq ▸ List.prefix_rfl)

example : runStatuses.map ServiceStatus.checkPoint = [1, 0, 2, 3, 0] := by decide

/-- A service that is stopped. -/
def stopActs : List HostAct :=
  [.register true, .reportStart, .createEvent true, .startReturns true, .reportRunning,
    .control (.powerEvent .suspend), .control .stop, .handlerReports, .handlerRequests, .runReturns,
    .reportStopping, .control .interrogate, .onStop, .reportStopped]

theorem orderly_of_ne {act : HostAct} (h : act ≠ .control .shutdown) (s : Host) : s.Orderly act :=
  fun heq => absurd heq h

theorem statuses_in_order_stop : ∃ s, run step ({} : Host) stopActs = some s ∧
    (reports s.log <+: runStatuses ∨ reports s.log <+: failedStatuses) :=
  ⟨_, rfl, @statuses_in_order _ stopActs
    (runMeets_of_forall fun act hact => orderly_of_ne (by rintro rfl; exact absurd hact (by decide))) rfl⟩

end Host

end NovaVpn.Service
