import NovaVpn.Framework.Machine

/-!
# The threads of the pipe server

`start`, `stop`, the listener and the threads of the connections of
`Services/IpcServer.cpp`, and the clients that open the pipe; what is in the frames
is in `NovaVpn.Services.IpcServer`. `start` holds the lifecycle mutex throughout, and
`stop` does not: a `start` that comes in between finds a running server. A `stop` that
comes while another is in progress would join the same threads, which is not
defined; it has no step. A thread that waits for the write mutex of its connection waits
for a write to the same pipe, which fails once the pipe is disconnected. A handler
returns here: one that throws ends the process, and these threads with it.

A `start` that gives up joins the listener only. The listener may have let a client in
between the end of the wait and the stop flag; the thread of that client stays, and `stop`,
which finds no running server, leaves it.

`stop` wakes the listener by opening the pipe itself. A listener that has looked at the
stop flag and has no instance of the pipe yet is not woken (`Missed`), and then waits
for a client that may never come.
-/

namespace NovaVpn.Ipc

open NovaVpn.Framework

/-- Where `listenLoop` is. -/
inductive ListenerPhase where
  | absent
  /-- In `buildPipeSecurity`. -/
  | starting
  /-- At the top of the loop. -/
  | checking
  /-- In `CreateNamedPipe`. -/
  | creating
  /-- In `ConnectNamedPipe`, and whether the instance was opened. -/
  | connecting (opened : Bool)
  /-- Before the second look at the stop flag. -/
  | connected (ok : Bool)
  /-- Before the connection is in the table. -/
  | accepting
  | ended
  deriving DecidableEq, Repr

namespace ListenerPhase

def alive : ListenerPhase → Bool
  | absent | ended => false
  | _ => true

/-- What `wakeListener` does to it. -/
def woken : ListenerPhase → ListenerPhase
  | connecting _ => connecting true
  | phase => phase

/-- How many steps it and the threads it may yet make take, once the stop flag is set. -/
def rank : ListenerPhase → Nat
  | absent | ended => 0
  | checking | connected _ => 1
  | starting | connecting _ => 2
  | creating => 3
  | accepting => 5

end ListenerPhase

/-- Where `serveConnection` is. -/
inductive ServePhase where
  /-- In `callerIsAdministrator`. -/
  | starting
  /-- At the top of the loop. -/
  | checking
  | reading
  /-- In a handler. -/
  | handling
  | writing
  /-- Before `removeConnection`. -/
  | leaving
  | ended
  deriving DecidableEq, Repr

/-- How many steps it takes, once the stop flag is set. -/
def ServePhase.rank : ServePhase → Nat
  | ended => 0
  | leaving => 1
  | checking => 2
  | starting | writing => 3
  | handling => 4
  | reading => 5

/-- The thread of a connection, which is in the table until the thread has ended. -/
structure Worker where
  phase : ServePhase := .starting
  /-- The server has not disconnected the pipe. -/
  connected : Bool := true
  deriving DecidableEq, Repr

/-- How far `start` or `stop` has come. -/
inductive ServerLife where
  | stopped
  /-- `start`, in the wait for the ready event. -/
  | launched
  /-- `start`, after that wait, before the stop flag is set. -/
  | expired
  /-- `start`, before `wakeListener`. -/
  | abandoning
  /-- `start`, in `join`. -/
  | abandoned
  | active
  /-- `stop`, before `wakeListener`. -/
  | waking
  /-- `stop`, in `join` of the listener. -/
  | joiningListener
  | disconnecting
  /-- `stop`, in `join` of the workers. -/
  | joiningWorkers
  | finishing
  deriving DecidableEq, Repr

namespace ServerLife

/-- The listener has been joined, or there is none. -/
def joined : ServerLife → Bool
  | stopped | disconnecting | joiningWorkers | finishing => true
  | _ => false

/-- The stop flag is set. -/
def flagged : ServerLife → Bool
  | stopped | launched | expired | active => false
  | _ => true

/-- `stop` waits, or is about to return. -/
def stopping : ServerLife → Bool
  | joiningListener | disconnecting | joiningWorkers | finishing => true
  | _ => false

/-- How many steps `stop` has to take. -/
def rank : ServerLife → Nat
  | joiningListener => 4
  | disconnecting => 3
  | joiningWorkers => 2
  | finishing => 1
  | _ => 0

end ServerLife

structure ServerThreads where
  life : ServerLife := .stopped
  /-- `m_stopping`. -/
  stopping : Bool := false
  /-- `m_readyEvent` is set. -/
  ready : Bool := false
  listener : ListenerPhase := .absent
  /-- `m_workers`. -/
  workers : List Worker := []
  deriving DecidableEq, Repr

/-- The steps of the listener, with what the system answers. -/
inductive ListenAct where
  | secure (ok : Bool)
  | check
  | create (ok : Bool)
  | connect (ok : Bool)
  | recheck
  | accept
  deriving DecidableEq, Repr

/-- The steps of a connection's thread. A frame is read if the client sends one, and is
answered by a handler or at once. -/
inductive ServeAct where
  | identify
  | check
  | read (frame : Option Bool)
  | returns
  | write (ok : Bool)
  | remove
  deriving DecidableEq, Repr

/-- The step needs no client and no handler. -/
def ServeAct.own : ServeAct → Bool
  | read (some _) | returns => false
  | _ => true

inductive ThreadAct where
  | start (created : Bool)
  | ready
  | timedOut
  | abandon
  | wake
  | joinedListener
  | stop
  | disconnect
  | joinedWorkers
  | finished
  | clientOpens
  | listener (act : ListenAct)
  | worker (index : Nat) (act : ServeAct)
  deriving DecidableEq, Repr

namespace ThreadAct

/-- The step is one of the listener or of a worker. -/
def inside : ThreadAct → Bool
  | listener _ | worker _ _ => true
  | _ => false

/-- A client comes, or the system refuses the next instance. -/
def helps : ThreadAct → Bool
  | clientOpens | listener (.create false) => true
  | _ => false

/-- The step is one of a thread of the server, or of a `stop` that waits. -/
def progress : ThreadAct → Bool
  | listener _ | worker _ _ | joinedListener | disconnect | joinedWorkers | finished => true
  | _ => false

/-- The same, without a client and without a handler. -/
def own : ThreadAct → Bool
  | worker _ act => act.own
  | act => act.progress

end ThreadAct

/-- A step of a connection's thread. A disconnected pipe is neither read nor written. -/
def ServePhase.next (stopping connected : Bool) : ServePhase → ServeAct → Option ServePhase
  | starting, .identify => some checking
  | checking, .check => some (if stopping then leaving else reading)
  | reading, .read none => some leaving
  | reading, .read (some handled) =>
    if connected then some (if handled then handling else writing) else none
  | handling, .returns => some writing
  | writing, .write true => if connected then some checking else none
  | writing, .write false => some leaving
  | leaving, .remove => some ended
  | _, _ => none

/-- A step of the listener. -/
def ListenerPhase.next (stopping : Bool) : ListenerPhase → ListenAct → Option ListenerPhase
  | starting, .secure ok => some (if ok then checking else ended)
  | checking, .check => some (if stopping then ended else creating)
  | creating, .create ok => some (if ok then connecting false else ended)
  | connecting true, .connect ok => some (connected ok)
  | connected ok, .recheck =>
    some (if stopping then ended else if ok then accepting else checking)
  | accepting, .accept => some checking
  | _, _ => none

namespace ServerThreads

/-- `listenLoop`. The ready event is set also where there is no instance, and `start`
returns ok. -/
def listened (s : ServerThreads) (listener : ListenerPhase) : ListenAct → ServerThreads
  | .create _ => { s with listener, ready := true }
  | .accept => { s with listener, workers := s.workers ++ [{}] }
  | _ => { s with listener }

def step (s : ServerThreads) : ThreadAct → Option ServerThreads
  | .start created =>
    match s.life with
    | .stopped =>
      if created then
        some { s with life := .launched, stopping := false, ready := false, listener := .starting }
      else some { s with stopping := false, ready := false }
    | .launched | .expired | .abandoning | .abandoned => none
    | _ => some s
  | .ready =>
    match s.life with
    | .launched => if s.ready then some { s with life := .active } else none
    | _ => none
  | .timedOut =>
    match s.life with
    | .launched => if s.ready then none else some { s with life := .expired }
    | _ => none
  | .abandon =>
    match s.life with
    | .expired => some { s with life := .abandoning, stopping := true }
    | _ => none
  | .wake =>
    match s.life with
    | .abandoning => some { s with life := .abandoned, listener := s.listener.woken }
    | .waking => some { s with life := .joiningListener, listener := s.listener.woken }
    | _ => none
  | .joinedListener =>
    if s.listener.alive then none
    else
      match s.life with
      | .abandoned => some { s with life := .stopped }
      | .joiningListener => some { s with life := .disconnecting }
      | _ => none
  | .stop =>
    match s.life with
    | .stopped => some s
    | .active => some { s with life := .waking, stopping := true }
    | _ => none
  | .disconnect =>
    match s.life with
    | .disconnecting =>
      some { s with
        life := .joiningWorkers
        workers := s.workers.map fun w => { w with connected := false } }
    | _ => none
  | .joinedWorkers =>
    match s.life with
    | .joiningWorkers =>
      if s.workers.all fun w => w.phase = .ended then
        some { s with life := .finishing, workers := [] }
      else none
    | _ => none
  | .finished =>
    match s.life with
    | .finishing => some { s with life := .stopped }
    | _ => none
  | .clientOpens =>
    match s.listener with
    | .connecting false => some { s with listener := .connecting true }
    | _ => none
  | .listener act => do
    let listener ← s.listener.next s.stopping act
    some (s.listened listener act)
  | .worker index act => do
    let w ← s.workers[index]?
    let phase ← w.phase.next s.stopping w.connected act
    some { s with workers := s.workers.set index { w with phase } }

variable {s s' : ServerThreads}

/-! ## Steps of the threads -/

/-- Once the stop flag is set, every step of a connection's thread brings it closer to its
end. -/
theorem rank_next {phase phase' : ServePhase} {connected : Bool} {act : ServeAct}
    (h : phase.next true connected act = some phase') : phase'.rank < phase.rank := by
  unfold ServePhase.next at h
  split at h
  case h_4 handled =>
    split at h
    · cases h
      cases handled <;> decide
    · cases h
  case h_6 =>
    split at h
    · cases h
      decide
    · cases h
  all_goals
    cases h
    try decide

/-- A thread whose pipe is disconnected can go on, unless a handler has not returned. -/
theorem exists_next {phase : ServePhase} (stopping : Bool) (hended : phase ≠ .ended)
    (hhandling : phase ≠ .handling) :
    ∃ act : ServeAct, act.own = true ∧ (phase.next stopping false act).isSome = true := by
  cases phase with
  | starting => exact ⟨.identify, rfl, rfl⟩
  | checking => exact ⟨.check, rfl, rfl⟩
  | reading => exact ⟨.read none, rfl, rfl⟩
  | handling => exact absurd rfl hhandling
  | writing => exact ⟨.write false, rfl, rfl⟩
  | leaving => exact ⟨.remove, rfl, rfl⟩
  | ended => exact absurd rfl hended

/-- The listener comes closer to its end by as much as the thread it makes has to do. -/
theorem listener_rank_next {phase phase' : ListenerPhase} {act : ListenAct}
    (h : phase.next true act = some phase') :
    phase'.rank + (if act = .accept then 3 else 0) < phase.rank := by
  unfold ListenerPhase.next at h
  split at h
  case h_1 ok | h_3 ok | h_4 ok | h_5 ok =>
    cases h
    cases ok <;> decide
  all_goals
    cases h
    try decide

theorem alive_of_next {phase phase' : ListenerPhase} {stopping : Bool} {act : ListenAct}
    (h : phase.next stopping act = some phase') : phase.alive = true := by
  cases phase with
  | absent | ended => cases h
  | _ => rfl

/-- What the threads of the connections may yet do, once the stop flag is set. -/
def ranks : List Worker → Nat
  | [] => 0
  | w :: workers => w.phase.rank + ranks workers

theorem ranks_append_new (workers : List Worker) :
    ranks (workers ++ [({} : Worker)]) = ranks workers + 3 := by
  induction workers with
  | nil => rfl
  | cons w workers ih =>
    show w.phase.rank + ranks (workers ++ [({} : Worker)]) = w.phase.rank + ranks workers + 3
    omega

theorem ranks_set_lt {workers : List Worker} {i : Nat} {w w' : Worker} (hw : workers[i]? = some w)
    (hlt : w'.phase.rank < w.phase.rank) : ranks (workers.set i w') < ranks workers := by
  induction workers generalizing i with
  | nil => cases hw
  | cons x workers ih =>
    cases i with
    | zero =>
      cases hw
      exact Nat.add_lt_add_right hlt _
    | succ i => exact Nat.add_lt_add_left (ih hw) _

/-- That the pipes are disconnected leaves the threads where they are. -/
theorem ranks_disconnected (workers : List Worker) :
    ranks (workers.map fun w => { w with connected := false }) = ranks workers := by
  induction workers with
  | nil => rfl
  | cons w workers ih => exact congrArg (w.phase.rank + ·) ih

theorem ranks_le (workers : List Worker) : ranks workers ≤ 5 * workers.length := by
  induction workers with
  | nil => exact Nat.le_refl 0
  | cons w workers ih =>
    have hrank : w.phase.rank ≤ 5 := by cases w.phase <;> simp [ServePhase.rank]
    show w.phase.rank + ranks workers ≤ 5 * (workers.length + 1)
    omega

/-- What all threads may yet do. -/
def left (s : ServerThreads) : Nat := s.listener.rank + ranks s.workers

theorem left_listened (s : ServerThreads) (listener : ListenerPhase) (act : ListenAct) :
    (s.listened listener act).left =
      listener.rank + (if act = .accept then 3 else 0) + ranks s.workers := by
  cases act with
  | accept =>
    show listener.rank + ranks (s.workers ++ [({} : Worker)]) = listener.rank + 3 + ranks s.workers
    rw [ranks_append_new]
    omega
  | _ => rfl

theorem listener_step_cases {act : ListenAct} (hs : s.step (.listener act) = some s') :
    ∃ listener, s.listener.next s.stopping act = some listener ∧ s' = s.listened listener act := by
  simp only [step, Option.bind_eq_bind, Option.bind_eq_some_iff, Option.some.injEq] at hs
  obtain ⟨listener, hnext, rfl⟩ := hs
  exact ⟨listener, hnext, rfl⟩

theorem worker_step_cases {index : Nat} {act : ServeAct} (hs : s.step (.worker index act) = some s') :
    ∃ w phase, s.workers[index]? = some w ∧ w.phase.next s.stopping w.connected act = some phase ∧
      s' = { s with workers := s.workers.set index { w with phase } } := by
  simp only [step, Option.bind_eq_bind, Option.bind_eq_some_iff, Option.some.injEq] at hs
  obtain ⟨w, hw, phase, hphase, rfl⟩ := hs
  exact ⟨w, phase, hw, hphase, rfl⟩

/-- What a step of a thread comes to. -/
structure Inside (s s' : ServerThreads) : Prop where
  life : s'.life = s.life
  stopping : s'.stopping = s.stopping
  left : s.stopping = true → s'.left < s.left

theorem inside_of_step {act : ThreadAct} (hs : s.step act = some s') (hact : act.inside = true) :
    Inside s s' := by
  cases act with
  | listener act =>
    obtain ⟨listener, hnext, rfl⟩ := listener_step_cases hs
    refine ⟨by cases act <;> rfl, by cases act <;> rfl, fun hstop => ?_⟩
    rw [hstop] at hnext
    rw [left_listened]
    exact Nat.add_lt_add_right (listener_rank_next hnext) _
  | worker index act =>
    obtain ⟨w, phase, hw, hphase, rfl⟩ := worker_step_cases hs
    refine ⟨rfl, rfl, fun hstop => ?_⟩
    rw [hstop] at hphase
    exact Nat.add_lt_add_left (ranks_set_lt hw (rank_next hphase)) _
  | _ => cases hact

/-! ## The invariant -/

structure ThreadsInv (s : ServerThreads) : Prop where
  flag : s.life.flagged = true → s.stopping = true
  joined : s.life.joined = true → s.listener.alive = false
  cut : s.life = .joiningWorkers → ∀ w ∈ s.workers, w.connected = false
  gone : s.life = .finishing → s.workers = []

theorem ThreadsInv.init : ThreadsInv {} where
  flag h := by cases h
  joined _ := rfl
  cut h := by cases h
  gone h := by cases h

/-- Where `stop` is not among the workers. -/
theorem ThreadsInv.of_life (hflag : s.life.flagged = true → s.stopping = true)
    (hjoined : s.life.joined = true → s.listener.alive = false) (hcut : s.life ≠ .joiningWorkers)
    (hgone : s.life ≠ .finishing) : ThreadsInv s where
  flag := hflag
  joined := hjoined
  cut heq := absurd heq hcut
  gone heq := absurd heq hgone

namespace ThreadsInv

theorem start (h : ThreadsInv s) {created : Bool} (hs : s.step (.start created) = some s') :
    ThreadsInv s' := by
  cases hl : s.life <;> simp only [ServerThreads.step, hl, Option.some.injEq, reduceCtorEq] at hs
  case stopped =>
    have hdead := h.joined (by rw [hl]; rfl)
    split at hs
    · cases hs
      exact .of_life nofun nofun nofun nofun
    · cases hs
      exact ⟨nofun, fun _ => hdead, nofun, nofun⟩
  all_goals exact hs ▸ h

theorem wake (h : ThreadsInv s) (hs : s.step .wake = some s') : ThreadsInv s' := by
  cases hl : s.life <;> simp only [ServerThreads.step, hl, Option.some.injEq, reduceCtorEq] at hs
  all_goals
    have hflag := h.flag (by rw [hl]; rfl)
    subst hs
    exact .of_life (fun _ => hflag) nofun nofun nofun

theorem joinedListener (h : ThreadsInv s) (hs : s.step .joinedListener = some s') :
    ThreadsInv s' := by
  simp only [ServerThreads.step] at hs
  split at hs
  next => cases hs
  next hdead =>
    have hdead := eq_false_of_ne_true hdead
    cases hl : s.life <;> simp only [hl, Option.some.injEq, reduceCtorEq] at hs
    case abandoned =>
      subst hs
      exact .of_life nofun (fun _ => hdead) nofun nofun
    case joiningListener =>
      have hflag := h.flag (by rw [hl]; rfl)
      subst hs
      exact .of_life (fun _ => hflag) (fun _ => hdead) nofun nofun

/-- `stop` wakes the workers. -/
theorem disconnect (h : ThreadsInv s) (hs : s.step .disconnect = some s') : ThreadsInv s' := by
  cases hl : s.life <;> simp only [ServerThreads.step, hl, Option.some.injEq, reduceCtorEq] at hs
  have hflag := h.flag (by rw [hl]; rfl)
  have hdead := h.joined (by rw [hl]; rfl)
  subst hs
  refine ⟨fun _ => hflag, fun _ => hdead, fun _ w hw => ?_, nofun⟩
  obtain ⟨_, -, rfl⟩ := List.mem_map.mp hw
  rfl

theorem joinedWorkers (h : ThreadsInv s) (hs : s.step .joinedWorkers = some s') :
    ThreadsInv s' := by
  cases hl : s.life <;> simp only [ServerThreads.step, hl, reduceCtorEq] at hs
  have hflag := h.flag (by rw [hl]; rfl)
  have hdead := h.joined (by rw [hl]; rfl)
  split at hs
  · cases hs
    exact ⟨fun _ => hflag, fun _ => hdead, nofun, fun _ => rfl⟩
  · cases hs

theorem finish (h : ThreadsInv s) (hs : s.step .finished = some s') : ThreadsInv s' := by
  cases hl : s.life <;> simp only [ServerThreads.step, hl, Option.some.injEq, reduceCtorEq] at hs
  have hdead := h.joined (by rw [hl]; rfl)
  subst hs
  exact .of_life nofun (fun _ => hdead) nofun nofun

/-- The listener has an instance, so that it was not joined. -/
theorem clientOpens (h : ThreadsInv s) (hs : s.step .clientOpens = some s') : ThreadsInv s' := by
  simp only [ServerThreads.step] at hs
  split at hs
  next hl =>
    cases hs
    have hnot : s.life.joined ≠ true := fun hj => by
      have hdead := h.joined hj
      rw [hl] at hdead
      cases hdead
    exact ⟨h.flag, fun hj => absurd hj hnot, h.cut, h.gone⟩
  next => cases hs

/-- The listener steps, so that it was not joined. -/
theorem listener (h : ThreadsInv s) {act : ListenAct} (hs : s.step (.listener act) = some s') :
    ThreadsInv s' := by
  obtain ⟨listener, hnext, rfl⟩ := listener_step_cases hs
  have ⟨hlife, hstopping, _⟩ := inside_of_step hs rfl
  have hnot : s.life.joined ≠ true := fun hj => by
    have hdead := h.joined hj
    rw [alive_of_next hnext] at hdead
    cases hdead
  refine .of_life (by rw [hlife, hstopping]; exact h.flag) ?_ ?_ ?_
  · rw [hlife]
    exact fun hj => absurd hj hnot
  · rw [hlife]
    exact fun heq => hnot (by rw [heq]; rfl)
  · rw [hlife]
    exact fun heq => hnot (by rw [heq]; rfl)

theorem worker (h : ThreadsInv s) {index : Nat} {act : ServeAct}
    (hs : s.step (.worker index act) = some s') : ThreadsInv s' := by
  obtain ⟨w, phase, hw, hphase, rfl⟩ := worker_step_cases hs
  refine ⟨h.flag, h.joined, fun heq x hx => ?_, fun heq => ?_⟩
  · rcases List.mem_or_eq_of_mem_set hx with hmem | rfl
    · exact h.cut heq x hmem
    · exact h.cut heq w (List.mem_of_getElem? hw)
  · rw [h.gone heq] at hw
    cases hw

end ThreadsInv

theorem ThreadsInv.step {act : ThreadAct} (h : ThreadsInv s) (hs : s.step act = some s') :
    ThreadsInv s' := by
  cases act with
  | start created => exact h.start hs
  | ready =>
    cases hl : s.life <;> simp only [ServerThreads.step, hl, reduceCtorEq] at hs
    split at hs
    · cases hs
      exact .of_life nofun nofun nofun nofun
    · cases hs
  | timedOut =>
    cases hl : s.life <;> simp only [ServerThreads.step, hl, reduceCtorEq] at hs
    split at hs
    · cases hs
    · cases hs
      exact .of_life nofun nofun nofun nofun
  | abandon =>
    cases hl : s.life <;> simp only [ServerThreads.step, hl, Option.some.injEq, reduceCtorEq] at hs
    subst hs
    exact .of_life (fun _ => rfl) nofun nofun nofun
  | wake => exact h.wake hs
  | joinedListener => exact h.joinedListener hs
  | stop =>
    cases hl : s.life <;> simp only [ServerThreads.step, hl, Option.some.injEq, reduceCtorEq] at hs
    case stopped => exact hs ▸ h
    case active =>
      subst hs
      exact .of_life (fun _ => rfl) nofun nofun nofun
  | disconnect => exact h.disconnect hs
  | joinedWorkers => exact h.joinedWorkers hs
  | finished => exact h.finish hs
  | clientOpens => exact h.clientOpens hs
  | listener act => exact h.listener hs
  | worker index act => exact h.worker hs

theorem threadsInv_of_run {acts : List ThreadAct} (hr : run step {} acts = some s) : ThreadsInv s :=
  run_invariant' (fun _ _ _ h => h.step) .init hr

/-! ## What `stop` leaves -/

/-- There is no thread of the server. -/
structure Quiet (s : ServerThreads) : Prop where
  life : s.life = .stopped
  listener : s.listener.alive = false
  workers : s.workers = []

theorem ThreadsInv.finished (h : ThreadsInv s) (hs : s.step .finished = some s') : Quiet s' := by
  cases hl : s.life <;> simp only [ServerThreads.step, hl, Option.some.injEq, reduceCtorEq] at hs
  have hdead := h.joined (by rw [hl]; rfl)
  have hgone := h.gone hl
  subst hs
  exact ⟨rfl, hdead, hgone⟩

/-- Until the next `start` that has its event no thread of the server takes a step. -/
theorem Quiet.step {act : ThreadAct} (h : Quiet s) (hstart : act ≠ .start true)
    (hs : s.step act = some s') : Quiet s' ∧ act.inside = false := by
  obtain ⟨hlife, hdead, hworkers⟩ := h
  cases act with
  | start created =>
    cases created with
    | true => exact absurd rfl hstart
    | false =>
      simp only [ServerThreads.step, hlife, Bool.false_eq_true, if_false, Option.some.injEq] at hs
      subst hs
      exact ⟨⟨rfl, hdead, hworkers⟩, rfl⟩
  | stop =>
    simp only [ServerThreads.step, hlife, Option.some.injEq] at hs
    exact ⟨hs ▸ ⟨hlife, hdead, hworkers⟩, rfl⟩
  | joinedListener => simp [ServerThreads.step, hlife] at hs
  | clientOpens =>
    simp only [ServerThreads.step] at hs
    split at hs
    next hl =>
      rw [hl] at hdead
      cases hdead
    next => cases hs
  | listener act =>
    obtain ⟨listener, hnext, -⟩ := listener_step_cases hs
    rw [alive_of_next hnext] at hdead
    cases hdead
  | worker index act =>
    obtain ⟨w, phase, hw, -⟩ := worker_step_cases hs
    rw [hworkers] at hw
    cases hw
  | _ => simp [ServerThreads.step, hlife] at hs

/-- After a `stop` that found a running server has returned, and until the next `start`, no
handler is called, no frame is read or written and no client is let in. -/
theorem server_silent_after_stop {acts acts' : List ThreadAct}
    (hr : run step {} (acts ++ [.finished]) = some s) (hr' : run step s acts' = some s')
    (hstart : ∀ act ∈ acts', act ≠ .start true) :
    s'.life = .stopped ∧ ∀ act ∈ acts', act.inside = false := by
  have hquiet : Quiet s := by
    rw [run_append, Option.bind_eq_some_iff] at hr
    obtain ⟨s₀, hr₀, hfinished⟩ := hr
    obtain ⟨s₁, hs, heq⟩ := run_cons.mp hfinished
    cases heq
    exact (threadsInv_of_run hr₀).finished hs
  clear hr
  induction acts' generalizing s with
  | nil =>
    cases hr'
    exact ⟨hquiet.life, nofun⟩
  | cons act acts' ih =>
    rw [List.forall_mem_cons] at hstart ⊢
    obtain ⟨s₁, hs, hr'⟩ := run_cons.mp hr'
    obtain ⟨hquiet', hact⟩ := hquiet.step hstart.1 hs
    obtain ⟨hlife, hacts⟩ := ih hr' hstart.2 hquiet'
    exact ⟨hlife, hact, hacts⟩

/-- A server that serves one client. -/
def servingActs : List ThreadAct :=
  [.start true, .listener (.secure true), .listener .check, .listener (.create true), .ready,
    .clientOpens, .listener (.connect true), .listener .recheck, .listener .accept,
    .worker 0 .identify, .worker 0 .check, .worker 0 (.read (some true))]

/-- It is stopped while the handler runs and the listener waits for the next client. -/
def stoppedActs : List ThreadAct :=
  servingActs ++ [.listener .check, .listener (.create true), .stop, .wake,
    .listener (.connect true), .listener .recheck, .joinedListener, .disconnect,
    .worker 0 .returns, .worker 0 (.write false), .worker 0 .remove, .joinedWorkers]

theorem server_silent_after_stop_serving : ∃ s s',
    run step {} (stoppedActs ++ [.finished]) = some s ∧
      run step s [.stop, .start false] = some s' ∧ s'.life = .stopped :=
  ⟨_, _, rfl, rfl, (@server_silent_after_stop _ _ stoppedActs [.stop, .start false] rfl rfl
    (by decide)).1⟩

/-! ## That `stop` returns -/

/-- The listener will not look at the stop flag before a client comes, or the system refuses
it an instance. -/
def Missed (s : ServerThreads) : Prop :=
  s.listener = .creating ∨ s.listener = .connecting false

instance : Decidable s.Missed := inferInstanceAs (Decidable (_ ∨ _))

/-- Without help a listener that was not woken stays in the pipe, and `stop` in `join`. -/
theorem Missed.step {act : ThreadAct} (hmissed : s.Missed) (hlife : s.life = .joiningListener)
    (hact : act.helps = false) (hs : s.step act = some s') :
    s'.Missed ∧ s'.life = .joiningListener := by
  have halive : s.listener.alive = true := by rcases hmissed with h | h <;> rw [h] <;> rfl
  cases act with
  | start created =>
    simp only [ServerThreads.step, hlife, Option.some.injEq] at hs
    exact hs ▸ ⟨hmissed, hlife⟩
  | joinedListener => simp [ServerThreads.step, halive] at hs
  | clientOpens => cases hact
  | listener act =>
    obtain ⟨listener, hnext, rfl⟩ := listener_step_cases hs
    rcases hmissed with h | h
    · rw [h] at hnext
      cases act <;> simp only [ListenerPhase.next, Option.some.injEq, reduceCtorEq] at hnext
      rename_i ok
      cases ok with
      | false => cases hact
      | true => exact ⟨.inr hnext.symm, hlife⟩
    · rw [h] at hnext
      cases act <;> simp only [ListenerPhase.next, reduceCtorEq] at hnext
  | worker index act =>
    obtain ⟨w, phase, -, -, rfl⟩ := worker_step_cases hs
    exact ⟨hmissed, hlife⟩
  | _ => simp [ServerThreads.step, hlife] at hs

/-- Once the stop flag is set, the listener makes no further instance. -/
theorem not_missed_next {phase phase' : ListenerPhase} {act : ListenAct}
    (h : phase.next true act = some phase') (hcreating : phase ≠ .creating) :
    ¬ (phase' = .creating ∨ phase' = .connecting false) := by
  unfold ListenerPhase.next at h
  split at h
  case h_1 ok =>
    cases h
    cases ok <;> decide
  case h_3 => exact absurd rfl hcreating
  all_goals
    cases h
    try simp

theorem not_missed_step {act : ListenAct} (hstop : s.stopping = true) (hmissed : ¬ s.Missed)
    (hs : s.step (.listener act) = some s') : ¬ s'.Missed := by
  obtain ⟨listener, hnext, rfl⟩ := listener_step_cases hs
  rw [hstop] at hnext
  have hnot := not_missed_next hnext fun h => hmissed (.inl h)
  cases act <;> exact hnot

/-- A listener that was woken, or is not in the pipe, goes on by itself. -/
theorem exists_listener_step (halive : s.listener.alive = true) (hmissed : ¬ s.Missed) :
    ∃ act, (ThreadAct.listener act).helps = false ∧ (s.step (.listener act)).isSome = true := by
  cases hl : s.listener with
  | absent | ended => rw [hl] at halive; cases halive
  | creating => exact absurd (.inl hl) hmissed
  | starting => exact ⟨.secure true, rfl, by rw [step, hl]; rfl⟩
  | checking => exact ⟨.check, rfl, by rw [step, hl]; rfl⟩
  | connecting opened =>
    cases opened with
    | false => exact absurd (.inr hl) hmissed
    | true => exact ⟨.connect true, rfl, by rw [step, hl]; rfl⟩
  | connected ok => exact ⟨.recheck, rfl, by rw [step, hl]; rfl⟩
  | accepting => exact ⟨.accept, rfl, by rw [step, hl]; rfl⟩

/-- The listener ends by itself, and `stop` goes on. -/
theorem exists_joined (hlife : s.life = .joiningListener) (hstop : s.stopping = true)
    (hmissed : ¬ s.Missed) :
    ∃ acts s', run step s acts = some s' ∧ (∀ act ∈ acts, act.helps = false) ∧
      s'.life = .disconnecting := by
  induction hn : s.left using Nat.strongRecOn generalizing s with
  | ind n ih =>
    cases halive : s.listener.alive with
    | false =>
      have hs : s.step .joinedListener = some { s with life := .disconnecting } := by
        simp [step, halive, hlife]
      exact ⟨[.joinedListener], _, run_cons.mpr ⟨_, hs, rfl⟩, by decide, rfl⟩
    | true =>
      obtain ⟨act, hhelps, hsome⟩ := exists_listener_step halive hmissed
      obtain ⟨s₁, hs⟩ := Option.isSome_iff_exists.mp hsome
      have hin := inside_of_step hs rfl
      obtain ⟨acts, s', hr, hacts, hlife'⟩ := ih s₁.left (hn ▸ hin.left hstop)
        (hin.life.trans hlife) (hin.stopping.trans hstop) (not_missed_step hstop hmissed hs) rfl
      exact ⟨.listener act :: acts, s', run_cons.mpr ⟨s₁, hs, hr⟩,
        List.forall_mem_cons.mpr ⟨hhelps, hacts⟩, hlife'⟩

/-- `stop` gets past the listener without a client exactly if its wake-up was not missed. -/
theorem stop_waits_iff {acts : List ThreadAct} (hr : run step {} acts = some s)
    (hlife : s.life = .joiningListener) :
    (∃ acts' s', run step s acts' = some s' ∧ (∀ act ∈ acts', act.helps = false) ∧
      s'.life = .disconnecting) ↔ ¬ s.Missed := by
  constructor
  · rintro ⟨acts', s', hr', hacts, hlife'⟩ hmissed
    have hok : RunMeets step (fun _ act => act.helps = false) s acts' :=
      runMeets_of_forall fun act hact _ => hacts act hact
    have hstays : s'.Missed ∧ s'.life = .joiningListener :=
      run_invariant (I := fun s => s.Missed ∧ s.life = .joiningListener)
        (fun _ _ _ h hact hs => h.1.step h.2 hact hs) ⟨hmissed, hlife⟩ hok hr'
    rw [hlife'] at hstays
    cases hstays.2
  · intro hmissed
    have hstop := (threadsInv_of_run hr).flag (by rw [hlife]; rfl)
    exact exists_joined hlife hstop hmissed

/-- `stop` comes after the listener has looked at the flag. -/
def missedActs : List ThreadAct := servingActs ++ [.listener .check, .stop, .wake]

theorem stop_waits_missed : ∃ s, run step {} missedActs = some s ∧
    ¬ ∃ acts' s', run step s acts' = some s' ∧ (∀ act ∈ acts', act.helps = false) ∧
      s'.life = .disconnecting :=
  ⟨_, rfl, fun h => (@stop_waits_iff _ missedActs rfl rfl).mp h (by decide)⟩

/-- What is left of a `stop`. -/
def todo (s : ServerThreads) : Nat := s.left + s.life.rank

theorem stopping_flagged {life : ServerLife} (h : life.stopping = true) : life.flagged = true := by
  cases life <;> first | rfl | cases h

/-- The wake-up of `stop` was not missed, or is not needed any more. -/
def Heard (s : ServerThreads) : Prop := s.life = .joiningListener → ¬ s.Missed

/-- While `stop` waits, every step of a thread, and of `stop`, brings it closer to its end. -/
theorem ThreadsInv.stopping_step {act : ThreadAct} (h : ThreadsInv s)
    (hlife : s.life.stopping = true) (hheard : s.Heard) (hnot : act ≠ .finished)
    (hs : s.step act = some s') :
    s'.life.stopping = true ∧ s'.Heard ∧
      [act].countP ThreadAct.progress + s'.todo ≤ s.todo := by
  have hstop := h.flag (stopping_flagged hlife)
  cases act with
  | start created =>
    cases hl : s.life <;> simp only [hl, ServerLife.stopping, reduceCtorEq] at hlife
    all_goals
      simp only [ServerThreads.step, hl, Option.some.injEq] at hs
      subst hs
      exact ⟨by rw [hl]; rfl, hheard, Nat.le_of_eq (Nat.zero_add _)⟩
  | clientOpens =>
    simp only [ServerThreads.step] at hs
    split at hs
    next hl =>
      cases hs
      refine ⟨hlife, fun _ => by simp [Missed], ?_⟩
      show 0 + (_ + _ + _) ≤ s.listener.rank + _ + _
      rw [hl, Nat.zero_add]
      exact Nat.le_refl _
    next => cases hs
  | joinedListener =>
    simp only [ServerThreads.step] at hs
    split at hs
    next => cases hs
    next =>
      cases hl : s.life <;>
        simp only [hl, ServerLife.stopping, reduceCtorEq, Option.some.injEq] at hlife hs
      subst hs
      refine ⟨rfl, nofun, ?_⟩
      show 1 + (s.left + 3) ≤ s.left + s.life.rank
      rw [hl]
      show 1 + (s.left + 3) ≤ s.left + 4
      omega
  | disconnect =>
    cases hl : s.life <;> simp only [ServerThreads.step, hl, Option.some.injEq, reduceCtorEq] at hs
    subst hs
    refine ⟨rfl, nofun, ?_⟩
    show 1 + (s.listener.rank + ranks (s.workers.map _) + 2) ≤ s.left + s.life.rank
    rw [hl, ranks_disconnected]
    show 1 + (s.left + 2) ≤ s.left + 3
    omega
  | joinedWorkers =>
    cases hl : s.life <;> simp only [ServerThreads.step, hl, reduceCtorEq] at hs
    split at hs
    · cases hs
      refine ⟨rfl, nofun, ?_⟩
      show 1 + (s.listener.rank + 0 + 1) ≤ s.listener.rank + _ + s.life.rank
      rw [hl]
      show 1 + (s.listener.rank + 0 + 1) ≤ s.listener.rank + _ + 2
      omega
    · cases hs
  | finished => exact absurd rfl hnot
  | listener act =>
    have hin := inside_of_step hs rfl
    refine ⟨hin.life ▸ hlife, fun hjoining => ?_, ?_⟩
    · exact not_missed_step hstop (hheard (hin.life ▸ hjoining)) hs
    · have hlt := hin.left hstop
      show 1 + (s'.left + s'.life.rank) ≤ s.left + s.life.rank
      rw [hin.life]
      omega
  | worker index act =>
    have hin := inside_of_step hs rfl
    obtain ⟨w, phase, -, -, rfl⟩ := worker_step_cases hs
    refine ⟨hlife, hheard, ?_⟩
    have hlt := hin.left hstop
    show 1 + (left _ + s.life.rank) ≤ s.left + s.life.rank
    omega
  | _ =>
    cases hl : s.life <;> simp only [hl, ServerLife.stopping, reduceCtorEq] at hlife
    all_goals simp [ServerThreads.step, hl] at hs

/-- While `stop` waits, it or a thread can go on by itself, or a handler has not returned. -/
theorem ThreadsInv.stopping_goesOn (h : ThreadsInv s) (hlife : s.life.stopping = true)
    (hheard : s.Heard) :
    (∃ act, act.own = true ∧ (s.step act).isSome = true) ∨
      ∃ w ∈ s.workers, w.phase = .handling := by
  cases hl : s.life <;> simp only [hl, ServerLife.stopping, reduceCtorEq] at hlife
  case joiningListener =>
    refine .inl ?_
    cases halive : s.listener.alive with
    | false => exact ⟨.joinedListener, rfl, by simp [ServerThreads.step, halive, hl]⟩
    | true =>
      obtain ⟨act, -, hs⟩ := exists_listener_step halive (hheard hl)
      exact ⟨.listener act, rfl, hs⟩
  case disconnecting => exact .inl ⟨.disconnect, rfl, by simp [ServerThreads.step, hl]⟩
  case finishing => exact .inl ⟨.finished, rfl, by simp [ServerThreads.step, hl]⟩
  case joiningWorkers =>
    by_cases hended : ∀ w ∈ s.workers, w.phase = .ended
    · exact .inl ⟨.joinedWorkers, rfl, by simpa [ServerThreads.step, hl] using hended⟩
    simp only [not_forall] at hended
    obtain ⟨w, hmem, hended⟩ := hended
    by_cases hhandling : w.phase = .handling
    · exact .inr ⟨w, hmem, hhandling⟩
    obtain ⟨index, hw⟩ := List.getElem?_of_mem hmem
    obtain ⟨act, hown, hnext⟩ := exists_next s.stopping hended hhandling
    obtain ⟨phase, hphase⟩ := Option.isSome_iff_exists.mp hnext
    refine .inl ⟨.worker index act, hown, ?_⟩
    simp [ServerThreads.step, hw, h.cut hl w hmem, hphase]

theorem todo_le (s : ServerThreads) : s.todo ≤ 5 * s.workers.length + 9 := by
  have hranks := ranks_le s.workers
  have hlistener : s.listener.rank ≤ 5 := by
    cases s.listener <;> simp [ListenerPhase.rank]
  have hlife : s.life.rank ≤ 4 := by
    cases s.life <;> simp [ServerLife.rank]
  unfold todo left
  omega

/-- From the moment `stop` waits, and if its wake-up was not missed, it and the threads take a
bounded number of steps in whatever continuation, and one of them can go on by itself until
`stop` returns, unless a handler has not returned. -/
theorem server_stop_returns {acts acts' : List ThreadAct} (hr : run step {} acts = some s)
    (hlife : s.life.stopping = true) (hheard : s.Heard) (hr' : run step s acts' = some s')
    (hnot : ∀ act ∈ acts', act ≠ .finished) :
    acts'.countP ThreadAct.progress ≤ 5 * s.workers.length + 9 ∧
      ((∃ act, act.own = true ∧ (s'.step act).isSome = true) ∨
        ∃ w ∈ s'.workers, w.phase = .handling) := by
  have h := threadsInv_of_run hr
  suffices hmain : ThreadsInv s' ∧ s'.life.stopping = true ∧ s'.Heard ∧
      acts'.countP ThreadAct.progress + s'.todo ≤ s.todo by
    obtain ⟨h', hlife', hheard', hcount⟩ := hmain
    have hle := todo_le s
    exact ⟨by omega, h'.stopping_goesOn hlife' hheard'⟩
  clear hr
  induction acts' generalizing s with
  | nil =>
    cases hr'
    exact ⟨h, hlife, hheard, Nat.le_of_eq (Nat.zero_add _)⟩
  | cons act acts' ih =>
    rw [List.forall_mem_cons] at hnot
    obtain ⟨s₁, hs, hr'⟩ := run_cons.mp hr'
    obtain ⟨hlife₁, hheard₁, hstep⟩ := h.stopping_step hlife hheard hnot.1 hs
    obtain ⟨h', hlife', hheard', hcount⟩ := ih hlife₁ hheard₁ hr' hnot.2 (h.step hs)
    refine ⟨h', hlife', hheard', ?_⟩
    rw [← List.singleton_append, List.countP_append]
    omega

theorem server_stop_returns_serving : ∃ s s',
    run step {} (servingActs ++
        [.listener .check, .listener (.create true), .stop, .wake]) = some s ∧
      run step s [.listener (.connect true), .start true, .listener .recheck, .joinedListener,
        .disconnect] = some s' ∧
      ((∃ act, act.own = true ∧ (s'.step act).isSome = true) ∨
        ∃ w ∈ s'.workers, w.phase = .handling) :=
  ⟨_, _, rfl, rfl, (@server_stop_returns _ _
    (servingActs ++ [.listener .check, .listener (.create true), .stop, .wake])
    [.listener (.connect true), .start true, .listener .recheck, .joinedListener, .disconnect]
    rfl rfl (fun _ => by decide) rfl (by decide)).2⟩

end ServerThreads

end NovaVpn.Ipc
