import Mathlib.Logic.Function.Basic
import NovaVpn.Framework.Machine
import NovaVpn.Tunnel.Tunnel

/-!
# One tunnel and its threads

The class `Tunnel` of `Tunnel/TunnelManager.cpp` at the grain of its lock:
any threads are inside `connect`, `disconnect` and `reconnect`, and the thread
of each engine calls back through the host it was started with. What runs
under `m_mutex` is one step, with one exception: the guard of `connect` loads
the state twice, and others may store a new one in between without the lock.
Stores outside the lock, the events they publish, the calls of an engine and
`onSessionUp` are steps of their own.

Engines are numbered as they are created. The log has what the outside sees,
newest first; a published event is recorded with what `sessionInfo()` gives at
that moment.
-/

namespace NovaVpn

structure TrafficCounters where
  bytesSent : UInt64 := 0
  bytesReceived : UInt64 := 0
  packetsSent : UInt64 := 0
  packetsReceived : UInt64 := 0
  packetsDropped : UInt64 := 0
  wireBytesSent : UInt64 := 0
  wireBytesReceived : UInt64 := 0
  deriving DecidableEq, Repr

/-- What has become of an engine: `stop` ends one that was started. -/
inductive EngineLife where
  | fresh
  /-- Inside `start`. -/
  | starting
  /-- `start` has returned ok, and `stop` was not called. -/
  | running
  | ended
  deriving DecidableEq, Repr

def EngineLife.active (life : EngineLife) : Bool := life == .starting || life == .running

/-- Where a thread stands. -/
inductive Phase where
  | idle
  /-- `connect`, with the lock, past the first load of its guard. -/
  | guarding
  /-- `connect`, with its engine. -/
  | created (engine : Nat)
  /-- `connect`, with Connecting stored. -/
  | announcing (engine : Nat) (previous : ConnectionState)
  /-- `connect`, inside `start`. -/
  | starting (engine : Nat)
  /-- `connect`, after a `start` that failed. -/
  | failed (reason : Status)
  /-- `connect`, with Faulted stored. -/
  | faulting (previous : ConnectionState) (reason : Status)
  /-- `disconnect`, before it stops this engine. -/
  | stopping (engine : Nat)
  /-- `disconnect`, inside `stop`. -/
  | inStop
  /-- `disconnect`, before its last section. -/
  | stopped
  /-- `reconnect`, with an engine. -/
  | reconnecting
  /-- `reconnect`, with Reconnecting stored. -/
  | renegotiating (previous : ConnectionState)
  deriving DecidableEq, Repr

inductive Entry where
  | published (previous current : ConnectionState) (reason : Status) (attempt : Nat)
      (session : Bool)
  | established (engine : Nat)
  | sessionUp
  | sessionDown
  | connectCalled
  | disconnectReturned
  deriving DecidableEq, Repr

structure TunnelThreads where
  /-- Whether there is an engine registry. -/
  registry : Bool := true
  state : ConnectionState := .disconnected
  engine : Option Nat := none
  /-- Whether a session is set. -/
  session : Bool := false
  statistics : TrafficCounters := {}
  /-- How many engines were created. -/
  created : Nat := 0
  life : Nat → EngineLife := fun _ => .fresh
  /-- The engines whose threads have set a session and are about to call
  `onSessionUp`. -/
  upPending : List Nat := []
  phase : Nat → Phase := fun _ => .idle
  /-- Whether a thread keeps the lock between two steps. -/
  locked : Bool := false
  log : List Entry := []

/-- The steps, with what the outside decides of each. -/
inductive ThreadAct where
  | connectGuard (thread : Nat)
  | connectCreate (thread : Nat) (created validated : Status)
  | connectExchange (thread engine : Nat)
  | connectStart (thread engine : Nat) (previous : ConnectionState)
  | startReturned (thread engine : Nat) (started : Status)
  | faultExchange (thread : Nat) (reason : Status)
  | faultPublish (thread : Nat) (previous : ConnectionState) (reason : Status)
  | disconnectBegin (thread : Nat)
  | stopCall (thread engine : Nat)
  | stopReturned (thread : Nat)
  | disconnectEnd (thread : Nat)
  | reconnectRead (thread : Nat)
  | reconnectExchange (thread : Nat)
  | reconnectReturned (thread : Nat) (previous : ConnectionState)
  | engineState (engine : Nat) (state : ConnectionState) (reason : Status)
  | sessionSet (engine : Nat)
  | sessionUp (engine : Nat)
  | counters (engine : Nat) (counters : TrafficCounters)
  deriving DecidableEq, Repr

namespace TunnelThreads

def record (s : TunnelThreads) (e : Entry) : TunnelThreads := { s with log := e :: s.log }

def setPhase (s : TunnelThreads) (thread : Nat) (p : Phase) : TunnelThreads :=
  { s with phase := Function.update s.phase thread p }

def setLife (s : TunnelThreads) (engine : Nat) (life : EngineLife) : TunnelThreads :=
  { s with life := Function.update s.life engine life }

/-- The second half of `transition`: the event, unless nothing changed. -/
def publish (s : TunnelThreads) (previous current : ConnectionState) (reason : Status)
    (attempt : Nat) : TunnelThreads :=
  { s with
    log := if previous = current then s.log
      else .published previous current reason attempt s.session :: s.log }

/-- `transition` under the lock. -/
def transition (s : TunnelThreads) (next : ConnectionState) (reason : Status) (attempt : Nat) :
    TunnelThreads :=
  { s with state := next }.publish s.state next reason attempt

/-- `releaseSessionLocked`. -/
def releaseSession (s : TunnelThreads) : TunnelThreads :=
  { s with session := false, log := if s.session then .sessionDown :: s.log else s.log }

/-- `onEngineState`. -/
def onEngineState (s : TunnelThreads) (state : ConnectionState) (reason : Status) :
    TunnelThreads :=
  (if state = .disconnected ∨ state = .faulted then s.releaseSession else s).transition state
    reason 0

/-- An engine calls back from its thread, which is in no other callback. -/
def calls (s : TunnelThreads) (engine : Nat) : Bool :=
  s.life engine != .fresh && decide (engine ∉ s.upPending)

/-- Whether a step is possible. -/
def allows (s : TunnelThreads) : ThreadAct → Bool
  | .connectGuard t => s.phase t == .idle && !s.locked
  | .connectCreate t _ _ => s.phase t == .guarding
  | .connectExchange t e => s.phase t == .created e
  | .connectStart t e previous => s.phase t == .announcing e previous
  | .startReturned t e _ => s.phase t == .starting e
  | .faultExchange t reason => s.phase t == .failed reason
  | .faultPublish t previous reason => s.phase t == .faulting previous reason
  | .disconnectBegin t => s.phase t == .idle && !s.locked
  | .stopCall t e => s.phase t == .stopping e
  | .stopReturned t => s.phase t == .inStop
  | .disconnectEnd t => s.phase t == .stopped && !s.locked
  | .reconnectRead t => s.phase t == .idle && !s.locked
  | .reconnectExchange t => s.phase t == .reconnecting
  | .reconnectReturned t previous => s.phase t == .renegotiating previous
  | .engineState e _ _ => s.calls e && !s.locked
  | .sessionSet e => s.calls e && !s.locked
  | .sessionUp e => decide (e ∈ s.upPending)
  | .counters e _ => s.calls e && !s.locked

/-- The rest of `connect`'s section: the second load, the registry, the new
engine and its check of the profile. -/
def connectSection (s : TunnelThreads) (t : Nat) (created validated : Status) : TunnelThreads :=
  let s := { s with locked := false }
  if s.state = .connected ∨ s.registry = false ∨ created.isError then s.setPhase t .idle
  else
    let e := s.created
    let s := { s with engine := some e, created := e + 1 }
    s.setPhase t (if validated.isError then .idle else .created e)

/-- What `disconnect` does first: it returns, or goes on to stop the engine. -/
def disconnectSection (s : TunnelThreads) (t : Nat) : TunnelThreads :=
  if s.state = .disconnected then s.record .disconnectReturned
  else
    let s := s.transition .disconnecting .ok 0
    s.setPhase t (match s.engine with
      | some e => .stopping e
      | none => .stopped)

/-- What a step does. -/
def effect (s : TunnelThreads) : ThreadAct → TunnelThreads
  | .connectGuard t =>
    let s := s.record .connectCalled
    if isTransitional s.state then s else { s.setPhase t .guarding with locked := true }
  | .connectCreate t created validated => s.connectSection t created validated
  | .connectExchange t e => { s with state := .connecting }.setPhase t (.announcing e s.state)
  | .connectStart t e previous =>
    ((s.publish previous .connecting .ok 1).setLife e .starting).setPhase t (.starting e)
  | .startReturned t e started =>
    if started.isError then (s.setLife e .ended).setPhase t (.failed started)
    else (if s.life e = .starting then s.setLife e .running else s).setPhase t .idle
  | .faultExchange t reason => { s with state := .faulted }.setPhase t (.faulting s.state reason)
  | .faultPublish t previous reason => (s.publish previous .faulted reason 1).setPhase t .idle
  | .disconnectBegin t => s.disconnectSection t
  | .stopCall t e =>
    (if (s.life e).active then s.setLife e .ended else s).setPhase t .inStop
  | .stopReturned t => s.setPhase t .stopped
  | .disconnectEnd t =>
    (({ s.releaseSession with engine := none }.transition .disconnected .ok 0).record
      .disconnectReturned).setPhase t .idle
  | .reconnectRead t => if s.engine.isNone then s else s.setPhase t .reconnecting
  | .reconnectExchange t =>
    { s with state := .reconnecting }.setPhase t (.renegotiating s.state)
  | .reconnectReturned t previous => (s.publish previous .reconnecting .ok 0).setPhase t .idle
  | .engineState _ state reason => s.onEngineState state reason
  | .sessionSet e =>
    { s with session := true, upPending := e :: s.upPending }.record (.established e)
  | .sessionUp e => { s with upPending := s.upPending.erase e }.record .sessionUp
  | .counters _ counters => { s with statistics := counters }

def step (s : TunnelThreads) (act : ThreadAct) : Option TunnelThreads :=
  if s.allows act then some (s.effect act) else none

theorem step_eq_some {s s' : TunnelThreads} {act : ThreadAct} :
    s.step act = some s' ↔ s.allows act = true ∧ s.effect act = s' := by
  unfold step
  split
  · next h => simp [h]
  · next h => simp [h]

end TunnelThreads

/-- A `connect` of thread 1 of a new tunnel, up to its engine. -/
def connectEngine : List ThreadAct :=
  [.connectGuard 1, .connectCreate 1 .ok .ok, .connectExchange 1 0,
    .connectStart 1 0 .disconnected]

theorem connectEngine_phase {s : TunnelThreads}
    (h : Framework.run TunnelThreads.step {} connectEngine = some s) (t : Nat) :
    s.phase t = if t = 1 then .starting 0 else .idle := by
  cases h
  by_cases ht : t = 1
  · subst ht
    rfl
  · simp [TunnelThreads.effect, TunnelThreads.connectSection, TunnelThreads.setPhase,
      TunnelThreads.setLife, TunnelThreads.publish, TunnelThreads.record, isTransitional, ht]

/-! ## What a step shows

The log, whether a session is set and which engines are about to call
`onSessionUp`: `observed` says once what a step does to these. -/

structure Seen where
  log : List Entry
  session : Bool
  pending : List Nat

namespace Seen

def add (x : Seen) (e : Entry) : Seen := { x with log := e :: x.log }

def published (x : Seen) (previous current : ConnectionState) (reason : Status) (attempt : Nat) :
    Seen :=
  { x with
    log := if previous = current then x.log
      else .published previous current reason attempt x.session :: x.log }

def released (x : Seen) : Seen :=
  { x with session := false, log := if x.session then .sessionDown :: x.log else x.log }

def established (x : Seen) (e : Nat) : Seen :=
  { log := .established e :: x.log, session := true, pending := e :: x.pending }

def up (x : Seen) (e : Nat) : Seen :=
  { x with log := .sessionUp :: x.log, pending := x.pending.erase e }

end Seen

/-- A `connect` whose `start` failed has yet to report it. -/
def Phase.failing : Phase → Bool
  | .failed _ | .faulting _ _ => true
  | _ => false

/-- The states in which the network is to be unwound. -/
def ConnectionState.terminal (state : ConnectionState) : Bool :=
  state == .disconnected || state == .faulted

namespace TunnelThreads

def seen (s : TunnelThreads) : Seen := ⟨s.log, s.session, s.upPending⟩

/-- What the steps show. -/
inductive Observed (s : TunnelThreads) : ThreadAct → Seen → Prop where
  | silent (act : ThreadAct) : Observed s act s.seen
  | called (t : Nat) : Observed s (.connectGuard t) (s.seen.add .connectCalled)
  /-- A terminal state is published in this way only by a `connect` that
  failed. -/
  | reported (act : ThreadAct) (previous current : ConnectionState) (reason : Status)
      (attempt : Nat) (h : current.terminal = true → ∃ t, (s.phase t).failing = true) :
      Observed s act (s.seen.published previous current reason attempt)
  | returned (t : Nat) (h : s.state = .disconnected) :
      Observed s (.disconnectBegin t) (s.seen.add .disconnectReturned)
  | ended (t : Nat) : Observed s (.disconnectEnd t)
      ((s.seen.released.published s.state .disconnected .ok 0).add .disconnectReturned)
  | terminal (e : Nat) (state : ConnectionState) (reason : Status) (h : state.terminal = true) :
      Observed s (.engineState e state reason) (s.seen.released.published s.state state reason 0)
  | established (e : Nat) : Observed s (.sessionSet e) (s.seen.established e)
  | up (e : Nat) (h : e ∈ s.upPending) : Observed s (.sessionUp e) (s.seen.up e)

theorem observed {s s' : TunnelThreads} {act : ThreadAct} (h : s.step act = some s') :
    Observed s act s'.seen := by
  obtain ⟨hallow, rfl⟩ := step_eq_some.mp h
  cases act with
  | connectGuard t =>
    rw [effect]
    split
    · exact .called t
    · exact .called t
  | connectCreate t created validated =>
    rw [effect, connectSection]
    split
    · exact .silent _
    · exact .silent _
  | connectExchange t e => exact .silent _
  | connectStart t e previous => exact .reported _ previous .connecting .ok 1 fun hend => by cases hend
  | startReturned t e started =>
    rw [effect]
    split
    · exact .silent _
    · split
      · exact .silent _
      · exact .silent _
  | faultExchange t reason => exact .silent _
  | faultPublish t previous reason =>
    refine .reported _ previous .faulted reason 1 fun _ => ⟨t, ?_⟩
    rw [beq_iff_eq.mp hallow]
    rfl
  | disconnectBegin t =>
    rw [effect, disconnectSection]
    split
    · next hstate => exact .returned t hstate
    · exact .reported _ s.state .disconnecting .ok 0 fun hend => by cases hend
  | stopCall t e =>
    rw [effect]
    split
    · exact .silent _
    · exact .silent _
  | stopReturned t => exact .silent _
  | disconnectEnd t => exact .ended t
  | reconnectRead t =>
    rw [effect]
    split
    · exact .silent _
    · exact .silent _
  | reconnectExchange t => exact .silent _
  | reconnectReturned t previous => exact .reported _ previous .reconnecting .ok 0 fun hend => by cases hend
  | engineState e state reason =>
    rw [effect, onEngineState]
    split
    · next hend => exact .terminal e state reason (by simpa [ConnectionState.terminal] using hend)
    · next hend =>
      refine .reported _ s.state state reason 0 fun ht => absurd ?_ hend
      simpa [ConnectionState.terminal] using ht
  | sessionSet e => exact .established e
  | sessionUp e => exact .up e (of_decide_eq_true hallow)
  | counters e c => exact .silent _

end TunnelThreads

end NovaVpn
