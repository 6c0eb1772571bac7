import Mathlib.Algebra.Group.Nat.Defs
import NovaVpn.Framework.Machine

/-!
# The logger

`Logs/Logger.cpp`: any number of threads submit and flush, and a drain thread
takes the records from the bounded queue to the sinks, which do not change. A
section under the mutex of the queue is one step, and so is a `deliver`, as
only the drain thread writes to the sinks; the counter of the dropped records
is read on its own. A full queue drops the record and counts it, and the drain
thread reports what was counted since its last notice.

The counter has 64 bits. As long as it does not come round, nothing is lost
silently (`accounted`); 2^64 drops between two readings are not reported
(`drops_come_round`).
-/

namespace NovaVpn.Logs

open NovaVpn.Framework

/-! ## Records and sinks -/

inductive Level where
  | trace
  | debug
  | info
  | warn
  | error
  | fatal
  /-- Never emitted. -/
  | off

def Level.toNat : Level → Nat
  | trace => 0
  | debug => 1
  | info => 2
  | warn => 3
  | error => 4
  | fatal => 5
  | off => 6

inductive Channel where
  | core
  | service
  | ipc
  | tunnel
  | engine
  | network
  | dns
  | routing
  | firewall
  | splitTunnel
  | driver
  | database
  | profile
  | updater
  | ui
  | plugin
  | security

structure Field where
  key : String
  value : String

structure SourceLocation where
  file : Option String := none
  line : Int := 0
  function : Option String := none

structure LogRecord where
  timestamp : Int := 0
  level : Level := .info
  channel : Channel := .core
  message : String := ""
  fields : List Field := []
  location : SourceLocation := {}
  threadId : UInt32 := 0
  sessionId : String := ""

/-- What is delivered: an accepted record, or a notice of the drain thread. -/
inductive Item where
  | record (record : LogRecord)
  | notice (drops : UInt64) (timestamp : Int) (threadId : UInt32)

namespace Item

def logRecord : Item → LogRecord
  | record r => r
  | notice drops timestamp threadId =>
    { timestamp
      level := .warn
      channel := .core
      message := "log records dropped due to queue pressure"
      fields := [{ key := "dropped", value := toString drops.toNat }]
      threadId }

def accepted? : Item → Option LogRecord
  | record r => some r
  | notice _ _ _ => none

/-- The number in a notice. -/
def drops : Item → Nat
  | record _ => 0
  | notice drops _ _ => drops.toNat

end Item

structure Sink where
  minimumLevel : Level := .trace
  written : List Item := []

def Sink.takes (sink : Sink) (item : Item) : Bool :=
  sink.minimumLevel.toNat ≤ item.logRecord.level.toNat

def Sink.write (sink : Sink) (item : Item) : Sink :=
  if sink.takes item then { sink with written := sink.written ++ [item] } else sink

/-! ## The logger -/

inductive DrainPhase where
  /-- In the wait at the top of the loop. -/
  | waiting
  /-- Before `deliver` of the record that was popped. -/
  | delivering (record : LogRecord)
  /-- Before `m_draining` is cleared. -/
  | delivered
  /-- Before the counter is read. -/
  | loading
  /-- Before `deliver` of a notice. -/
  | noticing (drops : UInt64) (timestamp : Int) (threadId : UInt32)
  /-- After the loop. -/
  | leaving
  /-- In the final drain. -/
  | remaining (records : List LogRecord)
  | ended

/-- The records that were taken from the queue and not yet delivered. -/
def DrainPhase.inFlight : DrainPhase → List LogRecord
  | delivering r => [r]
  | remaining rs => rs
  | _ => []

/-- The number that the next notice says. -/
def DrainPhase.unsaid : DrainPhase → Nat
  | noticing drops _ _ => drops.toNat
  | _ => 0

/-- The counter was read after the last record. -/
def DrainPhase.read : DrainPhase → Bool
  | waiting | noticing _ _ _ => true
  | _ => false

/-- After the loop. -/
def DrainPhase.left : DrainPhase → Bool
  | leaving | remaining _ | ended => true
  | _ => false

def DrainPhase.isWaiting : DrainPhase → Bool
  | waiting => true
  | _ => false

/-- A call of `flush`: how many records had been accepted before it, and how
many of them were delivered when its wait ended. -/
structure Flush where
  before : Nat
  reached : Option Nat := none

structure Logger where
  queueCapacity : Nat
  sinks : List Sink
  queue : List LogRecord := []
  stopping : Bool := false
  draining : Bool := false
  dropped : UInt64 := 0
  reportedDrops : UInt64 := 0
  phase : DrainPhase := .waiting
  /-- The destructor has joined the drain thread. -/
  destroyed : Bool := false
  /-- How many calls of `submit` there were, how many of them were refused for
  shutdown, and how many dropped. -/
  submits : Nat := 0
  refused : Nat := 0
  drops : Nat := 0
  accepted : List LogRecord := []
  delivered : List Item := []
  flushes : List Flush := []

namespace Logger

inductive LoggerAct where
  | submit (record : LogRecord)
  | flush
  /-- The wait of a `flush` ends. -/
  | flushed (index : Nat)
  /-- The steps of the destructor. -/
  | stop
  | joined
  /-- The steps of `drainLoop`. -/
  | wake
  | deliver
  | undrain
  | load (timestamp : Int) (threadId : UInt32)
  | takeRemaining
  | finish

/-- The accepted records that were delivered. -/
def deliveredRecords (s : Logger) : List LogRecord := s.delivered.filterMap Item.accepted?

/-- The sum of the numbers in the notices. -/
def noticed (s : Logger) : Nat := s.delivered.foldl (fun n item => n + item.drops) 0

def deliver (s : Logger) (item : Item) : Logger :=
  { s with
    delivered := s.delivered ++ [item]
    sinks := s.sinks.map fun sink => sink.write item }

def submit (s : Logger) (record : LogRecord) : Logger :=
  if s.stopping then { s with submits := s.submits + 1, refused := s.refused + 1 }
  else if s.queueCapacity ≤ s.queue.length then
    { s with submits := s.submits + 1, drops := s.drops + 1, dropped := s.dropped + 1 }
  else
    { s with
      submits := s.submits + 1
      queue := s.queue ++ [record]
      accepted := s.accepted ++ [record] }

/-- A step of the drain thread. -/
def drainStep (s : Logger) : LoggerAct → Option Logger
  | .wake =>
    match s.phase with
    | .waiting =>
      match s.queue with
      | [] => if s.stopping then some { s with phase := .leaving } else none
      | record :: rest =>
        some { s with queue := rest, draining := true, phase := .delivering record }
    | _ => none
  | .deliver =>
    match s.phase with
    | .delivering record => some { s.deliver (.record record) with phase := .delivered }
    | .noticing drops timestamp threadId =>
      some { s.deliver (.notice drops timestamp threadId) with phase := .waiting }
    | .remaining (record :: rest) =>
      some { s.deliver (.record record) with phase := .remaining rest }
    | _ => none
  | .undrain =>
    match s.phase with
    | .delivered => some { s with draining := false, phase := .loading }
    | _ => none
  | .load timestamp threadId =>
    match s.phase with
    | .loading =>
      if s.reportedDrops < s.dropped then
        some { s with
          reportedDrops := s.dropped
          phase := .noticing (s.dropped - s.reportedDrops) timestamp threadId }
      else some { s with phase := .waiting }
    | _ => none
  | .takeRemaining =>
    match s.phase with
    | .leaving => some { s with queue := [], phase := .remaining s.queue }
    | _ => none
  | .finish =>
    match s.phase with
    | .remaining [] => some { s with phase := .ended }
    | _ => none
  | _ => none

def step (s : Logger) (act : LoggerAct) : Option Logger :=
  match act with
  | .submit record => some (s.submit record)
  | .flush => some { s with flushes := s.flushes ++ [{ before := s.accepted.length }] }
  | .flushed index =>
    if s.queue.isEmpty && !s.draining then
      some { s with flushes := s.flushes.modify index fun f =>
        { f with reached := some (f.reached.getD s.deliveredRecords.length) } }
    else none
  | .stop => if s.stopping then none else some { s with stopping := true }
  | .joined =>
    match s.phase with
    | .ended => some { s with destroyed := true }
    | _ => none
  | .wake | .deliver | .undrain | .load _ _ | .takeRemaining | .finish => s.drainStep act

/-! ## The accounts -/

/-- What was accepted is delivered in order and once, to every sink that takes
its level; every call is accounted for; and `flush` and the destructor wait for
what they have to. -/
structure Accounted (s : Logger) : Prop where
  order : s.accepted = s.deliveredRecords ++ s.phase.inFlight ++ s.queue
  sinks : ∀ sink ∈ s.sinks, sink.written = s.delivered.filter sink.takes
  counted : s.submits = s.refused + (s.accepted.length + s.dropped.toNat)
  noticed : s.phase = .waiting → s.queue = [] → s.noticed = s.drops
  flushed : ∀ f ∈ s.flushes, ∀ n, f.reached = some n → f.before ≤ n
  destroyed : s.destroyed = true → s.deliveredRecords = s.accepted

theorem Sink.takes_write (sink : Sink) (item : Item) : (sink.write item).takes = sink.takes := by
  unfold Sink.write
  split <;> rfl

/-- Every sink has what it takes of what was delivered. -/
theorem deliver_sinks {s : Logger} (h : ∀ sink ∈ s.sinks, sink.written = s.delivered.filter sink.takes)
    (item : Item) :
    ∀ sink ∈ (s.deliver item).sinks, sink.written = (s.deliver item).delivered.filter sink.takes := by
  intro sink hsink
  obtain ⟨before, hbefore, rfl⟩ := List.mem_map.mp hsink
  rw [Sink.takes_write]
  show (before.write item).written = (s.delivered ++ [item]).filter before.takes
  rw [List.filter_append, ← h before hbefore]
  unfold Sink.write
  split
  next htakes => rw [List.filter_cons_of_pos htakes, List.filter_nil]
  next htakes => rw [List.filter_cons_of_neg htakes, List.filter_nil, List.append_nil]

theorem deliveredRecords_deliver (s : Logger) (item : Item) :
    (s.deliver item).deliveredRecords = s.deliveredRecords ++ item.accepted?.toList := by
  simp only [deliveredRecords, deliver, List.filterMap_append]
  cases item <;> rfl

theorem noticed_deliver (s : Logger) (item : Item) :
    (s.deliver item).noticed = s.noticed + item.drops := by
  simp only [noticed, deliver, List.foldl_append, List.foldl_cons, List.foldl_nil]

structure LogInv (s : Logger) : Prop where
  capacity : 0 < s.queueCapacity
  order : s.accepted = s.deliveredRecords ++ s.phase.inFlight ++ s.queue
  sinks : ∀ sink ∈ s.sinks, sink.written = s.delivered.filter sink.takes
  dropped : s.dropped.toNat = s.drops
  counted : s.submits = s.refused + (s.accepted.length + s.drops)
  reported : s.reportedDrops ≤ s.dropped
  said : s.noticed + s.phase.unsaid = s.reportedDrops.toNat
  /-- What is dropped after the reading is dropped on a queue that is not empty. -/
  read : s.phase.read = true → s.queue = [] → s.reportedDrops = s.dropped
  draining : s.draining = false → s.phase.inFlight = []
  left : s.phase.left = true → s.stopping = true ∧ s.queue = [] ∧ s.phase.inFlight = []
  flushes : ∀ f ∈ s.flushes, f.before ≤ s.accepted.length ∧ ∀ n, f.reached = some n → f.before ≤ n
  destroyed : s.destroyed = true → s.phase = .ended

namespace LogInv

variable {s s' : Logger}

theorem toAccounted (h : LogInv s) : Accounted s := by
  refine ⟨h.order, h.sinks, ?_, fun hphase hqueue => ?_, fun f hf => (h.flushes f hf).2, fun hd => ?_⟩
  · rw [h.dropped, h.counted]
  · have hsaid := h.said
    rw [hphase, h.read (by rw [hphase]; rfl) hqueue, h.dropped] at hsaid
    exact hsaid
  · have hphase := h.destroyed hd
    obtain ⟨-, hqueue, hflight⟩ := h.left (by rw [hphase]; rfl)
    rw [h.order, hflight, hqueue, List.append_nil, List.append_nil]

theorem submit (h : LogInv s) (record : LogRecord) (hlt : (s.submit record).drops < 2 ^ 64) :
    LogInv (s.submit record) := by
  unfold Logger.submit at hlt ⊢
  split
  next =>
    refine ⟨h.capacity, h.order, h.sinks, h.dropped, ?_, h.reported, h.said, h.read, h.draining,
      h.left, h.flushes, h.destroyed⟩
    have hcounted := h.counted
    simp only
    omega
  next hstopping =>
    have hleft : s.phase.left = true → False := fun hl => hstopping (h.left hl).1
    split
    next hfull =>
      rw [if_neg hstopping, if_pos hfull] at hlt
      have hqueue : s.queue ≠ [] := by
        intro hempty
        rw [hempty, List.length_nil] at hfull
        have hcapacity := h.capacity
        omega
      have hdropped : (s.dropped + 1).toNat = s.drops + 1 := by
        rw [UInt64.toNat_add, h.dropped]
        exact Nat.mod_eq_of_lt hlt
      refine ⟨h.capacity, h.order, h.sinks, hdropped, ?_, ?_, h.said,
        fun _ hempty => absurd hempty hqueue, h.draining, h.left, h.flushes, h.destroyed⟩
      · have hcounted := h.counted
        simp only
        omega
      · have hreported := UInt64.le_iff_toNat_le.mp h.reported
        rw [h.dropped] at hreported
        refine UInt64.le_iff_toNat_le.mpr ?_
        show s.reportedDrops.toNat ≤ (s.dropped + 1).toNat
        omega
    next =>
      refine ⟨h.capacity, ?_, h.sinks, h.dropped, ?_, h.reported, h.said, fun _ hempty => ?_,
        h.draining, fun hl => (hleft hl).elim, fun f hf => ?_, h.destroyed⟩
      · show s.accepted ++ [record] = _
        rw [h.order, List.append_assoc]
        rfl
      · have hcounted := h.counted
        simp only [List.length_append, List.length_singleton]
        omega
      · exact absurd hempty (List.append_ne_nil_of_right_ne_nil _ (List.cons_ne_nil _ _))
      · obtain ⟨hbefore, hreached⟩ := h.flushes f hf
        refine ⟨?_, hreached⟩
        show f.before ≤ (s.accepted ++ [record]).length
        rw [List.length_append]
        omega

/-- What was delivered of the records in flight is not in flight any more. -/
theorem deliver (h : LogInv s) (item : Item) (phase : DrainPhase)
    (hflight : s.phase.inFlight = item.accepted?.toList ++ phase.inFlight)
    (hunsaid : s.phase.unsaid = item.drops + phase.unsaid)
    (hread : phase.read = true → s.queue = [] → s.reportedDrops = s.dropped)
    (hleft : phase.left = true → s.phase.left = true) (hended : s.phase ≠ .ended) :
    LogInv { s.deliver item with phase } := by
  refine ⟨h.capacity, ?_, deliver_sinks h.sinks item, h.dropped, h.counted, h.reported, ?_, hread,
    fun hdraining => ?_, fun hl => ?_, h.flushes, fun hd => absurd (h.destroyed hd) hended⟩
  · show s.accepted = (s.deliver item).deliveredRecords ++ phase.inFlight ++ s.queue
    rw [deliveredRecords_deliver, h.order, hflight, List.append_assoc, List.append_assoc,
      List.append_assoc, List.append_assoc]
  · show (s.deliver item).noticed + phase.unsaid = s.reportedDrops.toNat
    have hsaid := h.said
    rw [noticed_deliver]
    omega
  · have hnone := h.draining hdraining
    rw [hflight] at hnone
    exact (List.append_eq_nil_iff.mp hnone).2
  · obtain ⟨hstopping, hqueue, hnone⟩ := h.left (hleft hl)
    rw [hflight] at hnone
    exact ⟨hstopping, hqueue, (List.append_eq_nil_iff.mp hnone).2⟩

/-- The drain thread goes on, and delivers nothing. -/
theorem move (h : LogInv s) (phase : DrainPhase) (draining : Bool)
    (hflight : phase.inFlight = s.phase.inFlight) (hunsaid : phase.unsaid = s.phase.unsaid)
    (hread : phase.read = true → s.queue = [] → s.reportedDrops = s.dropped)
    (hdraining : draining = false → phase.inFlight = [])
    (hleft : phase.left = true → s.stopping = true ∧ s.queue = [] ∧ phase.inFlight = [])
    (hended : s.phase ≠ .ended) : LogInv { s with phase, draining } := by
  refine ⟨h.capacity, ?_, h.sinks, h.dropped, h.counted, h.reported, ?_, hread, hdraining, hleft,
    h.flushes, fun hd => absurd (h.destroyed hd) hended⟩
  · show s.accepted = s.deliveredRecords ++ phase.inFlight ++ s.queue
    rw [h.order, hflight]
  · show s.noticed + phase.unsaid = s.reportedDrops.toNat
    rw [hunsaid, h.said]

attribute [local simp] Logger.drainStep

/-- The worker takes a record, or sees the queue empty when it has to stop. -/
theorem drainWake (h : LogInv s) (hs : s.drainStep .wake = some s') : LogInv s' := by
  simp only [Logger.drainStep] at hs
  split at hs
  next hphase =>
    have hended : s.phase ≠ .ended := by simp [hphase]
    split at hs
    next hqueue =>
      split at hs
      next hstopping =>
        cases hs
        exact h.move .leaving s.draining (by rw [hphase]; rfl) (by rw [hphase]; rfl)
          (fun hread => by cases hread) (fun _ => rfl) (fun _ => ⟨hstopping, hqueue, rfl⟩) hended
      next => cases hs
    next record rest hqueue =>
      cases hs
      have horder := h.order
      have hsaid := h.said
      rw [hphase] at horder hsaid
      refine ⟨h.capacity, ?_, h.sinks, h.dropped, h.counted, h.reported, hsaid,
        fun hread => (by cases hread), fun hdraining => (by cases hdraining),
        fun hl => (by cases hl), h.flushes, fun hd => absurd (h.destroyed hd) hended⟩
      show s.accepted = s.deliveredRecords ++ [record] ++ rest
      rw [horder, hqueue, List.append_assoc, List.append_assoc]
      rfl
  next => cases hs

theorem drainDeliver (h : LogInv s) (hs : s.drainStep .deliver = some s') : LogInv s' := by
  simp only [Logger.drainStep] at hs
  split at hs
  next record hphase =>
    cases hs
    exact h.deliver (.record record) .delivered (by rw [hphase]; rfl) (by rw [hphase]; rfl)
      (fun hread => by cases hread) (fun hl => by cases hl) (by simp [hphase])
  next drops timestamp threadId hphase =>
    cases hs
    have hread := h.read
    rw [hphase] at hread
    exact h.deliver (.notice drops timestamp threadId) .waiting (by rw [hphase]; rfl)
      (by rw [hphase]; rfl) (fun _ => hread rfl) (fun hl => by cases hl) (by simp [hphase])
  next record rest hphase =>
    cases hs
    exact h.deliver (.record record) (.remaining rest) (by rw [hphase]; rfl) (by rw [hphase]; rfl)
      (fun hread => by cases hread) (fun _ => by rw [hphase]; rfl) (by simp [hphase])
  next => cases hs

/-- What was dropped since the last notice is put into the next. -/
theorem drainLoad (h : LogInv s) {timestamp : Int} {threadId : UInt32}
    (hs : s.drainStep (.load timestamp threadId) = some s') : LogInv s' := by
  simp only [Logger.drainStep] at hs
  split at hs
  next hphase =>
    have hended : s.phase ≠ .ended := by simp [hphase]
    split at hs
    next hmore =>
      cases hs
      have horder := h.order
      have hsaid := h.said
      rw [hphase] at horder hsaid
      refine ⟨h.capacity, horder, h.sinks, h.dropped, h.counted, UInt64.le_refl _, ?_,
        fun _ _ => rfl, fun _ => rfl, fun hl => (by cases hl), h.flushes,
        fun hd => absurd (h.destroyed hd) hended⟩
      show s.noticed + (s.dropped - s.reportedDrops).toNat = s.dropped.toNat
      have hle := UInt64.le_iff_toNat_le.mp h.reported
      have hsaid' : s.noticed = s.reportedDrops.toNat := hsaid
      rw [UInt64.toNat_sub_of_le _ _ h.reported]
      omega
    next hmore =>
      cases hs
      refine h.move .waiting s.draining (by rw [hphase]; rfl) (by rw [hphase]; rfl) (fun _ _ => ?_)
        (fun _ => rfl) (fun hl => by cases hl) hended
      exact UInt64.le_antisymm h.reported (UInt64.not_lt.mp hmore)
  next => cases hs

/-- Behind the loop the queue is empty. -/
theorem drainTakeRemaining (h : LogInv s)
    (hs : s.drainStep .takeRemaining = some s') : LogInv s' := by
  simp only [Logger.drainStep] at hs
  split at hs
  next hphase =>
    cases hs
    -- nothing was accepted after the loop had seen the queue empty
    obtain ⟨hstopping, hqueue, -⟩ := h.left (by rw [hphase]; rfl)
    rw [hqueue]
    have hmoved := h.move (.remaining []) s.draining (by rw [hphase]; rfl) (by rw [hphase]; rfl)
      (fun hread => by cases hread) (fun _ => rfl) (fun _ => ⟨hstopping, hqueue, rfl⟩)
      (by simp [hphase])
    exact hqueue ▸ hmoved
  next => cases hs

theorem drainFinish (h : LogInv s) (hs : s.drainStep .finish = some s') : LogInv s' := by
  simp only [Logger.drainStep] at hs
  split at hs
  next hphase =>
    cases hs
    obtain ⟨hstopping, hqueue, -⟩ := h.left (by rw [hphase]; rfl)
    exact h.move .ended s.draining (by rw [hphase]; rfl) (by rw [hphase]; rfl)
      (fun hread => by cases hread) (fun _ => rfl) (fun _ => ⟨hstopping, hqueue, rfl⟩)
      (by simp [hphase])
  next => cases hs

theorem drainStep (h : LogInv s) {act : LoggerAct} (hs : s.drainStep act = some s') :
    LogInv s' := by
  cases act with
  | wake => exact h.drainWake hs
  | deliver => exact h.drainDeliver hs
  | undrain =>
    simp only [Logger.drainStep] at hs
    split at hs
    next hphase =>
      cases hs
      exact h.move .loading false (by rw [hphase]; rfl) (by rw [hphase]; rfl)
        (fun hread => by cases hread) (fun _ => rfl) (fun hl => by cases hl) (by simp [hphase])
    next => cases hs
  | load timestamp threadId => exact h.drainLoad hs
  | takeRemaining => exact h.drainTakeRemaining hs
  | finish => exact h.drainFinish hs
  | _ => cases hs

theorem flushed (h : LogInv s) (index : Nat) (hqueue : s.queue = []) (hdraining : s.draining = false) :
    LogInv { s with flushes := s.flushes.modify index fun f =>
      { f with reached := some (f.reached.getD s.deliveredRecords.length) } } := by
  have hall : s.deliveredRecords = s.accepted := by
    rw [h.order, h.draining hdraining, hqueue, List.append_nil, List.append_nil]
  refine ⟨h.capacity, h.order, h.sinks, h.dropped, h.counted, h.reported, h.said, h.read, h.draining,
    h.left, fun f hf => ?_, h.destroyed⟩
  obtain ⟨i, hi, rfl⟩ := List.mem_iff_getElem.mp hf
  rw [List.getElem_modify]
  rw [List.length_modify] at hi
  obtain ⟨hbefore, hreached⟩ := h.flushes s.flushes[i] (List.getElem_mem hi)
  split
  next =>
    refine ⟨hbefore, fun n hn => ?_⟩
    replace hn : s.flushes[i].reached.getD s.deliveredRecords.length = n := Option.some.inj hn
    show s.flushes[i].before ≤ n
    cases hfirst : s.flushes[i].reached with
    | none =>
      rw [hfirst, Option.getD_none, hall] at hn
      omega
    | some m =>
      rw [hfirst, Option.getD_some] at hn
      exact hn ▸ hreached m hfirst
  next => exact ⟨hbefore, hreached⟩

theorem step (h : LogInv s) {act : LoggerAct} (hlt : s'.drops < 2 ^ 64)
    (hs : s.step act = some s') : LogInv s' := by
  cases act with
  | submit record =>
    cases hs
    exact h.submit record hlt
  | flush =>
    cases hs
    refine ⟨h.capacity, h.order, h.sinks, h.dropped, h.counted, h.reported, h.said, h.read,
      h.draining, h.left, fun f hf => ?_, h.destroyed⟩
    rcases List.mem_append.mp hf with hf | hf
    · exact h.flushes f hf
    · rw [List.mem_singleton.mp hf]
      exact ⟨Nat.le_refl _, fun n hn => by cases hn⟩
  | flushed index =>
    simp only [Logger.step] at hs
    split at hs
    next hready =>
      cases hs
      rw [Bool.and_eq_true, List.isEmpty_iff, Bool.not_eq_true'] at hready
      exact h.flushed index hready.1 hready.2
    next => cases hs
  | stop =>
    simp only [Logger.step] at hs
    split at hs
    next => cases hs
    next =>
      cases hs
      exact ⟨h.capacity, h.order, h.sinks, h.dropped, h.counted, h.reported, h.said, h.read,
        h.draining, fun hl => ⟨rfl, (h.left hl).2⟩, h.flushes, h.destroyed⟩
  | joined =>
    simp only [Logger.step] at hs
    split at hs
    next hphase =>
      cases hs
      exact ⟨h.capacity, h.order, h.sinks, h.dropped, h.counted, h.reported, h.said, h.read,
        h.draining, h.left, h.flushes, fun _ => hphase⟩
    next => cases hs
  | wake | deliver | undrain | load timestamp threadId | takeRemaining | finish =>
    simp only [Logger.step] at hs
    exact h.drainStep hs

theorem init {queueCapacity : Nat} (hcapacity : 0 < queueCapacity) {sinks : List Sink}
    (hsinks : ∀ sink ∈ sinks, sink.written = []) : LogInv { queueCapacity, sinks } :=
  ⟨hcapacity, rfl, hsinks, rfl, rfl, UInt64.le_refl _, rfl, fun _ _ => rfl, fun _ => rfl,
    fun hl => (by cases hl), fun _ hf => absurd hf List.not_mem_nil, fun hd => (by cases hd)⟩

end LogInv

theorem drops_le_of_step {s s' : Logger} {act : LoggerAct} (hs : s.step act = some s') :
    s.drops ≤ s'.drops := by
  cases act with
  | submit record =>
    cases hs
    unfold submit
    split
    · exact Nat.le_refl _
    · split
      · exact Nat.le_succ _
      · exact Nat.le_refl _
  | _ =>
    simp only [step, drainStep] at hs
    grind [deliver]

/-- In every state that is reached with fewer than 2^64 drops. -/
theorem accounted {queueCapacity : Nat} (hcapacity : 0 < queueCapacity) {sinks : List Sink}
    (hsinks : ∀ sink ∈ sinks, sink.written = []) {acts : List LoggerAct} {s : Logger}
    (hr : run step { queueCapacity, sinks } acts = some s) (hdrops : s.drops < 2 ^ 64) :
    Accounted s := by
  have hinv : s.drops < 2 ^ 64 → LogInv s := by
    refine run_invariant' (I := fun s => s.drops < 2 ^ 64 → LogInv s)
      (fun s act s' h hs hlt => ?_) (fun _ => .init hcapacity hsinks) hr
    exact (h (Nat.lt_of_le_of_lt (drops_le_of_step hs) hlt)).step hlt hs
  exact (hinv hdrops).toAccounted

/-- A record is dropped and reported, and the logger is destroyed. -/
def dropReported : List LoggerAct :=
  [.submit { message := "a" }, .submit { message := "b" }, .flush, .wake, .deliver, .undrain,
    .load 0 1, .deliver, .flushed 0, .stop, .wake, .takeRemaining, .finish, .joined]

theorem accounted_drop : ∃ s, run step { queueCapacity := 1, sinks := [{}] } dropReported = some s ∧
    s.noticed = 1 ∧ s.destroyed = true ∧ Accounted s := by
  have hrun : (run step { queueCapacity := 1, sinks := [{}] } dropReported).map
      (fun s => (s.noticed, s.destroyed, s.drops)) = some (1, true, 1) := by decide +kernel
  obtain ⟨s, hs, heq⟩ := Option.map_eq_some_iff.mp hrun
  obtain ⟨hnoticed, heq⟩ := Prod.mk.inj heq
  obtain ⟨hdestroyed, hdrops⟩ := Prod.mk.inj heq
  refine ⟨s, hs, hnoticed, hdestroyed, accounted Nat.one_pos (fun sink hsink => ?_) hs (by omega)⟩
  rw [List.mem_singleton.mp hsink]

/-! ## The counter comes round -/

/-- One record is queued, and `n` were dropped. -/
def droppedState (n : Nat) : Logger where
  queueCapacity := 1
  sinks := []
  queue := [{}]
  dropped := UInt64.ofNat n
  submits := n + 1
  drops := n
  accepted := [{}]

theorem run_drops (n m : Nat) :
    run step (droppedState m) (List.replicate n (.submit {})) = some (droppedState (m + n)) := by
  induction n generalizing m with
  | zero => rfl
  | succ n ih =>
    have hdropped : UInt64.ofNat m + 1 = UInt64.ofNat (m + 1) := by simp [UInt64.ofNat_add]
    have hstep : step (droppedState m) (.submit {}) = some (droppedState (m + 1)) := by
      show some { droppedState (m + 1) with dropped := UInt64.ofNat m + 1 } = _
      rw [hdropped]
      rfl
    rw [List.replicate_succ, run, hstep, Option.bind_some, ih (m + 1)]
    congr 2
    omega

/-- After 2^64 drops the drain thread reads 0, and says nothing. -/
theorem drops_come_round : ¬ ∀ queueCapacity, 0 < queueCapacity → ∀ sinks : List Sink,
    (∀ sink ∈ sinks, sink.written = []) → ∀ acts s,
      run step { queueCapacity, sinks } acts = some s → Accounted s := by
  intro h
  have hdrops : run step { queueCapacity := 1, sinks := [] }
      (.submit {} :: List.replicate 18446744073709551616 (.submit {})) =
        some (droppedState 18446744073709551616) := by
    have hfirst : step { queueCapacity := 1, sinks := [] } (.submit {}) = some (droppedState 0) := rfl
    rw [run, hfirst, Option.bind_some, run_drops]
  have hlast : (run step (droppedState 18446744073709551616) [.wake, .deliver, .undrain, .load 0 1]).map
      (fun s => (s.noticed, s.drops, s.queue.isEmpty, s.phase.isWaiting)) =
        some (0, 18446744073709551616, true, true) := by decide +kernel
  obtain ⟨s, hs, heq⟩ := Option.map_eq_some_iff.mp hlast
  obtain ⟨hnoticed, heq⟩ := Prod.mk.inj heq
  obtain ⟨hdropped, heq⟩ := Prod.mk.inj heq
  obtain ⟨hqueue, hwaiting⟩ := Prod.mk.inj heq
  have hrun : run step { queueCapacity := 1, sinks := [] }
      ((.submit {} :: List.replicate 18446744073709551616 (.submit {})) ++
        [.wake, .deliver, .undrain, .load 0 1]) = some s := by
    rw [run_append, hdrops, Option.bind_some, hs]
  have hphase : s.phase = .waiting := by
    cases hp : s.phase <;> rw [hp] at hwaiting <;> cases hwaiting
  have hsum := (h 1 Nat.one_pos [] (fun _ hsink => absurd hsink List.not_mem_nil) _ s hrun).noticed
    hphase (List.isEmpty_iff.mp hqueue)
  omega

end Logger

end NovaVpn.Logs
