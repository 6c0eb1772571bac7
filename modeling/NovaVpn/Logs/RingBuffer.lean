import NovaVpn.Framework.Ring
import NovaVpn.Logs.Logger

/-!
# The ring buffer sink

`RingBufferSink` of `Logs/Sink.cpp`. A call is one section under the mutex, so
any interleaving of threads is a list of calls. After every such list
`snapshot` is the end of what was written since the last `clear`
(`snapshot_afterCalls`): the buffer read from `m_next` is that, as soon as
`m_wrapped` says that the whole of it was written.
-/

namespace NovaVpn.Logs

open NovaVpn.Framework

/-- The members of a `RingBufferSink`; the records always fill the capacity. -/
structure RingBufferSink where
  capacity : Nat
  records : List LogRecord
  next : Nat := 0
  wrapped : Bool := false
  length_records : records.length = capacity
  next_lt : next < capacity

/-- The calls that change the records. -/
inductive RingCall where
  | write (record : LogRecord)
  | clear

namespace RingCall

/-- What a call makes of the records written since the last `clear`. -/
def extend (history : List LogRecord) : RingCall → List LogRecord
  | write record => history ++ [record]
  | clear => []

/-- What was written since the last `clear`, or since the construction. -/
def written (calls : List RingCall) : List LogRecord := calls.foldl extend []

end RingCall

namespace RingBufferSink

/-- The constructor. -/
def make (capacity : Nat) : RingBufferSink where
  capacity := if capacity = 0 then 1 else capacity
  records := List.replicate (if capacity = 0 then 1 else capacity) {}
  length_records := List.length_replicate
  next_lt := by
    split
    · exact Nat.one_pos
    · omega

def write (sink : RingBufferSink) (record : LogRecord) : RingBufferSink where
  capacity := sink.capacity
  records := sink.records.set sink.next record
  next := (sink.next + 1) % sink.capacity
  wrapped := if (sink.next + 1) % sink.capacity = 0 then true else sink.wrapped
  length_records := by rw [List.length_set, sink.length_records]
  next_lt := Nat.mod_lt _ (Nat.zero_lt_of_lt sink.next_lt)

def snapshot (sink : RingBufferSink) : List LogRecord :=
  if sink.wrapped then sink.records.drop sink.next ++ sink.records.take sink.next
  else sink.records.take sink.next

def clear (sink : RingBufferSink) : RingBufferSink where
  capacity := sink.capacity
  records := List.replicate sink.records.length {}
  length_records := by rw [List.length_replicate, sink.length_records]
  next_lt := Nat.zero_lt_of_lt sink.next_lt

def call (sink : RingBufferSink) : RingCall → RingBufferSink
  | .write record => sink.write record
  | .clear => sink.clear

/-- The sink after a list of calls. -/
def afterCalls (sink : RingBufferSink) (calls : List RingCall) : RingBufferSink :=
  calls.foldl call sink

/-- The sink holds the end of a history, and has come round once that fills it. -/
structure Holds (sink : RingBufferSink) (history : List LogRecord) : Prop where
  wrapped : sink.wrapped = decide (sink.capacity ≤ history.length)
  snapshot : sink.snapshot = lastOf sink.capacity history

variable {sink : RingBufferSink} {history : List LogRecord}

theorem capacity_pos (sink : RingBufferSink) : 0 < sink.capacity := Nat.zero_lt_of_lt sink.next_lt

theorem next_lt_length (sink : RingBufferSink) : sink.next < sink.records.length :=
  Nat.lt_of_lt_of_eq sink.next_lt sink.length_records.symm

theorem write_records (sink : RingBufferSink) (record : LogRecord) :
    (sink.write record).records = sink.records.set sink.next record := rfl

theorem write_next (sink : RingBufferSink) (record : LogRecord) :
    (sink.write record).next = (sink.next + 1) % sink.capacity := rfl

theorem snapshot_wrapped (h : sink.wrapped = true) :
    sink.snapshot = unrolled sink.records sink.next := by
  rw [RingBufferSink.snapshot, if_pos h, unrolled]

theorem snapshot_not_wrapped (h : sink.wrapped = false) :
    sink.snapshot = sink.records.take sink.next := by
  rw [RingBufferSink.snapshot, h]
  rfl

/-- Before the buffer has come round, `m_next` counts the history. -/
theorem Holds.next_eq (h : sink.Holds history) (hw : sink.wrapped = false) :
    sink.next = history.length := by
  have hlt : ¬ sink.capacity ≤ history.length := of_decide_eq_false (h.wrapped.symm.trans hw)
  have hlen := congrArg List.length h.snapshot
  rw [snapshot_not_wrapped hw, List.length_take, length_lastOf] at hlen
  have := sink.next_lt_length
  omega

theorem holds_nil (h : sink.next = 0) (hw : sink.wrapped = false) : sink.Holds [] where
  wrapped := hw.trans (decide_eq_false (Nat.not_le_of_lt sink.capacity_pos)).symm
  snapshot := by rw [snapshot_not_wrapped hw, h, List.take_zero, lastOf, List.drop_nil]

theorem Holds.write_wrapped (h : sink.Holds history) (record : LogRecord) :
    (sink.write record).wrapped = decide (sink.capacity ≤ (history ++ [record]).length) := by
  have hnext := sink.next_lt
  show (if (sink.next + 1) % sink.capacity = 0 then true else sink.wrapped) = _
  rw [List.length_append, List.length_singleton]
  cases hw : sink.wrapped with
  | true =>
    have hle : sink.capacity ≤ history.length := of_decide_eq_true (h.wrapped.symm.trans hw)
    rw [ite_self, decide_eq_true (Nat.le_succ_of_le hle)]
  | false =>
    rw [← h.next_eq hw]
    by_cases hlast : sink.next + 1 = sink.capacity
    · rw [← hlast, Nat.mod_self, if_pos rfl, decide_eq_true (Nat.le_refl _)]
    · rw [Nat.mod_eq_of_lt (by omega), if_neg (Nat.succ_ne_zero _), decide_eq_false (by omega)]

/-- A record that is written to a full buffer takes the place of the oldest. -/
theorem Holds.snapshot_write_wrapped (h : sink.Holds history) (record : LogRecord)
    (hw : sink.wrapped = true) :
    (sink.write record).snapshot = lastOf sink.capacity (history ++ [record]) := by
  have hle : sink.capacity ≤ history.length := of_decide_eq_true (h.wrapped.symm.trans hw)
  have hw' : (sink.write record).wrapped = true := by
    rw [h.write_wrapped, List.length_append]
    exact decide_eq_true (Nat.le_add_right_of_le hle)
  have hset : unrolled (sink.write record).records (sink.write record).next =
      (unrolled sink.records sink.next).tail ++ [record] := by
    rw [write_records, write_next, ← sink.length_records]
    exact unrolled_set sink.next_lt_length record
  rw [snapshot_wrapped hw', hset, ← snapshot_wrapped hw, h.snapshot,
    lastOf_concat sink.capacity_pos hle]

/-- Before that every record that was written is there. -/
theorem Holds.snapshot_write_not_wrapped (h : sink.Holds history) (record : LogRecord)
    (hw : sink.wrapped = false) :
    (sink.write record).snapshot = lastOf sink.capacity (history ++ [record]) := by
  have hnext := h.next_eq hw
  have hlt := sink.next_lt
  have hfits : (history ++ [record]).length ≤ sink.capacity := by
    rw [List.length_append, List.length_singleton]
    omega
  have hfill : (sink.write record).records.take (sink.next + 1) = history ++ [record] := by
    rw [write_records, take_set sink.next_lt_length, ← snapshot_not_wrapped hw, h.snapshot,
      lastOf_of_le (by omega)]
  rw [lastOf_of_le hfits, ← hfill]
  by_cases hlast : sink.next + 1 = sink.capacity
  · -- The last index was written: the buffer comes round, and is full.
    have hmod : (sink.next + 1) % sink.capacity = 0 := by rw [hlast, Nat.mod_self]
    have hw' : (sink.write record).wrapped = true := if_pos hmod
    have hlen : (sink.write record).records.length = sink.capacity :=
      (sink.write record).length_records
    rw [snapshot_wrapped hw', write_next, hmod, unrolled_zero, hlast, ← hlen, List.take_length]
  · have hmod : (sink.next + 1) % sink.capacity = sink.next + 1 := Nat.mod_eq_of_lt (by omega)
    have hw' : (sink.write record).wrapped = false := by
      show (if (sink.next + 1) % sink.capacity = 0 then true else sink.wrapped) = false
      rw [hmod, if_neg (Nat.succ_ne_zero _), hw]
    rw [snapshot_not_wrapped hw', write_next, hmod]

theorem Holds.write (h : sink.Holds history) (record : LogRecord) :
    (sink.write record).Holds (history ++ [record]) where
  wrapped := h.write_wrapped record
  snapshot := by
    cases hw : sink.wrapped with
    | true => exact h.snapshot_write_wrapped record hw
    | false => exact h.snapshot_write_not_wrapped record hw

theorem holds_afterCalls (h : sink.Holds history) (calls : List RingCall) :
    (sink.afterCalls calls).capacity = sink.capacity ∧
      (sink.afterCalls calls).Holds (calls.foldl RingCall.extend history) := by
  induction calls generalizing sink history with
  | nil => exact ⟨rfl, h⟩
  | cons c calls ih =>
    cases c with
    | write record => exact ih (h.write record)
    | clear => exact @ih sink.clear [] (holds_nil rfl rfl)

/-- After any calls `snapshot` gives the last records that were written since
the last `clear`, as many as fit, the oldest first. -/
theorem snapshot_afterCalls (capacity : Nat) (calls : List RingCall) :
    ((make capacity).afterCalls calls).snapshot =
      lastOf (max capacity 1) (RingCall.written calls) := by
  obtain ⟨hcapacity, h⟩ := @holds_afterCalls (make capacity) [] (holds_nil rfl rfl) calls
  have hmake : (make capacity).capacity = max capacity 1 := by
    show (if capacity = 0 then 1 else capacity) = max capacity 1
    split <;> omega
  rw [h.snapshot, hcapacity, hmake]
  rfl

end RingBufferSink

end NovaVpn.Logs
