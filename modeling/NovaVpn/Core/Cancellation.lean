import Mathlib.Data.List.Nodup
import Mathlib.Logic.Function.Basic
import NovaVpn.Framework.Callbacks
import NovaVpn.Framework.Machine

/-!
# Cancellation

`Core/Cancellation.cpp`: one `CancellationSource` with its tokens, used by any
number of threads, and from inside callbacks too. A section under the mutex is
one step; `cancel` takes the list of callbacks in its section and runs it after
that, and `onCancelled` runs the callback itself if it comes too late. A
registration that is moved stays the same one, and one that is assigned to or
destroyed is reset.

`Registration::reset` finds nothing of a callback that `cancel` has taken, so
that the callback runs after it has returned (`callback_outlives_reset`).
`runs_once` is the condition for the contract: at the time of the reset no
thread has the callback ahead or runs it, and no exception of a callback ends
a `cancel` that has others ahead.
-/

namespace NovaVpn

open NovaVpn.Framework

/-- An entry with the number of the `onCancelled` that made it, which stands
for the callback. -/
structure CancellationSource.Callback where
  id : UInt64
  number : Nat

structure CancellationSource where
  cancelled : Bool := false
  nextId : UInt64 := 1
  callbacks : List CancellationSource.Callback := []
  /-- The source or a token is left. -/
  alive : Bool := true
  /-- The loops of `cancel`, and the calls of `onCancelled` that run the
  callback themselves. -/
  running : Batches CancellationSource.Callback := []
  /-- How many callbacks were passed to `onCancelled`. -/
  count : Nat := 0
  /-- The registrations that were not reset, by the number of the callback;
  there is none of a callback that `onCancelled` runs itself. -/
  registrations : Nat → Option UInt64 := fun _ => none
  resets : List Nat := []
  /-- How often a callback was invoked. -/
  runs : Nat → Nat := fun _ => 0

namespace CancellationSource

inductive CancelAct where
  /-- `callable` is whether the callback is one. -/
  | onCancelled (thread : Nat) (callable : Bool)
  | cancel (thread : Nat)
  | reset (thread : Nat) (number : Nat)
  /-- A step of a loop over callbacks. -/
  | loop (thread : Nat) (act : LoopAct)
  /-- The source and the last token are gone. -/
  | release

def register (s : CancellationSource) (thread : Nat) : CancellationSource :=
  if s.cancelled then
    { s with
      running := { thread, ahead := [{ id := 0, number := s.count }] } :: s.running
      count := s.count + 1 }
  else
    { s with
      nextId := s.nextId + 1
      callbacks := s.callbacks ++ [{ id := s.nextId, number := s.count }]
      count := s.count + 1
      registrations := Function.update s.registrations s.count (some s.nextId) }

/-- What is left of a registration that is reset. -/
def reset (s : CancellationSource) (number : Nat) (id : UInt64) : CancellationSource :=
  if id = 0 then { s with resets := number :: s.resets }
  else
    { s with
      callbacks := if s.alive then s.callbacks.eraseP fun e => e.id = id else s.callbacks
      registrations := Function.update s.registrations number none
      resets := number :: s.resets }

/-- The callback that a step invokes has run once more. -/
def ran (runs : Nat → Nat) : Option Callback → Nat → Nat
  | none => runs
  | some e => Function.update runs e.number (runs e.number + 1)

def step (s : CancellationSource) : CancelAct → Option CancellationSource
  | .onCancelled thread callable =>
    if s.running.free thread && s.alive then some (if callable then s.register thread else s)
    else none
  | .cancel thread =>
    if s.running.free thread && s.alive then
      if s.cancelled then some s
      else
        some { s with
          cancelled := true
          callbacks := []
          running := { thread, ahead := s.callbacks } :: s.running }
    else none
  | .reset thread number =>
    if s.running.free thread then
      match s.registrations number with
      | none => some s
      | some id => some (s.reset number id)
    else none
  | .loop thread act =>
    (s.running.step thread act).map fun running =>
      { s with running, runs := ran s.runs (s.running.invoked thread act) }
  | .release => if s.alive then some { s with alive := false, callbacks := [] } else none

/-- No callback runs twice, and none before cancellation; from then on one
whose registration was not reset has run, or is ahead of a thread that is at
it. One whose registration was reset neither runs nor will. -/
structure RunsOnce (s : CancellationSource) : Prop where
  once : ∀ n, s.runs n ≤ 1
  cancelled : ∀ n, s.runs n ≠ 0 → s.cancelled = true
  runs : s.cancelled = true → ∀ n, n < s.count → n ∉ s.resets →
    s.runs n = 1 ∨ (s.runs n = 0 ∧ ∃ e ∈ s.running.waiting, e.number = n)
  later : ∀ n ∈ s.resets, ∀ t e, s.running.next t = some e → e.number ≠ n
  running : ∀ n ∈ s.resets, ∀ t e, s.running.Running t e → e.number ≠ n

/-- A registration is reset while no thread has its callback ahead or runs it;
an id that is drawn is not 0, and no other callback has it; and an exception
leaves the last callback of a list. -/
def resetsInTime (s : CancellationSource) : CancelAct → Bool
  | .reset _ number =>
    (s.registrations number).isNone ||
      s.running.all fun b =>
        b.ahead.all (fun e => e.number ≠ number) && b.running.all fun e => e.number ≠ number
  | .onCancelled _ callable =>
    !callable || s.cancelled || s.nextId ≠ 0 && s.callbacks.all fun e => e.id ≠ s.nextId
  | .loop thread .throws => (s.running.left thread).isEmpty
  | _ => true

/-- Where a callback is listed, or ahead, and how often it has run. -/
def places (s : CancellationSource) (n : Nat) : Nat :=
  (s.callbacks.map (·.number)).count n + (s.running.waiting.map (·.number)).count n + s.runs n

/-- No callback is in two places, and none is lost but by `reset`. -/
structure Counted (s : CancellationSource) : Prop where
  le : ∀ n, s.places n ≤ 1
  unmade : ∀ n, s.count ≤ n → s.places n = 0
  kept : ∀ n, n < s.count → n ∉ s.resets → s.alive = true ∨ s.cancelled = true → s.places n = 1

structure CancelInv (s : CancellationSource) : Prop where
  released : s.alive = false → s.callbacks = []
  taken : s.cancelled = true → s.callbacks = []
  before : s.cancelled = false → s.running = [] ∧ ∀ n, s.runs n = 0
  id : ∀ e ∈ s.callbacks, s.registrations e.number = some e.id
  nodup : (s.callbacks.map (·.id)).Nodup
  id_ne : ∀ n id, s.registrations n = some id → id ≠ 0
  known : ∀ n id, s.registrations n = some id → n < s.count
  inactive : ∀ n ∈ s.resets, n < s.count ∧ s.registrations n = none
  ahead : ∀ n ∈ s.resets, ∀ e ∈ s.running.waiting, e.number ≠ n
  running : ∀ n ∈ s.resets, ∀ t e, s.running.Running t e → e.number ≠ n
  counted : s.Counted

theorem Counted.congr {s s' : CancellationSource} (h : Counted s)
    (hplaces : ∀ n, s'.places n = s.places n) (hcount : s'.count = s.count)
    (hresets : s'.resets = s.resets)
    (hlive : s'.alive = true ∨ s'.cancelled = true → s.alive = true ∨ s.cancelled = true) :
    Counted s' := by
  refine ⟨fun n => ?_, fun n hn => ?_, fun n hn hreset hlive' => ?_⟩
  · rw [hplaces]
    exact h.le n
  · rw [hplaces]
    exact h.unmade n (hcount ▸ hn)
  · rw [hplaces]
    exact h.kept n (hcount ▸ hn) (hresets ▸ hreset) (hlive hlive')

/-- A callback that is passed to `onCancelled` has one place. -/
theorem Counted.new {s s' : CancellationSource} (h : Counted s)
    (hplaces : ∀ n, s'.places n = s.places n + [s.count].count n) (hcount : s'.count = s.count + 1)
    (hresets : s'.resets = s.resets) (halive : s'.alive = s.alive)
    (hcancelled : s'.cancelled = s.cancelled) : Counted s' := by
  have hcase : ∀ n, (n = s.count ∧ s'.places n = 1) ∨ (n ≠ s.count ∧ s'.places n = s.places n) := by
    intro n
    by_cases hn : n = s.count
    · subst hn
      rw [hplaces, h.unmade s.count (Nat.le_refl _), List.count_singleton_self]
      exact Or.inl ⟨rfl, rfl⟩
    · rw [hplaces, List.count_eq_zero.mpr fun hmem => hn (List.mem_singleton.mp hmem)]
      exact Or.inr ⟨hn, rfl⟩
  refine ⟨fun n => ?_, fun n hn => ?_, fun n hn hreset hlive => ?_⟩
  · rcases hcase n with ⟨-, heq⟩ | ⟨-, heq⟩
    · omega
    · rw [heq]
      exact h.le n
  · rcases hcase n with ⟨heq, -⟩ | ⟨-, heq⟩
    · omega
    · rw [heq]
      exact h.unmade n (by omega)
  · rcases hcase n with ⟨-, heq⟩ | ⟨hne, heq⟩
    · exact heq
    · rw [hresets] at hreset
      rw [halive, hcancelled] at hlive
      rw [heq]
      exact h.kept n (by omega) hreset hlive

namespace CancelInv

variable {s s' : CancellationSource}

theorem runsOnce (h : CancelInv s) : RunsOnce s := by
  refine ⟨fun n => ?_, fun n hn => ?_, fun hcancelled n hn hreset => ?_,
    fun n hreset t e hnext => h.ahead n hreset e (Batches.mem_waiting_of_next hnext), h.running⟩
  · have hle := h.counted.le n
    unfold places at hle
    omega
  · by_contra hcancelled
    exact hn ((h.before (eq_false_of_ne_true hcancelled)).2 n)
  · have hone := h.counted.kept n hn hreset (Or.inr hcancelled)
    rw [places, h.taken hcancelled, List.map_nil, List.count_nil] at hone
    by_cases hwaiting : (s.running.waiting.map (·.number)).count n = 0
    · exact Or.inl (by omega)
    · obtain ⟨e, he, hnumber⟩ :=
        List.mem_map.mp (List.count_pos_iff.mp (Nat.pos_of_ne_zero hwaiting))
      exact Or.inr ⟨by omega, e, he, hnumber⟩

/-- Too late: the callback is run by `onCancelled`. -/
theorem runNow (h : CancelInv s) (hcancelled : s.cancelled = true) (thread : Nat) :
    CancelInv { s with
      running := { thread, ahead := [{ id := 0, number := s.count }] } :: s.running
      count := s.count + 1 } := by
  refine ⟨h.released, h.taken, fun hnot => ?_, h.id, h.nodup, h.id_ne,
    fun n id hn => Nat.lt_succ_of_lt (h.known n id hn),
    fun n hn => ⟨Nat.lt_succ_of_lt (h.inactive n hn).1, (h.inactive n hn).2⟩,
    fun n hn e he => ?_, fun n hn t e hrunning => ?_, h.counted.new (fun n => ?_) rfl rfl rfl rfl⟩
  · replace hnot : s.cancelled = false := hnot
    rw [hcancelled] at hnot
    cases hnot
  · rw [Batches.waiting_cons, List.mem_append, List.mem_singleton] at he
    rcases he with rfl | he
    · exact Nat.ne_of_gt (h.inactive n hn).1
    · exact h.ahead n hn e he
  · rcases Batches.running_cons.mp hrunning with ⟨-, hnow⟩ | hrunning
    · cases hnow
    · exact h.running n hn t e hrunning
  · simp only [places, Batches.waiting_cons, List.map_append, List.count_append, List.map_singleton]
    omega

/-- In time: the callback is listed. -/
theorem enlist (h : CancelInv s) (hcancelled : s.cancelled = false) (halive : s.alive = true)
    (hid : s.nextId ≠ 0) (hfresh : ∀ e ∈ s.callbacks, e.id ≠ s.nextId) :
    CancelInv { s with
      nextId := s.nextId + 1
      callbacks := s.callbacks ++ [{ id := s.nextId, number := s.count }]
      count := s.count + 1
      registrations := Function.update s.registrations s.count (some s.nextId) } := by
  refine ⟨fun hdead => ?_, fun hnot => ?_, h.before, fun e he => ?_, ?_, fun n id hn => ?_,
    fun n id hn => ?_, fun n hn => ?_, h.ahead, h.running,
    h.counted.new (fun n => ?_) rfl rfl rfl rfl⟩
  · replace hdead : s.alive = false := hdead
    rw [halive] at hdead
    cases hdead
  · replace hnot : s.cancelled = true := hnot
    rw [hcancelled] at hnot
    cases hnot
  · rcases List.mem_append.mp he with he | he
    · have hold := h.id e he
      show Function.update s.registrations s.count _ e.number = some e.id
      rw [Function.update_of_ne (Nat.ne_of_lt (h.known e.number _ hold)), hold]
    · rw [List.mem_singleton.mp he]
      exact Function.update_self ..
  · simp only [List.map_append, List.map_singleton]
    refine List.nodup_append.mpr ⟨h.nodup, List.nodup_singleton _, fun a ha b hb => ?_⟩
    obtain ⟨e, he, rfl⟩ := List.mem_map.mp ha
    rw [List.mem_singleton.mp hb]
    exact hfresh e he
  · rcases update_some_cases hn with ⟨-, rfl⟩ | ⟨-, hn⟩
    · exact hid
    · exact h.id_ne n id hn
  · rcases update_some_cases hn with ⟨rfl, -⟩ | ⟨-, hn⟩
    · exact Nat.lt_succ_self _
    · exact Nat.lt_succ_of_lt (h.known n id hn)
  · obtain ⟨hlt, hnone⟩ := h.inactive n hn
    refine ⟨Nat.lt_succ_of_lt hlt, ?_⟩
    show Function.update s.registrations s.count _ n = none
    rw [Function.update_of_ne (Nat.ne_of_lt hlt), hnone]
  · simp only [places, List.map_append, List.count_append, List.map_singleton]
    omega

/-- `cancel` takes the list. -/
theorem cancel (h : CancelInv s) (halive : s.alive = true) (thread : Nat) :
    CancelInv { s with
      cancelled := true
      callbacks := []
      running := { thread, ahead := s.callbacks } :: s.running } := by
  refine ⟨fun _ => rfl, fun _ => rfl, fun hnot => (by cases hnot),
    fun e he => absurd he List.not_mem_nil, List.nodup_nil, h.id_ne, h.known, h.inactive,
    fun n hn e he => ?_, fun n hn t e hrunning => ?_,
    h.counted.congr (fun n => ?_) rfl rfl fun _ => Or.inl halive⟩
  · rw [Batches.waiting_cons, List.mem_append] at he
    rcases he with he | he
    · rintro rfl
      have hid := h.id e he
      rw [(h.inactive _ hn).2] at hid
      cases hid
    · exact h.ahead n hn e he
  · rcases Batches.running_cons.mp hrunning with ⟨-, hnow⟩ | hrunning
    · cases hnow
    · exact h.running n hn t e hrunning
  · simp only [places, List.map_nil, List.count_nil, Batches.waiting_cons, List.map_append,
      List.count_append]
    omega

/-- A registration goes, and the entry of its callback with it. -/
theorem reset (h : CancelInv s) {number : Nat} {id : UInt64} {callbacks : List Callback}
    (hid : s.registrations number = some id)
    (hahead : ∀ e ∈ s.running.waiting, e.number ≠ number)
    (hrunning : ∀ t e, s.running.Running t e → e.number ≠ number)
    (hkept : callbacks.Sublist s.callbacks) (hgone : ∀ e ∈ callbacks, e.id ≠ id)
    (hothers : ∀ n, n ≠ number →
      (callbacks.map (·.number)).count n = (s.callbacks.map (·.number)).count n) :
    CancelInv { s with
      callbacks
      registrations := Function.update s.registrations number none
      resets := number :: s.resets } := by
  have hold : ∀ n i, Function.update s.registrations number none n = some i →
      s.registrations n = some i := fun _ _ hn => (update_none_cases hn).2
  have hle : ∀ n, ({ s with
      callbacks
      registrations := Function.update s.registrations number none
      resets := number :: s.resets } : CancellationSource).places n ≤ s.places n := by
    intro n
    have hcount := (hkept.map (·.number)).count_le n
    simp only [places]
    omega
  refine ⟨fun hdead => ?_, fun hcancelled => ?_, h.before, fun e he => ?_,
    h.nodup.sublist (hkept.map _), fun n i hn => h.id_ne n i (hold n i hn),
    fun n i hn => h.known n i (hold n i hn), fun n hn => ?_, fun n hn => ?_, fun n hn => ?_,
    fun n => Nat.le_trans (hle n) (h.counted.le n),
    fun n hn => Nat.eq_zero_of_le_zero (h.counted.unmade n hn ▸ hle n), fun n hn hreset hlive => ?_⟩
  · exact List.sublist_nil.mp (h.released hdead ▸ hkept)
  · exact List.sublist_nil.mp (h.taken hcancelled ▸ hkept)
  · have hentry := h.id e (hkept.subset he)
    have hne : e.number ≠ number := by
      -- it would be the entry that is erased
      intro heq
      rw [heq, hid, Option.some.injEq] at hentry
      exact hgone e he hentry.symm
    show Function.update s.registrations number none e.number = _
    rw [Function.update_of_ne hne, hentry]
  · rcases List.mem_cons.mp hn with rfl | hn
    · exact ⟨h.known n id hid, Function.update_self ..⟩
    · obtain ⟨hlt, hnone⟩ := h.inactive n hn
      exact ⟨hlt, update_none_eq_none number hnone⟩
  · rcases List.mem_cons.mp hn with rfl | hn
    · exact hahead
    · exact h.ahead n hn
  · rcases List.mem_cons.mp hn with rfl | hn
    · exact hrunning
    · exact h.running n hn
  · have hne : n ≠ number := fun heq => hreset (heq ▸ List.mem_cons_self)
    have hplaces := h.counted.kept n hn (fun hmem => hreset (List.mem_cons_of_mem _ hmem)) hlive
    simp only [places] at hplaces ⊢
    rw [hothers n hne, hplaces]

/-- Before cancellation every registration has its entry. -/
theorem listed (h : CancelInv s) (hcancelled : s.cancelled = false) (halive : s.alive = true)
    {number : Nat} {id : UInt64} (hid : s.registrations number = some id) :
    { id, number } ∈ s.callbacks := by
  have hreset : number ∉ s.resets := fun hmem => by
    rw [(h.inactive number hmem).2] at hid
    cases hid
  have hplaces := h.counted.kept number (h.known number id hid) hreset (Or.inl halive)
  obtain ⟨hidle, hruns⟩ := h.before hcancelled
  rw [places, hidle, hruns, Batches.waiting_nil, List.map_nil, List.count_nil] at hplaces
  have hpos : 0 < (s.callbacks.map (·.number)).count number := by omega
  obtain ⟨e, he, rfl⟩ := List.mem_map.mp (List.count_pos_iff.mp hpos)
  have hentry := h.id e he
  rw [hid, Option.some.injEq] at hentry
  rw [hentry]
  exact he

/-- An invoked callback is ahead no more and has run once more, and no step
loses one. -/
theorem places_loop {thread : Nat} {act : LoopAct} {running : Batches Callback}
    (hok : s.resetsInTime (.loop thread act) = true)
    (hs : s.running.step thread act = some running) (n : Nat) :
    ({ s with
      running
      runs := ran s.runs (s.running.invoked thread act) } : CancellationSource).places n =
        s.places n := by
  by_cases hact : act = .invoke
  · subst hact
    obtain ⟨e, hnext, hperm, -⟩ := Batches.step_invoke hs
    have hcount := (hperm.map (·.number)).count_eq n
    rw [List.map_cons, List.count_cons] at hcount
    simp only [places, Batches.invoked, hnext, ran, Function.update_apply, hcount, beq_iff_eq]
    by_cases hn : n = e.number
    · subst hn
      simp only [if_true]
      omega
    · rw [if_neg hn, if_neg fun heq => hn heq.symm]
      omega
  · obtain ⟨-, lost, hperm, hnone, hleft⟩ := Batches.step_rest hact hs
    have hlost : lost = [] := by
      by_cases hthrows : act = .throws
      · subst hthrows
        exact List.subset_nil.mp (List.isEmpty_iff.mp hok ▸ hleft)
      · exact hnone hthrows
    rw [hlost, List.nil_append] at hperm
    have hruns : ran s.runs (s.running.invoked thread act) = s.runs := by
      cases act with
      | invoke => exact absurd rfl hact
      | finish | leave | throws => rfl
    simp only [places, hruns, (hperm.map (·.number)).count_eq n]

theorem loop (h : CancelInv s) {thread : Nat} {act : LoopAct} {running : Batches Callback}
    (hok : s.resetsInTime (.loop thread act) = true)
    (hs : s.running.step thread act = some running) :
    CancelInv { s with running, runs := ran s.runs (s.running.invoked thread act) } := by
  have hafter : ∀ P : Prop, s.cancelled = false → P := by
    intro P hnot
    rw [(h.before hnot).1] at hs
    cases hs
  refine ⟨h.released, h.taken, hafter _, h.id, h.nodup, h.id_ne, h.known, h.inactive,
    fun n hn e he => ?_, fun n hn t e hrun => ?_,
    h.counted.congr (places_loop hok hs) rfl rfl fun hlive => hlive⟩
  · exact h.ahead n hn e (Batches.waiting_subset hs he)
  · rcases Batches.running_of_step hs hrun with hrun | he
    · exact h.running n hn t e hrun
    · exact h.ahead n hn e he

/-- Nothing is ahead and nothing runs, as `resetsInTime` has it. -/
theorem quiet_of_resetsInTime {thread number : Nat} {id : UInt64}
    (hid : s.registrations number = some id) (hok : s.resetsInTime (.reset thread number) = true) :
    (∀ e ∈ s.running.waiting, e.number ≠ number) ∧
      ∀ t e, s.running.Running t e → e.number ≠ number := by
  simp only [resetsInTime, hid, Option.isNone_some, Bool.false_or, List.all_eq_true,
    Bool.and_eq_true, decide_eq_true_eq, Option.all_eq_true] at hok
  refine ⟨fun e he => ?_, fun t e hrunning => ?_⟩
  · obtain ⟨b, hb, he⟩ := List.mem_flatMap.mp he
    exact (hok b hb).1 e he
  · obtain ⟨b, hb, -, hnow⟩ := hrunning
    exact (hok b hb).2 e hnow

/-- What `reset` erases is the entry of the callback. -/
theorem erase (h : CancelInv s) {number : Nat} {id : UInt64}
    (hid : s.registrations number = some id)
    (hahead : ∀ e ∈ s.running.waiting, e.number ≠ number)
    (hrunning : ∀ t e, s.running.Running t e → e.number ≠ number) : CancelInv (s.reset number id) := by
  have hgone : ∀ e ∈ s.callbacks.eraseP fun e => e.id = id, e.id ≠ id :=
    fun e he => ne_of_mem_eraseP (f := Callback.id) h.nodup he
  rw [CancellationSource.reset, if_neg (h.id_ne number id hid)]
  by_cases hlist : s.cancelled = false ∧ s.alive = true
  · have hmem := h.listed hlist.1 hlist.2 hid
    rw [if_pos hlist.2]
    refine h.reset hid hahead hrunning List.eraseP_sublist hgone fun n hn => ?_
    have hperm := perm_cons_eraseP (f := Callback.id) h.nodup hmem
    rw [(hperm.map (·.number)).count_eq n, List.map_cons,
      List.count_cons_of_ne fun heq => hn heq.symm]
  · have hempty : s.callbacks = [] := by
      rcases Classical.not_and_iff_not_or_not.mp hlist with hcancelled | halive
      · exact h.taken (eq_true_of_ne_false hcancelled)
      · exact h.released (eq_false_of_ne_true halive)
    have hsame : (if s.alive then s.callbacks.eraseP fun e => e.id = id else s.callbacks) = [] := by
      rw [hempty, List.eraseP_nil, ite_self]
    rw [hsame]
    refine h.reset hid hahead hrunning (List.nil_sublist _) (fun e he => absurd he List.not_mem_nil)
      fun n hn => ?_
    rw [hempty]

theorem release (h : CancelInv s) : CancelInv { s with alive := false, callbacks := [] } := by
  have hle : ∀ n, ({ s with alive := false, callbacks := [] } : CancellationSource).places n ≤
      s.places n := by
    intro n
    simp only [places, List.map_nil, List.count_nil]
    omega
  refine ⟨fun _ => rfl, fun _ => rfl, h.before, fun e he => absurd he List.not_mem_nil,
    List.nodup_nil, h.id_ne, h.known, h.inactive, h.ahead, h.running,
    fun n => Nat.le_trans (hle n) (h.counted.le n),
    fun n hn => Nat.eq_zero_of_le_zero (h.counted.unmade n hn ▸ hle n), fun n hn hreset hlive => ?_⟩
  have hcancelled : s.cancelled = true := hlive.resolve_left fun hdead => by cases hdead
  have hplaces := h.counted.kept n hn hreset (Or.inr hcancelled)
  rwa [places, h.taken hcancelled] at hplaces

theorem step (h : CancelInv s) {act : CancelAct} (hok : s.resetsInTime act = true)
    (hs : s.step act = some s') : CancelInv s' := by
  cases act with
  | onCancelled thread callable =>
    simp only [CancellationSource.step] at hs
    split at hs
    next hready =>
      simp only [resetsInTime, Bool.or_eq_true, Bool.not_eq_true', Bool.and_eq_true,
        List.all_eq_true, decide_eq_true_eq] at hok
      cases hs
      split
      next hcallable =>
        unfold register
        split
        next hcancelled => exact h.runNow hcancelled thread
        next hcancelled =>
          have hid : s.nextId ≠ 0 ∧ ∀ e ∈ s.callbacks, e.id ≠ s.nextId := by
            rcases hok with (hnot | hyes) | hid
            · rw [hcallable] at hnot
              cases hnot
            · exact absurd hyes hcancelled
            · exact hid
          exact h.enlist (eq_false_of_ne_true hcancelled) (Bool.and_eq_true_iff.mp hready).2 hid.1 hid.2
      next => exact h
    next => cases hs
  | cancel thread =>
    simp only [CancellationSource.step] at hs
    split at hs
    next hready =>
      split at hs
      next =>
        cases hs
        exact h
      next =>
        cases hs
        exact h.cancel (Bool.and_eq_true_iff.mp hready).2 thread
    next => cases hs
  | reset thread number =>
    simp only [CancellationSource.step] at hs
    split at hs
    next =>
      split at hs
      next =>
        cases hs
        exact h
      next id hid =>
        cases hs
        obtain ⟨hahead, hrunning⟩ := quiet_of_resetsInTime hid hok
        exact h.erase hid hahead hrunning
    next => cases hs
  | loop thread act =>
    obtain ⟨running, hstep, rfl⟩ := Option.map_eq_some_iff.mp hs
    exact h.loop hok hstep
  | release =>
    simp only [CancellationSource.step] at hs
    split at hs
    next =>
      cases hs
      exact h.release
    next => cases hs

theorem init : CancelInv {} :=
  ⟨fun h => (by cases h), fun h => (by cases h), fun _ => ⟨rfl, fun _ => rfl⟩,
    fun _ he => absurd he List.not_mem_nil, List.nodup_nil, fun _ _ h => (by cases h),
    fun _ _ h => (by cases h), fun _ h => absurd h List.not_mem_nil,
    fun _ h => absurd h List.not_mem_nil, fun _ h => absurd h List.not_mem_nil,
    fun _ => Nat.zero_le 1, fun _ _ => rfl, fun _ hn => absurd hn (Nat.not_lt_zero _)⟩

end CancelInv

theorem runs_once {acts : List CancelAct} {s : CancellationSource}
    (hok : RunMeets CancellationSource.step (fun s act => resetsInTime s act = true) {} acts)
    (hr : run CancellationSource.step {} acts = some s) : RunsOnce s :=
  (run_invariant (I := CancelInv) (fun _ _ _ h hok hs => h.step hok hs) .init hok hr).runsOnce

/-- One callback runs, one was reset before, and one comes too late. -/
def cancelOnce : List CancelAct :=
  [.onCancelled 0 true, .onCancelled 0 true, .reset 1 1, .cancel 2, .loop 2 .invoke,
    .onCancelled 0 true, .loop 0 .invoke, .loop 0 .finish, .loop 0 .leave, .loop 2 .finish,
    .loop 2 .leave]

theorem runs_once_cancelled : ∃ s, run CancellationSource.step {} cancelOnce = some s ∧
    [0, 1, 2].map s.runs = [1, 0, 1] ∧ RunsOnce s := by
  have hok : RunMeets CancellationSource.step (fun s act => resetsInTime s act = true) {}
      cancelOnce := by decide +kernel
  have hrun : (run CancellationSource.step {} cancelOnce).map (fun s => [0, 1, 2].map s.runs) =
      some [1, 0, 1] := by decide +kernel
  obtain ⟨s, hs, hruns⟩ := Option.map_eq_some_iff.mp hrun
  exact ⟨s, hs, hruns, runs_once hok hs⟩

/-- A registration is reset on one thread while another has taken the list. -/
def resetTaken : List CancelAct :=
  [.onCancelled 0 true, .cancel 1, .reset 0 0, .loop 1 .invoke]

/-- Its callback runs. -/
theorem callback_outlives_reset : ¬ ∀ acts s,
    run CancellationSource.step {} acts = some s → RunsOnce s := by
  intro h
  have hrun : (run CancellationSource.step {} resetTaken).map
      (fun s => (s.resets, s.running.map fun b => (b.thread, b.running.map (·.number)))) =
        some ([0], [(1, some 0)]) := by decide +kernel
  obtain ⟨s, hs, heq⟩ := Option.map_eq_some_iff.mp hrun
  obtain ⟨hresets, hrunning⟩ := Prod.mk.inj heq
  obtain ⟨b, hb, hnow⟩ := List.mem_map.mp (hrunning ▸ List.mem_singleton.mpr rfl)
  obtain ⟨hthread, hnumber⟩ := Prod.mk.inj hnow
  obtain ⟨e, he, hnumber⟩ := Option.map_eq_some_iff.mp hnumber
  refine (h _ s hs).running 0 ?_ 1 e ⟨b, hb, hthread, he⟩ hnumber
  rw [hresets]
  exact List.mem_singleton.mpr rfl

end CancellationSource

end NovaVpn
