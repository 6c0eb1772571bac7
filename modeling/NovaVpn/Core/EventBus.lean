import Mathlib.Data.List.Nodup
import Mathlib.Logic.Function.Basic
import NovaVpn.Framework.Callbacks
import NovaVpn.Framework.Machine

/-!
# The event bus

`Core/EventBus.h` with any number of threads, which subscribe, publish and
reset subscriptions, from inside handlers too. A section under the mutex is one
step; `publish` copies the handlers in its section and invokes the copies after
it. A subscription that is moved stays the same one, and one that is assigned
to or destroyed is reset.

A handler is invoked after `reset` has returned if a `publish` under way had
copied it (`handler_outlives_reset`). `unsubscribed` is the condition for the
contract: at the time of the reset no `publish` has the handler ahead, and none
runs it on another thread.
-/

namespace NovaVpn

open NovaVpn.Framework

/-- An entry with the number of the `subscribe` that made it, which stands for
the handler. -/
structure EventBus.Entry where
  id : UInt64
  handler : Nat

structure EventBus.Subscription (τ : Type) where
  type : τ
  id : UInt64

structure EventBus (τ : Type) where
  handlers : τ → List EventBus.Entry := fun _ => []
  nextId : UInt64 := 1
  /-- There are references to the bus. -/
  alive : Bool := true
  /-- The loops of `publish`. -/
  publishing : Batches EventBus.Entry := []
  /-- How many handlers were subscribed. -/
  count : Nat := 0
  /-- The subscriptions that were not reset, by the number of the handler. -/
  subscriptions : Nat → Option (EventBus.Subscription τ) := fun _ => none
  /-- The handlers whose subscriptions were reset, with the thread. -/
  resets : List (Nat × Nat) := []

namespace EventBus

variable {τ : Type}

inductive BusAct (τ : Type) where
  /-- `callable` is whether the handler is one. -/
  | subscribe (thread : Nat) (type : τ) (callable : Bool)
  | publish (thread : Nat) (type : τ)
  | reset (thread : Nat) (handler : Nat)
  /-- A step of a loop of `publish`. -/
  | loop (thread : Nat) (act : LoopAct)
  /-- The last reference to the bus is given up. -/
  | release

section

variable [DecidableEq τ]

/-- `subscribe` of a handler. -/
def subscribe (s : EventBus τ) (type : τ) : EventBus τ :=
  { s with
    handlers := Function.update s.handlers type
      (s.handlers type ++ [{ id := s.nextId, handler := s.count }])
    nextId := s.nextId + 1
    count := s.count + 1
    subscriptions := Function.update s.subscriptions s.count (some { type, id := s.nextId }) }

def unsubscribe (s : EventBus τ) (sub : Subscription τ) : EventBus τ :=
  { s with handlers :=
      Function.update s.handlers sub.type ((s.handlers sub.type).eraseP fun e => e.id = sub.id) }

/-- What is left of a subscription that is reset. -/
def reset (s : EventBus τ) (thread handler : Nat) (sub : Subscription τ) : EventBus τ :=
  if sub.id = 0 then { s with resets := (handler, thread) :: s.resets }
  else
    { (if s.alive then s.unsubscribe sub else s) with
      subscriptions := Function.update s.subscriptions handler none
      resets := (handler, thread) :: s.resets }

def step (s : EventBus τ) : BusAct τ → Option (EventBus τ)
  | .subscribe thread type callable =>
    if s.publishing.free thread && s.alive then
      some (if callable then s.subscribe type else s)
    else none
  | .publish thread type =>
    if s.publishing.free thread && s.alive then
      match s.handlers type with
      | [] => some s
      | snapshot => some { s with publishing := { thread, ahead := snapshot } :: s.publishing }
    else none
  | .reset thread handler =>
    if s.publishing.free thread then
      match s.subscriptions handler with
      | none => some s
      | some sub => some (s.reset thread handler sub)
    else none
  | .loop thread act =>
    (s.publishing.step thread act).map fun publishing => { s with publishing }
  | .release =>
    if s.alive then some { s with alive := false, handlers := fun _ => [] } else none

end

/-- A handler whose subscription was reset is not invoked any more, and runs on
no thread but the one that has reset it. -/
structure Unsubscribed (s : EventBus τ) : Prop where
  invoked : ∀ h t₀, (h, t₀) ∈ s.resets → ∀ t e, s.publishing.next t = some e → e.handler ≠ h
  running : ∀ h t₀, (h, t₀) ∈ s.resets → ∀ t e, s.publishing.Running t e → e.handler = h → t = t₀

/-- A subscription is reset while no `publish` has its handler ahead and none
runs it on another thread; and an id that is drawn is not 0, and no other
handler of the type has it. -/
def resetsInTime (s : EventBus τ) : BusAct τ → Bool
  | .reset thread handler =>
    (s.subscriptions handler).isNone ||
      s.publishing.all fun b =>
        b.ahead.all (fun e => e.handler ≠ handler) &&
          (b.thread = thread || b.running.all fun e => e.handler ≠ handler)
  | .subscribe _ type callable =>
    !callable || s.nextId ≠ 0 && (s.handlers type).all fun e => e.id ≠ s.nextId
  | _ => true

structure BusInv (s : EventBus τ) : Prop where
  released : s.alive = false → ∀ type, s.handlers type = []
  id : ∀ type, ∀ e ∈ s.handlers type, s.subscriptions e.handler = some { type, id := e.id }
  nodup : ∀ type, ((s.handlers type).map (·.id)).Nodup
  id_ne : ∀ h sub, s.subscriptions h = some sub → sub.id ≠ 0
  known : ∀ h sub, s.subscriptions h = some sub → h < s.count
  inactive : ∀ h t₀, (h, t₀) ∈ s.resets → h < s.count ∧ s.subscriptions h = none
  ahead : ∀ h t₀, (h, t₀) ∈ s.resets → ∀ e ∈ s.publishing.waiting, e.handler ≠ h
  running : ∀ h t₀, (h, t₀) ∈ s.resets → ∀ t e, s.publishing.Running t e → e.handler = h → t = t₀

namespace BusInv

variable {s s' : EventBus τ}

theorem toUnsubscribed (h : BusInv s) : Unsubscribed s :=
  ⟨fun handler t₀ hreset _ e hnext => h.ahead handler t₀ hreset e (Batches.mem_waiting_of_next hnext),
    h.running⟩

/-- `publish` copies handlers that were not reset. -/
theorem publish (h : BusInv s) (thread : Nat) (type : τ) :
    BusInv { s with publishing := { thread, ahead := s.handlers type } :: s.publishing } := by
  refine ⟨h.released, h.id, h.nodup, h.id_ne, h.known, h.inactive, fun handler t₀ hreset e he => ?_,
    fun handler t₀ hreset t e hrunning => ?_⟩
  · rw [Batches.waiting_cons, List.mem_append] at he
    rcases he with he | he
    · intro heq
      have hsub := h.id type e he
      rw [heq, (h.inactive handler t₀ hreset).2] at hsub
      cases hsub
    · exact h.ahead handler t₀ hreset e he
  · rcases Batches.running_cons.mp hrunning with ⟨-, hnow⟩ | hrunning
    · cases hnow
    · exact h.running handler t₀ hreset t e hrunning

theorem init : BusInv ({} : EventBus τ) :=
  ⟨fun h => (by cases h), fun _ e he => absurd he List.not_mem_nil, fun _ => List.nodup_nil,
    fun _ _ h => (by cases h), fun _ _ h => (by cases h), fun _ _ h => absurd h List.not_mem_nil,
    fun _ _ h => absurd h List.not_mem_nil, fun _ _ h => absurd h List.not_mem_nil⟩

/-- A subscription goes, and the entry of its handler with it. -/
theorem reset (h : BusInv s) {thread handler : Nat} {sub : Subscription τ}
    (hsub : s.subscriptions handler = some sub)
    (hahead : ∀ e ∈ s.publishing.waiting, e.handler ≠ handler)
    (hrunning : ∀ t e, s.publishing.Running t e → e.handler = handler → t = thread)
    {handlers : τ → List Entry} (hkept : ∀ type, (handlers type).Sublist (s.handlers type))
    (hgone : ∀ e ∈ handlers sub.type, e.id ≠ sub.id) :
    BusInv { s with
      handlers
      subscriptions := Function.update s.subscriptions handler none
      resets := (handler, thread) :: s.resets } := by
  have hold : ∀ h' sub', Function.update s.subscriptions handler none h' = some sub' →
      s.subscriptions h' = some sub' := fun _ _ hs => (update_none_cases hs).2
  refine ⟨fun hreleased type => ?_, fun type e he => ?_, fun type => ?_,
    fun h' sub' hs => h.id_ne h' sub' (hold h' sub' hs),
    fun h' sub' hs => h.known h' sub' (hold h' sub' hs), fun h' t₀ hreset => ?_,
    fun h' t₀ hreset => ?_, fun h' t₀ hreset => ?_⟩
  · exact List.sublist_nil.mp (h.released hreleased type ▸ hkept type)
  · have hentry := h.id type e ((hkept type).subset he)
    have hne : e.handler ≠ handler := by
      -- it would be the entry that is erased
      intro heq
      rw [heq, hsub] at hentry
      cases hentry
      exact hgone e he rfl
    show Function.update s.subscriptions handler none e.handler = _
    rw [Function.update_of_ne hne, hentry]
  · exact (h.nodup type).sublist ((hkept type).map _)
  · rcases List.mem_cons.mp hreset with heq | hreset
    · cases heq
      exact ⟨h.known handler sub hsub, Function.update_self ..⟩
    · obtain ⟨hlt, hnone⟩ := h.inactive h' t₀ hreset
      exact ⟨hlt, update_none_eq_none handler hnone⟩
  · rcases List.mem_cons.mp hreset with heq | hreset
    · cases heq
      exact hahead
    · exact h.ahead h' t₀ hreset
  · rcases List.mem_cons.mp hreset with heq | hreset
    · cases heq
      exact hrunning
    · exact h.running h' t₀ hreset

/-- Nothing is ahead and nothing runs elsewhere, as `resetsInTime` has it. -/
theorem quiet_of_resetsInTime {thread handler : Nat} {sub : Subscription τ}
    (hsub : s.subscriptions handler = some sub)
    (hok : s.resetsInTime (.reset thread handler) = true) :
    (∀ e ∈ s.publishing.waiting, e.handler ≠ handler) ∧
      ∀ t e, s.publishing.Running t e → e.handler = handler → t = thread := by
  simp only [resetsInTime, hsub, Option.isNone_some, Bool.false_or, List.all_eq_true,
    Bool.and_eq_true, Bool.or_eq_true, decide_eq_true_eq, Option.all_eq_true] at hok
  refine ⟨fun e he => ?_, fun t e hrunning heq => ?_⟩
  · obtain ⟨b, hb, he⟩ := List.mem_flatMap.mp he
    exact (hok b hb).1 e he
  · obtain ⟨b, hb, rfl, hnow⟩ := hrunning
    exact (hok b hb).2.resolve_right fun hne => hne e hnow heq

theorem loop (h : BusInv s) {thread : Nat} {act : LoopAct} {publishing : Batches Entry}
    (hs : s.publishing.step thread act = some publishing) : BusInv { s with publishing } := by
  refine ⟨h.released, h.id, h.nodup, h.id_ne, h.known, h.inactive, fun handler t₀ hreset e he => ?_,
    fun handler t₀ hreset t e hrun heq => ?_⟩
  · exact h.ahead handler t₀ hreset e (Batches.waiting_subset hs he)
  · rcases Batches.running_of_step hs hrun with hrun | he
    · exact h.running handler t₀ hreset t e hrun heq
    · exact absurd heq (h.ahead handler t₀ hreset e he)

end BusInv

variable [DecidableEq τ]

theorem mem_subscribe {s : EventBus τ} {type type' : τ} {e : Entry}
    (he : e ∈ (s.subscribe type).handlers type') :
    e ∈ s.handlers type' ∨ (type' = type ∧ e = { id := s.nextId, handler := s.count }) := by
  by_cases htype : type' = type
  · subst htype
    simp only [subscribe, Function.update_self, List.mem_append, List.mem_singleton] at he
    exact he.imp_right fun he => ⟨rfl, he⟩
  · simp only [subscribe, Function.update_of_ne htype] at he
    exact Or.inl he

theorem subscriptions_subscribe {s : EventBus τ} {type : τ} {handler : Nat} {sub : Subscription τ}
    (h : (s.subscribe type).subscriptions handler = some sub) :
    (handler = s.count ∧ sub = { type, id := s.nextId }) ∨ s.subscriptions handler = some sub :=
  (update_some_cases h).imp_right And.right

/-- The subscriptions before the last one stay. -/
theorem subscriptions_subscribe_of_lt (s : EventBus τ) (type : τ) {handler : Nat}
    (hlt : handler < s.count) : (s.subscribe type).subscriptions handler = s.subscriptions handler :=
  Function.update_of_ne (Nat.ne_of_lt hlt) ..

theorem unsubscribe_sublist (s : EventBus τ) (sub : Subscription τ) (type : τ) :
    ((s.unsubscribe sub).handlers type).Sublist (s.handlers type) := by
  by_cases htype : type = sub.type
  · subst htype
    simp only [unsubscribe, Function.update_self]
    exact List.eraseP_sublist
  · simp only [unsubscribe, Function.update_of_ne htype]
    exact List.Sublist.refl _

theorem mem_unsubscribe {s : EventBus τ} {sub : Subscription τ} {type : τ} {e : Entry}
    (hnodup : ((s.handlers sub.type).map (·.id)).Nodup)
    (he : e ∈ (s.unsubscribe sub).handlers type) :
    e ∈ s.handlers type ∧ (type = sub.type → e.id ≠ sub.id) := by
  by_cases htype : type = sub.type
  · subst htype
    simp only [unsubscribe, Function.update_self] at he
    exact ⟨List.mem_of_mem_eraseP he, fun _ => ne_of_mem_eraseP (f := Entry.id) hnodup he⟩
  · simp only [unsubscribe, Function.update_of_ne htype] at he
    exact ⟨he, fun heq => absurd heq htype⟩

namespace BusInv

variable {s s' : EventBus τ}

theorem subscribe (h : BusInv s) (type : τ) (halive : s.alive = true) (hid : s.nextId ≠ 0)
    (hfresh : ∀ e ∈ s.handlers type, e.id ≠ s.nextId) : BusInv (s.subscribe type) := by
  refine ⟨fun hreleased => ?_, fun type' e he => ?_, fun type' => ?_, fun handler sub hsub => ?_,
    fun handler sub hsub => ?_, fun handler t₀ hreset => ?_, h.ahead, h.running⟩
  · replace hreleased : s.alive = false := hreleased
    rw [halive] at hreleased
    cases hreleased
  · rcases mem_subscribe he with he | ⟨rfl, rfl⟩
    · rw [subscriptions_subscribe_of_lt s type (h.known _ _ (h.id type' e he)), h.id type' e he]
    · exact Function.update_self ..
  · by_cases htype : type' = type
    · subst htype
      simp only [EventBus.subscribe, Function.update_self, List.map_append, List.map_singleton]
      refine List.nodup_append.mpr ⟨h.nodup type', List.nodup_singleton _, fun a ha b hb => ?_⟩
      obtain ⟨e, he, rfl⟩ := List.mem_map.mp ha
      rw [List.mem_singleton.mp hb]
      exact hfresh e he
    · simp only [EventBus.subscribe, Function.update_of_ne htype]
      exact h.nodup type'
  · rcases subscriptions_subscribe hsub with ⟨-, rfl⟩ | hsub
    · exact hid
    · exact h.id_ne handler sub hsub
  · rcases subscriptions_subscribe hsub with ⟨rfl, -⟩ | hsub
    · exact Nat.lt_succ_self _
    · exact Nat.lt_succ_of_lt (h.known handler sub hsub)
  · obtain ⟨hlt, hnone⟩ := h.inactive handler t₀ hreset
    refine ⟨Nat.lt_succ_of_lt hlt, ?_⟩
    rw [subscriptions_subscribe_of_lt s type hlt, hnone]

theorem step (h : BusInv s) {act : BusAct τ} (hok : s.resetsInTime act = true)
    (hs : s.step act = some s') : BusInv s' := by
  cases act with
  | subscribe thread type callable =>
    simp only [EventBus.step] at hs
    split at hs
    next hready =>
      simp only [resetsInTime, Bool.or_eq_true, Bool.not_eq_true', Bool.and_eq_true,
        List.all_eq_true, decide_eq_true_eq] at hok
      cases hs
      split
      next hcallable =>
        obtain ⟨hid, hfresh⟩ := hok.resolve_left fun hnot => by simp [hcallable] at hnot
        exact h.subscribe type (Bool.and_eq_true_iff.mp hready).2 hid hfresh
      next => exact h
    next => cases hs
  | publish thread type =>
    simp only [EventBus.step] at hs
    split at hs
    next =>
      split at hs
      next =>
        cases hs
        exact h
      next snapshot _ hsnapshot =>
        cases hs
        exact h.publish thread type
    next => cases hs
  | reset thread handler =>
    simp only [EventBus.step] at hs
    split at hs
    next =>
      split at hs
      next =>
        cases hs
        exact h
      next sub hsub =>
        cases hs
        obtain ⟨hahead, hrunning⟩ := quiet_of_resetsInTime hsub hok
        rw [EventBus.reset, if_neg (h.id_ne handler sub hsub)]
        split
        next =>
          exact h.reset hsub hahead hrunning (unsubscribe_sublist s sub)
            fun e he => (mem_unsubscribe (h.nodup sub.type) he).2 rfl
        next halive =>
          have hnone := h.released (eq_false_of_ne_true halive)
          refine h.reset hsub hahead hrunning (fun type => List.Sublist.refl _) fun e he => ?_
          rw [hnone sub.type] at he
          cases he
    next => cases hs
  | loop thread act =>
    obtain ⟨publishing, hstep, rfl⟩ := Option.map_eq_some_iff.mp hs
    exact h.loop hstep
  | release =>
    simp only [EventBus.step] at hs
    split at hs
    next =>
      cases hs
      exact ⟨fun _ _ => rfl, fun _ e he => absurd he List.not_mem_nil, fun _ => List.nodup_nil,
        h.id_ne, h.known, h.inactive, h.ahead, h.running⟩
    next => cases hs

end BusInv

theorem unsubscribed {acts : List (BusAct τ)} {s : EventBus τ}
    (hok : RunMeets EventBus.step (fun s act => resetsInTime s act = true) {} acts)
    (hr : run EventBus.step {} acts = some s) : Unsubscribed s :=
  (run_invariant (I := BusInv) (fun _ _ _ h hok hs => h.step hok hs) .init hok hr).toUnsubscribed

/-- A subscription is reset before the event, and another one inside its own
handler. -/
def resetInside : List (BusAct Unit) :=
  [.subscribe 0 () true, .subscribe 0 () true, .reset 1 1, .publish 0 (), .loop 0 .invoke, .reset 0 0]

theorem unsubscribed_inside : ∃ s, run EventBus.step {} resetInside = some s ∧
    s.resets = [(0, 0), (1, 1)] ∧ Unsubscribed s := by
  have hok : RunMeets EventBus.step (fun s act => resetsInTime s act = true) {} resetInside := by
    decide +kernel
  have hrun : (run EventBus.step {} resetInside).map (·.resets) = some [(0, 0), (1, 1)] := by
    decide +kernel
  obtain ⟨s, hs, hresets⟩ := Option.map_eq_some_iff.mp hrun
  exact ⟨s, hs, hresets, unsubscribed hok hs⟩

/-- Two handlers, of which the first resets the subscription of the second. -/
def resetAhead : List (BusAct Unit) :=
  [.subscribe 0 () true, .subscribe 0 () true, .publish 0 (), .loop 0 .invoke, .reset 0 1,
    .loop 0 .finish]

/-- The second is invoked next. -/
theorem handler_outlives_reset : ¬ ∀ (acts : List (BusAct Unit)) s,
    run EventBus.step {} acts = some s → Unsubscribed s := by
  intro h
  have hrun : (run EventBus.step {} resetAhead).map
      (fun s => (s.resets, (s.publishing.next 0).map (·.handler))) = some ([(1, 0)], some 1) := by
    decide +kernel
  obtain ⟨s, hs, heq⟩ := Option.map_eq_some_iff.mp hrun
  obtain ⟨hresets, hnext⟩ := Prod.mk.inj heq
  obtain ⟨e, hnext, hhandler⟩ := Option.map_eq_some_iff.mp hnext
  refine (h _ s hs).invoked 1 0 ?_ 0 e hnext hhandler
  rw [hresets]
  exact List.mem_singleton.mpr rfl

end EventBus

end NovaVpn
