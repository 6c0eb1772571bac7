import NovaVpn.Framework.Machine
import NovaVpn.Networking.NetworkMonitor

/-!
# Watching the network

`WindowsNetworkMonitor` of `Networking/NetworkMonitor.cpp` with its threads: the
system changes the adapters and the routes and reports both through callbacks
that set the kick event, a worker waits for that event, lets a burst of reports
pass and publishes what it then reads, and `start` and `stop` are called from
any thread. Both hold the lifecycle mutex throughout, so that one of them runs
at a time; every other step may come between any two of theirs. A handler of the
event does not call `stop`: the worker cannot join itself.

`m_running` and the two notification handles are functions of how far `start`
and `stop` have come (`LifePhase`). The wait of 400 ms ends when the stop event is
set or when its time is up, and a wait for an open event does not fail. Every
change of what `GetAdaptersAddresses` says, of the DNS servers too, is taken to be
reported by `NotifyIpInterfaceChange`, and every change of the route table by
`NotifyRouteChange2`.
-/

namespace NovaVpn.Net

open NovaVpn.Framework

/-- `NetworkChangedEvent`. -/
structure NetworkChangedEvent where
  defaultAdapter : Option NetworkAdapter := none
  hasInternetV4 : Bool := false
  hasInternetV6 : Bool := false
  deriving DecidableEq, Repr

/-- What `publishSnapshot` makes of the adapters. -/
def networkChanged (all : List NetworkAdapter) : NetworkChangedEvent :=
  let event : NetworkChangedEvent :=
    match pickUnderlay all .ipv4 with
    | .ok v4 => { hasInternetV4 := true, defaultAdapter := some v4 }
    | .error _ => {}
  match pickUnderlay all .ipv6 with
  | .ok v6 => { event with hasInternetV6 := true, defaultAdapter := event.defaultAdapter.or (some v6) }
  | .error _ => event

/-- What `NotifyIpInterfaceChange` and `NotifyRouteChange2` report. -/
inductive Notified where
  | interface | route
  deriving DecidableEq, Repr

/-- How far `start` or `stop` has come. -/
inductive LifePhase where
  | stopped
  /-- `start`, with new events. -/
  | created
  /-- `start`, with the notification of the interfaces. -/
  | watched
  /-- `start` without that of the routes, in `CancelMibChangeNotify2`. -/
  | undoing
  /-- `start`, with both. -/
  | notified
  | active
  /-- `stop`, in `CancelMibChangeNotify2`. -/
  | cancelling (kind : Notified)
  /-- `stop`, before `SetEvent`. -/
  | signalling
  /-- `stop`, in `join`. -/
  | joining
  deriving DecidableEq, Repr

namespace LifePhase

/-- The notification of that kind is registered. -/
def registered : LifePhase → Notified → Bool
  | watched, .interface | notified, _ | active, _ | cancelling .interface, .route => true
  | _, _ => false

/-- `m_running`. -/
def running : LifePhase → Bool
  | active | cancelling _ | signalling | joining => true
  | _ => false

/-- `CancelMibChangeNotify2` has returned for that kind, or it was not registered. -/
def silent : LifePhase → Notified → Bool
  | notified, _ | active, _ | cancelling .interface, _ | cancelling .route, .route => false
  | watched, .interface | undoing, .interface => false
  | _, _ => true

end LifePhase

/-- Where `workerLoop` is. -/
inductive WorkerPhase where
  | none
  /-- In `publishSnapshot`. -/
  | enumerating
  | adaptersRead (raws : List IpAdapterAddresses)
  | publishing (all : List NetworkAdapter)
  /-- In the wait for both events. -/
  | waiting
  /-- In the wait of 400 ms. -/
  | settling
  | checkingKick
  | checkingStop
  | ended

namespace WorkerPhase

/-- There is a worker, and it has not returned. -/
def alive : WorkerPhase → Bool
  | none | ended => false
  | _ => true

/-- How many steps it makes at most, once it has to stop. -/
def rank : WorkerPhase → Nat
  | none | ended => 0
  | waiting | checkingStop => 1
  | publishing _ | settling => 2
  | adaptersRead _ | checkingKick => 3
  | enumerating => 4

end WorkerPhase

structure Watcher where
  /-- What `GetAdaptersAddresses` has to say. -/
  adapters : List IpAdapterAddresses
  /-- What `GetIpForwardTable2` has to say. -/
  table : List ForwardRow
  /-- Callbacks that have not returned. -/
  inFlight : Notified → Nat := fun _ => 0
  life : LifePhase := .stopped
  kick : Bool := false
  stop : Bool := false
  worker : WorkerPhase := .none
  /-- The last enumeration failed. -/
  failed : Bool := false
  /-- The last event that was published. -/
  published : Option NetworkChangedEvent := none

/-- The steps of the worker, with what the calls of `enumerateAdapters` return. -/
inductive WorkerAct where
  | readAdapters (status : UInt32)
  | readRoutes (status : UInt32)
  | publish
  | wake
  | settle
  | checkKick
  | checkStop
  deriving DecidableEq, Repr

/-- The steps, with what the system decides of each. -/
inductive WatchAct where
  | interfaceChange (adapters : List IpAdapterAddresses)
  | routeChange (table : List ForwardRow)
  | callback (kind : Notified)
  | start (created : Bool)
  | notifyInterface (status : UInt32)
  | notifyRoute (status : UInt32)
  | undone
  | spawn
  | stop
  | cancelled
  | signal
  | joined
  | worker (act : WorkerAct)
  deriving DecidableEq, Repr

namespace WatchAct

def ofWorker : WatchAct → Bool
  | worker _ => true
  | _ => false

/-- The step is one of a callback or of the worker. -/
def inside : WatchAct → Bool
  | callback _ | worker _ => true
  | _ => false

end WatchAct

/-- What the two calls of `enumerateAdapters` answer: the status, or what there is. -/
def answered {α : Type} (status : UInt32) (value : α) : Except UInt32 α :=
  if status = Win.noError then .ok value else .error status

namespace Watcher

/-- The callbacks after a change: that of its kind will run, if it is registered. -/
def reported (s : Watcher) (kind : Notified) : Notified → Nat :=
  if s.life.registered kind then Function.update s.inFlight kind (s.inFlight kind + 1)
  else s.inFlight

/-- `enumerateAdapters` has returned to `publishSnapshot`. -/
def enumerated (s : Watcher) (all : Result (List NetworkAdapter)) : Watcher :=
  match all with
  | .error _ => { s with failed := true, worker := .waiting }
  | .ok all => { s with failed := false, worker := .publishing all }

/-- A step of the worker. -/
def workerStep (s : Watcher) : WorkerAct → Option Watcher
  | .readAdapters status =>
    match s.worker with
    | .enumerating =>
      match answered status s.adapters with
      | .error status => some (s.enumerated (enumerateAdapters (.error status) (.ok s.table)))
      | .ok raws => some { s with worker := .adaptersRead raws }
    | _ => none
  | .readRoutes status =>
    match s.worker with
    | .adaptersRead raws =>
      some (s.enumerated (enumerateAdapters (.ok raws) (answered status s.table)))
    | _ => none
  | .publish =>
    match s.worker with
    | .publishing all => some { s with published := some (networkChanged all), worker := .waiting }
    | _ => none
  | .wake =>
    match s.worker with
    | .waiting =>
      -- Of two events that are set the wait takes the first, the stop event.
      if s.stop then some { s with worker := .ended }
      else if s.kick then some { s with kick := false, worker := .settling }
      else none
    | _ => none
  | .settle =>
    match s.worker with
    | .settling => some { s with worker := if s.stop then .checkingStop else .checkingKick }
    | _ => none
  | .checkKick =>
    match s.worker with
    | .checkingKick =>
      some { s with kick := false, worker := if s.kick then .settling else .checkingStop }
    | _ => none
  | .checkStop =>
    match s.worker with
    | .checkingStop => some { s with worker := if s.stop then .ended else .enumerating }
    | _ => none

def step (s : Watcher) : WatchAct → Option Watcher
  | .interfaceChange adapters => some { s with adapters, inFlight := s.reported .interface }
  | .routeChange table => some { s with table, inFlight := s.reported .route }
  | .callback kind =>
    if 0 < s.inFlight kind then
      some { s with
        kick := true
        inFlight := Function.update s.inFlight kind (s.inFlight kind - 1) }
    else none
  | .start created =>
    match s.life with
    | .stopped =>
      some { s with kick := false, stop := false, life := if created then .created else .stopped }
    | .active => some s
    | _ => none
  | .notifyInterface status =>
    match s.life with
    | .created => some { s with life := if status = Win.noError then .watched else .stopped }
    | _ => none
  | .notifyRoute status =>
    match s.life with
    | .watched => some { s with life := if status = Win.noError then .notified else .undoing }
    | _ => none
  | .undone =>
    match s.life with
    | .undoing => if s.inFlight .interface = 0 then some { s with life := .stopped } else none
    | _ => none
  | .spawn =>
    match s.life with
    | .notified => some { s with life := .active, worker := .enumerating }
    | _ => none
  | .stop =>
    match s.life with
    | .stopped => some s
    | .active => some { s with life := .cancelling .interface }
    | _ => none
  | .cancelled =>
    match s.life with
    | .cancelling kind =>
      if s.inFlight kind = 0 then
        some { s with
          life := match kind with
            | .interface => .cancelling .route
            | .route => .signalling }
      else none
    | _ => none
  | .signal =>
    match s.life with
    | .signalling => some { s with stop := true, life := .joining }
    | _ => none
  | .joined =>
    match s.life with
    | .joining => if s.worker.alive then none else some { s with life := .stopped }
    | _ => none
  | .worker act => s.workerStep act

/-- Before the first `start`, on a network. -/
def initial (adapters : List IpAdapterAddresses) (table : List ForwardRow) : Watcher :=
  { adapters, table }

/-- The adapters as an enumeration reads them now. -/
def snapshot (s : Watcher) : List NetworkAdapter :=
  s.adapters.map (networkAdapter (.of s.table))

/-- A report has not reached the worker. -/
def Pending (s : Watcher) : Prop := s.kick = true ∨ ∃ kind, 0 < s.inFlight kind

/-- What the worker has read or published is what there is. -/
def Current (s : Watcher) : Prop :=
  match s.worker with
  | .adaptersRead raws => raws = s.adapters
  | .publishing all => all = s.snapshot
  | .waiting => s.failed = true ∨ s.published = some (networkChanged s.snapshot)
  | _ => True

variable {s s' : Watcher}

/-- The steps of the worker. -/
inductive Moves (s : Watcher) : Watcher → Prop where
  | read (h : s.worker = .enumerating) : Moves s { s with worker := .adaptersRead s.adapters }
  | unread (h : s.worker = .enumerating) : Moves s { s with failed := true, worker := .waiting }
  | listed {raws : List IpAdapterAddresses} (h : s.worker = .adaptersRead raws) :
      Moves s { s with
        failed := false
        worker := .publishing (raws.map (networkAdapter (.of s.table))) }
  | unlisted {raws : List IpAdapterAddresses} (h : s.worker = .adaptersRead raws) :
      Moves s { s with failed := true, worker := .waiting }
  | published {all : List NetworkAdapter} (h : s.worker = .publishing all) :
      Moves s { s with published := some (networkChanged all), worker := .waiting }
  | woken (h : s.worker = .waiting) (hkick : s.kick = true) (hstop : s.stop = false) :
      Moves s { s with kick := false, worker := .settling }
  | interrupted (h : s.worker = .settling) (hstop : s.stop = true) :
      Moves s { s with worker := .checkingStop }
  | settled (h : s.worker = .settling) (hstop : s.stop = false) :
      Moves s { s with worker := .checkingKick }
  | again (h : s.worker = .checkingKick) : Moves s { s with kick := false, worker := .settling }
  | calm (h : s.worker = .checkingKick) : Moves s { s with kick := false, worker := .checkingStop }
  | goesOn (h : s.worker = .checkingStop) (hstop : s.stop = false) :
      Moves s { s with worker := .enumerating }
  | ends (h : s.worker = .waiting ∨ s.worker = .checkingStop) (hstop : s.stop = true) :
      Moves s { s with worker := .ended }

theorem moves_of_workerStep {act : WorkerAct} (h : s.workerStep act = some s') : s.Moves s' := by
  cases act with
  | readAdapters status =>
    cases hw : s.worker with
    | enumerating =>
      simp only [workerStep, hw, answered] at h
      split at h
      next hread =>
        split at hread
        · cases hread
        · cases h
          exact .unread hw
      next hread =>
        split at hread
        · cases hread
          cases h
          exact .read hw
        · cases hread
    | _ => simp [workerStep, hw] at h
  | readRoutes status =>
    cases hw : s.worker with
    | adaptersRead raws =>
      simp only [workerStep, hw, answered, Option.some.injEq] at h
      subst h
      split
      · exact .listed hw
      · exact .unlisted hw
    | _ => simp [workerStep, hw] at h
  | publish =>
    cases hw : s.worker with
    | publishing all =>
      simp only [workerStep, hw, Option.some.injEq] at h
      subst h
      exact .published hw
    | _ => simp [workerStep, hw] at h
  | wake =>
    cases hw : s.worker with
    | waiting =>
      simp only [workerStep, hw] at h
      split at h
      next hstop =>
        cases h
        exact .ends (.inl hw) hstop
      next hstop =>
        split at h
        next hkick =>
          cases h
          exact .woken hw hkick (eq_false_of_ne_true hstop)
        · cases h
    | _ => simp [workerStep, hw] at h
  | settle =>
    cases hw : s.worker with
    | settling =>
      simp only [workerStep, hw, Option.some.injEq] at h
      subst h
      split
      next hstop => exact .interrupted hw hstop
      next hstop => exact .settled hw (eq_false_of_ne_true hstop)
    | _ => simp [workerStep, hw] at h
  | checkKick =>
    cases hw : s.worker with
    | checkingKick =>
      simp only [workerStep, hw, Option.some.injEq] at h
      subst h
      split
      · exact .again hw
      · exact .calm hw
    | _ => simp [workerStep, hw] at h
  | checkStop =>
    cases hw : s.worker with
    | checkingStop =>
      simp only [workerStep, hw, Option.some.injEq] at h
      subst h
      split
      next hstop => exact .ends (.inr hw) hstop
      next hstop => exact .goesOn hw (eq_false_of_ne_true hstop)
    | _ => simp [workerStep, hw] at h

/-- What a step of the worker leaves alone. -/
structure SameOutside (s s' : Watcher) : Prop where
  snapshot : s'.snapshot = s.snapshot
  inFlight : s'.inFlight = s.inFlight
  life : s'.life = s.life
  stop : s'.stop = s.stop

theorem Moves.outside (h : s.Moves s') : SameOutside s s' := by
  cases h <;> exact ⟨rfl, rfl, rfl, rfl⟩

theorem Moves.alive (h : s.Moves s') : s.worker.alive = true := by
  cases h with
  | ends h => rcases h with h | h <;> rw [h] <;> rfl
  | _ h => rw [h]; rfl

/-- Once the stop event is set, every step of the worker brings it closer to its end. -/
theorem Moves.rank_lt (h : s.Moves s') (hstop : s.stop = true) : s'.worker.rank < s.worker.rank := by
  cases h with
  | ends h => rcases h with h | h <;> rw [h] <;> exact Nat.zero_lt_one
  | woken _ _ hnot => rw [hstop] at hnot; cases hnot
  | settled _ hnot => rw [hstop] at hnot; cases hnot
  | goesOn _ hnot => rw [hstop] at hnot; cases hnot
  | _ h =>
    rw [h]
    simp [WorkerPhase.rank]

/-- A worker only ends when it has to stop. -/
theorem Moves.ended (h : s.Moves s') (hdead : s'.worker.alive = false) : s.stop = true := by
  cases h with
  | ends _ hstop => exact hstop
  | _ => cases hdead

/-- What the worker has read stays what there is, or a report is on its way. -/
theorem Moves.current (h : s.Moves s') (hpre : s.Pending ∨ s.Current) (hstop : s.stop = false) :
    s'.Pending ∨ s'.Current := by
  cases h with
  | read => exact .inr rfl
  | unread | unlisted => exact .inr (.inl rfl)
  | listed h =>
    refine hpre.imp_right fun hcurrent => ?_
    rw [Current, h] at hcurrent
    show _ = s.snapshot
    rw [snapshot, hcurrent]
  | published h =>
    refine hpre.imp_right fun hcurrent => ?_
    rw [Current, h] at hcurrent
    exact .inr (congrArg (some ∘ networkChanged) hcurrent)
  | woken | interrupted | settled | again | calm | goesOn => exact .inr trivial
  | ends _ hend => rw [hstop] at hend; cases hend

/-! ## The invariant -/

structure WatchInv (s : Watcher) : Prop where
  silent : ∀ kind, s.life.silent kind = true → s.inFlight kind = 0
  dead : s.life.running = false → s.worker.alive = false
  alive : s.life.running = true → s.worker.alive = false → s.stop = true
  stop_set : s.stop = true → s.life = .joining ∨ s.life = .stopped
  joining : s.life = .joining → s.stop = true
  current : s.life = .active → s.Pending ∨ s.Current

theorem watchInv_initial (adapters : List IpAdapterAddresses) (table : List ForwardRow) :
    WatchInv (initial adapters table) where
  silent _ _ := rfl
  dead _ := rfl
  alive h := by cases h
  stop_set h := by cases h
  joining h := by cases h
  current h := by cases h

theorem WatchInv.moves (h : WatchInv s) (hm : s.Moves s') : WatchInv s' := by
  have ho := hm.outside
  refine ⟨?_, ?_, ?_, ?_, ?_, ?_⟩
  · rw [ho.life, ho.inFlight]
    exact h.silent
  · intro hrunning
    rw [ho.life] at hrunning
    have hdead := h.dead hrunning
    rw [hm.alive] at hdead
    cases hdead
  · intro _ hdead
    rw [ho.stop]
    exact hm.ended hdead
  · rw [ho.life, ho.stop]
    exact h.stop_set
  · rw [ho.life, ho.stop]
    exact h.joining
  · intro hactive
    rw [ho.life] at hactive
    refine hm.current (h.current hactive) (eq_false_of_ne_true fun hstop => ?_)
    rcases h.stop_set hstop with heq | heq <;> rw [hactive] at heq <;> cases heq

theorem silent_of_registered {life : LifePhase} {kind : Notified} (h : life.registered kind = true) :
    life.silent kind = false := by
  cases life with
  | cancelling other => cases other <;> cases kind <;> first | rfl | cases h
  | _ => cases kind <;> first | rfl | cases h

theorem reported_silent (h : WatchInv s) (kind other : Notified) (hother : s.life.silent other = true) :
    s.reported kind other = 0 := by
  unfold reported
  split
  next hregistered =>
    have hne : other ≠ kind := by
      rintro rfl
      rw [silent_of_registered hregistered] at hother
      cases hother
    rw [Function.update_of_ne hne]
    exact h.silent other hother
  next => exact h.silent other hother

/-- While the monitor is active a change is reported, and its callback is on its way. -/
theorem reported_pos (h : s.life = .active) (kind : Notified) : 0 < s.reported kind kind := by
  have hregistered : s.life.registered kind = true := by
    rw [h]
    rfl
  rw [reported, if_pos hregistered, Function.update_self]
  exact Nat.succ_pos _

theorem WatchInv.changed (h : WatchInv s) (kind : Notified) (adapters : List IpAdapterAddresses)
    (table : List ForwardRow) :
    WatchInv { s with adapters, table, inFlight := s.reported kind } where
  silent := reported_silent h kind
  dead := h.dead
  alive := h.alive
  stop_set := h.stop_set
  joining := h.joining
  current hactive := .inl (.inr ⟨kind, reported_pos (s := s) hactive kind⟩)

theorem WatchInv.callback (h : WatchInv s) (kind : Notified) :
    WatchInv { s with
      kick := true
      inFlight := Function.update s.inFlight kind (s.inFlight kind - 1) } where
  silent other hother := by
    have hzero := h.silent other hother
    show Function.update s.inFlight kind (s.inFlight kind - 1) other = 0
    by_cases hne : other = kind
    · subst hne
      rw [Function.update_self, hzero]
    · rw [Function.update_of_ne hne, hzero]
  dead := h.dead
  alive := h.alive
  stop_set := h.stop_set
  joining := h.joining
  current _ := .inl (.inl rfl)

/-- `start` or `stop` goes on. -/
theorem WatchInv.goesOn (h : WatchInv s) {life : LifePhase} {worker : WorkerPhase} {kick stop : Bool}
    (hsilent : ∀ kind, life.silent kind = true → s.life.silent kind = true ∨ s.inFlight kind = 0)
    (hdead : life.running = false → worker.alive = false)
    (halive : life.running = true → worker.alive = false → stop = true)
    (hstop : stop = true → life = .joining ∨ life = .stopped) (hjoining : life = .joining → stop = true)
    (hactive : life = .active → worker = .enumerating) :
    WatchInv { s with life, worker, kick, stop } where
  silent kind hkind := (hsilent kind hkind).elim (h.silent kind) id
  dead := hdead
  alive := halive
  stop_set := hstop
  joining := hjoining
  current heq := by
    refine .inr ?_
    show Current { s with life, worker, kick, stop }
    rw [hactive heq]
    trivial

/-- Before the stop event is set, it is not. -/
theorem WatchInv.not_stop (h : WatchInv s) (hjoining : s.life ≠ .joining)
    (hstopped : s.life ≠ .stopped) : s.stop = false :=
  eq_false_of_ne_true fun hstop => (h.stop_set hstop).elim hjoining hstopped

namespace WatchInv

attribute [local simp] Watcher.step

/-- `start`, before and after its events. -/
theorem start (h : WatchInv s) {created : Bool} (hs : s.step (.start created) = some s') :
    WatchInv s' := by
  cases hl : s.life with
  | stopped =>
    have hdead := h.dead (by rw [hl]; rfl)
    simp only [Watcher.step, hl, Option.some.injEq] at hs
    subst hs
    split <;> exact h.goesOn (fun _ _ => .inl (by rw [hl]; rfl)) (fun _ => hdead) nofun nofun nofun nofun
  | active =>
    simp only [Watcher.step, hl, Option.some.injEq] at hs
    exact hs ▸ h
  | _ => simp [Watcher.step, hl] at hs

theorem notifyInterface (h : WatchInv s) {status : UInt32}
    (hs : s.step (.notifyInterface status) = some s') : WatchInv s' := by
  cases hl : s.life with
  | created =>
    have hdead := h.dead (by rw [hl]; rfl)
    have hstop := h.not_stop (by rw [hl]; decide) (by rw [hl]; decide)
    simp only [Watcher.step, hl, Option.some.injEq] at hs
    subst hs
    split <;> exact h.goesOn (fun _ _ => .inl (by rw [hl]; rfl)) (fun _ => hdead) nofun
      (by rw [hstop]; nofun) nofun nofun
  | _ => simp [Watcher.step, hl] at hs

theorem notifyRoute (h : WatchInv s) {status : UInt32}
    (hs : s.step (.notifyRoute status) = some s') : WatchInv s' := by
  cases hl : s.life with
  | watched =>
    have hdead := h.dead (by rw [hl]; rfl)
    have hstop := h.not_stop (by rw [hl]; decide) (by rw [hl]; decide)
    simp only [Watcher.step, hl, Option.some.injEq] at hs
    subst hs
    split
    · exact h.goesOn nofun (fun _ => hdead) nofun (by rw [hstop]; nofun) nofun nofun
    · refine h.goesOn (fun kind hkind => .inl ?_) (fun _ => hdead) nofun (by rw [hstop]; nofun)
        nofun nofun
      rw [hl]
      cases kind
      · cases hkind
      · rfl
  | _ => simp [Watcher.step, hl] at hs

/-- The notification of the interfaces is cancelled once its callbacks have returned. -/
theorem undone (h : WatchInv s) (hs : s.step .undone = some s') : WatchInv s' := by
  cases hl : s.life with
  | undoing =>
    have hdead := h.dead (by rw [hl]; rfl)
    have hstop := h.not_stop (by rw [hl]; decide) (by rw [hl]; decide)
    simp only [Watcher.step, hl] at hs
    split at hs
    next hflight =>
      cases hs
      refine h.goesOn (fun kind _ => ?_) (fun _ => hdead) nofun (by rw [hstop]; nofun) nofun nofun
      cases kind
      · exact .inr hflight
      · exact .inl (by rw [hl]; rfl)
    next => cases hs
  | _ => simp [Watcher.step, hl] at hs

theorem spawn (h : WatchInv s) (hs : s.step .spawn = some s') : WatchInv s' := by
  cases hl : s.life with
  | notified =>
    have hstop := h.not_stop (by rw [hl]; decide) (by rw [hl]; decide)
    simp only [Watcher.step, hl, Option.some.injEq] at hs
    subst hs
    exact h.goesOn nofun nofun nofun (by rw [hstop]; nofun) nofun fun _ => rfl
  | _ => simp [Watcher.step, hl] at hs

theorem stop (h : WatchInv s) (hs : s.step .stop = some s') : WatchInv s' := by
  cases hl : s.life with
  | stopped =>
    simp only [Watcher.step, hl, Option.some.injEq] at hs
    exact hs ▸ h
  | active =>
    have hstop := h.not_stop (by rw [hl]; decide) (by rw [hl]; decide)
    simp only [Watcher.step, hl, Option.some.injEq] at hs
    subst hs
    exact h.goesOn nofun nofun (fun _ => h.alive (by rw [hl]; rfl)) (by rw [hstop]; nofun) nofun nofun
  | _ => simp [Watcher.step, hl] at hs

/-- The two notifications are cancelled one after the other, each once its callbacks have
returned. -/
theorem cancelled (h : WatchInv s) (hs : s.step .cancelled = some s') : WatchInv s' := by
  cases hl : s.life with
  | cancelling kind =>
    have hstop := h.not_stop (by rw [hl]; nofun) (by rw [hl]; nofun)
    have halive := h.alive (by rw [hl]; rfl)
    simp only [Watcher.step, hl] at hs
    split at hs
    next hflight =>
      cases hs
      cases kind with
      | interface =>
        refine h.goesOn (fun other hother => ?_) nofun (fun _ => halive) (by rw [hstop]; nofun) nofun nofun
        cases other
        · exact .inr hflight
        · cases hother
      | route =>
        refine h.goesOn (fun other _ => ?_) nofun (fun _ => halive) (by rw [hstop]; nofun) nofun nofun
        cases other
        · exact .inl (by rw [hl]; rfl)
        · exact .inr hflight
    next => cases hs
  | _ => simp [Watcher.step, hl] at hs

theorem signal (h : WatchInv s) (hs : s.step .signal = some s') : WatchInv s' := by
  cases hl : s.life with
  | signalling =>
    simp only [Watcher.step, hl, Option.some.injEq] at hs
    subst hs
    exact h.goesOn (fun _ _ => .inl (by rw [hl]; rfl)) nofun (fun _ _ => rfl) (fun _ => .inl rfl)
      (fun _ => rfl) nofun
  | _ => simp [Watcher.step, hl] at hs

theorem joined (h : WatchInv s) (hs : s.step .joined = some s') : WatchInv s' := by
  cases hl : s.life with
  | joining =>
    simp only [Watcher.step, hl] at hs
    split at hs
    next => cases hs
    next hdead =>
      cases hs
      exact h.goesOn (fun _ _ => .inl (by rw [hl]; rfl)) (fun _ => eq_false_of_ne_true hdead) nofun
        (fun _ => .inr rfl) nofun nofun
  | _ => simp [Watcher.step, hl] at hs

theorem step {act : WatchAct} (h : WatchInv s) (hs : s.step act = some s') : WatchInv s' := by
  cases act with
  | interfaceChange adapters =>
    cases hs
    exact h.changed .interface adapters s.table
  | routeChange table =>
    cases hs
    exact h.changed .route s.adapters table
  | callback kind =>
    simp only [Watcher.step] at hs
    split at hs
    · cases hs
      exact h.callback kind
    · cases hs
  | worker act => exact h.moves (moves_of_workerStep hs)
  | start created => exact h.start hs
  | notifyInterface status => exact h.notifyInterface hs
  | notifyRoute status => exact h.notifyRoute hs
  | undone => exact h.undone hs
  | spawn => exact h.spawn hs
  | stop => exact h.stop hs
  | cancelled => exact h.cancelled hs
  | signal => exact h.signal hs
  | joined => exact h.joined hs

end WatchInv

theorem watchInv_of_run {adapters : List IpAdapterAddresses} {table : List ForwardRow}
    {acts : List WatchAct} (hr : run step (initial adapters table) acts = some s) : WatchInv s :=
  run_invariant' (fun _ _ _ h => h.step) (watchInv_initial adapters table) hr

/-! ## No change is lost -/

/-- While the monitor is active, what it published last is the network as it is,
unless a report has not reached the worker, the worker is at work or the last
enumeration failed. -/
theorem change_published {adapters : List IpAdapterAddresses} {table : List ForwardRow}
    {acts : List WatchAct} (hr : run step (initial adapters table) acts = some s)
    (hactive : s.life = .active) (hquiet : ¬ s.Pending) (hwaiting : s.worker = .waiting)
    (hread : s.failed = false) : s.published = some (networkChanged s.snapshot) := by
  have hcurrent := ((watchInv_of_run hr).current hactive).resolve_left hquiet
  rw [Current, hwaiting] at hcurrent
  rcases hcurrent with hfailed | hpublished
  · rw [hread] at hfailed
    cases hfailed
  · exact hpublished

/-- The route to the internet comes back while the worker reads the adapters. -/
def racingActs : List WatchAct :=
  [.start true, .notifyInterface 0, .notifyRoute 0, .spawn, .worker (.readAdapters 0),
    .routeChange [{ luid := 7, family := .ipv4, prefixLength := 0, metric := 25 }],
    .worker (.readRoutes 0), .callback .route, .worker .publish, .worker .wake, .worker .settle,
    .worker .checkKick, .worker .checkStop, .worker (.readAdapters 0), .worker (.readRoutes 0),
    .worker .publish]

theorem change_published_racing :
    ∃ s, run step (initial [{ luid := 7, ifType := 6, operStatus := 1 }] []) racingActs = some s ∧
      s.published = some (networkChanged s.snapshot) :=
  ⟨_, rfl, @change_published _ _ _ racingActs rfl rfl
    (by rintro (h | ⟨kind, h⟩) <;> [cases h; (cases kind <;> cases h)]) rfl rfl⟩

/-! ## What `stop` leaves -/

theorem WatchInv.stopped (h : WatchInv s) (hstopped : s.life = .stopped) :
    (∀ kind, s.inFlight kind = 0) ∧ s.worker.alive = false := by
  refine ⟨fun kind => h.silent kind ?_, h.dead ?_⟩ <;> rw [hstopped] <;> rfl

/-- Until the next `start` that creates its events only the network changes. -/
theorem WatchInv.stopped_step (h : WatchInv s) (hstopped : s.life = .stopped) {act : WatchAct}
    (hstart : act ≠ .start true) (hs : s.step act = some s') :
    s'.life = .stopped ∧ s'.published = s.published ∧ act.inside = false := by
  obtain ⟨hflight, hdead⟩ := h.stopped hstopped
  cases act with
  | interfaceChange | routeChange =>
    cases hs
    exact ⟨hstopped, rfl, rfl⟩
  | callback kind => simp [Watcher.step, hflight kind] at hs
  | worker act =>
    have halive := (moves_of_workerStep hs).alive
    rw [hdead] at halive
    cases halive
  | start created =>
    cases created with
    | true => exact absurd rfl hstart
    | false =>
      simp only [Watcher.step, hstopped, Option.some.injEq] at hs
      subst hs
      exact ⟨rfl, rfl, rfl⟩
  | stop =>
    simp only [Watcher.step, hstopped, Option.some.injEq] at hs
    subst hs
    exact ⟨hstopped, rfl, rfl⟩
  | _ => simp [Watcher.step, hstopped] at hs

/-- After `stop` has returned, and until the next `start` that creates its events (it may
fail after that), no callback and no worker runs and nothing is published. -/
theorem silent_after_stop {adapters : List IpAdapterAddresses} {table : List ForwardRow}
    {acts acts' : List WatchAct} (hr : run step (initial adapters table) acts = some s)
    (hstopped : s.life = .stopped) (hr' : run step s acts' = some s')
    (hstart : ∀ act ∈ acts', act ≠ .start true) :
    s'.life = .stopped ∧ s'.published = s.published ∧ ∀ act ∈ acts', act.inside = false := by
  have h := watchInv_of_run hr
  clear hr
  induction acts' generalizing s with
  | nil =>
    cases hr'
    exact ⟨hstopped, rfl, nofun⟩
  | cons act acts' ih =>
    rw [List.forall_mem_cons] at hstart ⊢
    obtain ⟨s₁, hs, hr'⟩ := run_cons.mp hr'
    obtain ⟨hlife, hpublished, hact⟩ := h.stopped_step hstopped hstart.1 hs
    obtain ⟨hlife', hpublished', hacts⟩ := ih hlife hr' hstart.2 (h.step hs)
    exact ⟨hlife', hpublished'.trans hpublished, hact, hacts⟩

/-- A monitor that is stopped while its worker waits. -/
def stoppedActs : List WatchAct :=
  [.start true, .notifyInterface 0, .notifyRoute 0, .spawn, .worker (.readAdapters 0),
    .worker (.readRoutes 0), .worker .publish, .interfaceChange [], .stop, .callback .interface,
    .cancelled, .cancelled, .signal, .worker .wake, .joined]

/-- It is stopped once more, a `start` gets no events, and the network goes on to change. -/
theorem silent_after_stop_once : ∃ s s', run step (initial [] []) stoppedActs = some s ∧
    run step s [.interfaceChange [], .start false, .stop] = some s' ∧
      s.published.isSome = true ∧ s'.published = s.published :=
  ⟨_, _, rfl, rfl, rfl, (@silent_after_stop _ _ _ _ stoppedActs
    [.interfaceChange [], .start false, .stop] rfl rfl rfl (by decide)).2.1⟩

/-! ## That `stop` returns -/

/-- In `join` the worker has a step to make, or has returned. -/
theorem WatchInv.joining_goesOn (h : WatchInv s) (hjoining : s.life = .joining) :
    (∃ act, (s.step (.worker act)).isSome = true) ∨ (s.step .joined).isSome = true := by
  have hstop := h.joining hjoining
  cases hw : s.worker with
  | none | ended => exact .inr (by simp [Watcher.step, hjoining, hw, WorkerPhase.alive])
  | enumerating => exact .inl ⟨.readAdapters 0, by simp [Watcher.step, workerStep, hw]; split <;> rfl⟩
  | adaptersRead raws => exact .inl ⟨.readRoutes 0, by simp [Watcher.step, workerStep, hw]⟩
  | publishing all => exact .inl ⟨.publish, by simp [Watcher.step, workerStep, hw]⟩
  | waiting => exact .inl ⟨.wake, by simp [Watcher.step, workerStep, hw, hstop]⟩
  | settling => exact .inl ⟨.settle, by simp [Watcher.step, workerStep, hw]⟩
  | checkingKick => exact .inl ⟨.checkKick, by simp [Watcher.step, workerStep, hw]⟩
  | checkingStop => exact .inl ⟨.checkStop, by simp [Watcher.step, workerStep, hw]⟩

/-- Every step in `join` is one of the network, or brings the worker closer to its end. -/
theorem WatchInv.joining_step (h : WatchInv s) (hjoining : s.life = .joining) {act : WatchAct}
    (hnot : act ≠ .joined) (hs : s.step act = some s') :
    s'.life = .joining ∧ [act].countP WatchAct.ofWorker + s'.worker.rank ≤ s.worker.rank := by
  have hflight : ∀ kind, s.inFlight kind = 0 := fun kind => h.silent kind (by rw [hjoining]; rfl)
  cases act with
  | interfaceChange | routeChange =>
    cases hs
    exact ⟨hjoining, Nat.le_of_eq (Nat.zero_add _)⟩
  | callback kind => simp [Watcher.step, hflight kind] at hs
  | worker act =>
    have hm := moves_of_workerStep hs
    refine ⟨hm.outside.life.trans hjoining, ?_⟩
    show 1 + s'.worker.rank ≤ s.worker.rank
    have hlt := hm.rank_lt (h.joining hjoining)
    omega
  | joined => exact absurd rfl hnot
  | _ => simp [Watcher.step, hjoining] at hs

theorem rank_le (worker : WorkerPhase) : worker.rank ≤ 4 := by
  cases worker <;> simp [WorkerPhase.rank]

/-- While `stop` waits for the worker, whatever else happens, the worker makes at
most four steps, and it has one to make until `join` can return. -/
theorem stop_returns {adapters : List IpAdapterAddresses} {table : List ForwardRow}
    {acts acts' : List WatchAct} (hr : run step (initial adapters table) acts = some s)
    (hjoining : s.life = .joining) (hr' : run step s acts' = some s')
    (hnot : ∀ act ∈ acts', act ≠ .joined) :
    acts'.countP WatchAct.ofWorker ≤ 4 ∧
      ((∃ act, (s'.step (.worker act)).isSome = true) ∨ (s'.step .joined).isSome = true) := by
  have h := watchInv_of_run hr
  suffices hmain : WatchInv s' ∧ s'.life = .joining ∧
      acts'.countP WatchAct.ofWorker + s'.worker.rank ≤ s.worker.rank by
    obtain ⟨h', hjoining', hcount⟩ := hmain
    have hle := rank_le s.worker
    exact ⟨by omega, h'.joining_goesOn hjoining'⟩
  clear hr
  induction acts' generalizing s with
  | nil =>
    cases hr'
    exact ⟨h, hjoining, Nat.le_of_eq (Nat.zero_add _)⟩
  | cons act acts' ih =>
    rw [List.forall_mem_cons] at hnot
    obtain ⟨s₁, hs, hr'⟩ := run_cons.mp hr'
    obtain ⟨hjoining₁, hstep⟩ := h.joining_step hjoining hnot.1 hs
    obtain ⟨h', hjoining', hcount⟩ := ih hjoining₁ hr' hnot.2 (h.step hs)
    refine ⟨h', hjoining', ?_⟩
    rw [← List.singleton_append, List.countP_append]
    omega

/-- A monitor that is stopped while its worker lets a burst pass. -/
def stoppingActs : List WatchAct :=
  [.start true, .notifyInterface 0, .notifyRoute 0, .spawn, .worker (.readAdapters 0),
    .worker (.readRoutes 0), .worker .publish, .interfaceChange [], .callback .interface,
    .worker .wake, .stop, .cancelled, .cancelled, .signal]

theorem stop_returns_settling : ∃ s s', run step (initial [] []) stoppingActs = some s ∧
    run step s [.worker .settle, .routeChange []] = some s' ∧
      ((∃ act, (s'.step (.worker act)).isSome = true) ∨ (s'.step .joined).isSome = true) :=
  ⟨_, _, rfl, rfl, (@stop_returns _ _ _ _ stoppingActs
    [.worker .settle, .routeChange []] rfl rfl rfl (by decide)).2⟩

end Watcher

end NovaVpn.Net
