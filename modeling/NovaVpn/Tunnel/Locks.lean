import NovaVpn.Framework.Locks
import NovaVpn.Framework.Machine
import NovaVpn.Tunnel.Tunnel

/-!
# The locks of a tunnel and its OpenVPN engines

`connect` and `disconnect` of `Tunnel/TunnelManager.cpp` with `start`, `stop`
and the two threads of `Tunnel/openvpn/OpenVpnEngine.cpp` and the cancellation
of `Core/Cancellation.cpp`, at the grain of the mutexes. Each `connect`
creates an engine and a cancellation source, which get its number. A thread
stands before a mutex it waits for (the phases in `enter`), or has what
`holds` says; a step runs to the next mutex it takes or gives back. What the
outside decides, whether a call succeeds and what the client reports, comes
with the step.

`no_lock_cycle`: there is no cycle in any run in which the call of a client's
stop under the tunnel's lock and the delivery of counters under the engine's
do not meet (`LockOrder`), and in which `start` finds its source not yet
cancelled.
-/

namespace NovaVpn.Tunnel.Locks

open NovaVpn.Framework

inductive Mutex where
  | tunnel
  | engine (k : Nat)
  | source (k : Nat)
  deriving DecidableEq, Repr

inductive Thread where
  | caller (i : Nat)
  /-- The thread that runs the client of an engine. -/
  | worker (k : Nat)
  /-- The thread that polls its counters. -/
  | poller (k : Nat)
  deriving DecidableEq, Repr

inductive Phase where
  | out
  -- connect
  | connectEntry
  | connectGuard
  | connectSetup
  | announcing (k : Nat)
  | startEntry (k : Nat)
  | startBody (k : Nat)
  | registerEntry (k : Nat)
  | registering (k : Nat)
  /-- The token is cancelled: `requestStop`, inside `start`. -/
  | startCancelled (k : Nat)
  | startThreads (k : Nat)
  | startFailed
  -- disconnect
  | disconnectEntry
  | disconnectSection
  | cancelEntry (k : Nat)
  | cancelling (k : Nat)
  /-- `requestStop`, inside `cancel`. -/
  | callbackEntry (k : Nat)
  | callback (k : Nat)
  | disconnectLeave
  | requestStopEntry (k : Nat)
  | requestStop (k : Nat)
  | stopStats (k : Nat)
  | takeEntry (k : Nat)
  | taking (k : Nat)
  | joining (k : Nat) (threads : Bool)
  | resetEntry (k : Nat)
  | resetting (k : Nat)
  | deregisterEntry (k : Nat)
  | deregistering (k : Nat)
  | stopLeave (k : Nat)
  | finishEntry
  | finishing
  -- the worker
  | working (k : Nat)
  | reportEntry (k : Nat) (last : Bool)
  | reporting (k : Nat) (last : Bool)
  -- the poller
  | polling (k : Nat)
  | tickEntry (k : Nat)
  | tick (k : Nat)
  | countersEntry (k : Nat)
  | counters (k : Nat)
  | tickLeave (k : Nat)
  | ended
  deriving DecidableEq, Repr

/-- The mutex a phase waits for, and the phase that has it. -/
def enter : Phase → Option (Mutex × Phase)
  | .connectEntry => some (.tunnel, .connectGuard)
  | .startEntry k => some (.engine k, .startBody k)
  | .registerEntry k => some (.source k, .registering k)
  | .startCancelled k => some (.engine k, .startThreads k)
  | .disconnectEntry => some (.tunnel, .disconnectSection)
  | .cancelEntry k => some (.source k, .cancelling k)
  | .callbackEntry k => some (.engine k, .callback k)
  | .requestStopEntry k => some (.engine k, .requestStop k)
  | .takeEntry k => some (.engine k, .taking k)
  | .resetEntry k => some (.engine k, .resetting k)
  | .deregisterEntry k => some (.source k, .deregistering k)
  | .finishEntry => some (.tunnel, .finishing)
  | .reportEntry k last => some (.tunnel, .reporting k last)
  | .tickEntry k => some (.engine k, .tick k)
  | .countersEntry k => some (.tunnel, .counters k)
  | _ => none

def waits (p : Phase) : Option Mutex := (enter p).map (·.1)

def holds : Phase → List Mutex
  | .connectGuard | .connectSetup => [.tunnel]
  | .startBody k | .registerEntry k | .startCancelled k | .startThreads k => [.engine k]
  | .registering k => [.source k, .engine k]
  | .disconnectSection | .cancelEntry _ | .callbackEntry _ | .disconnectLeave => [.tunnel]
  | .cancelling k => [.source k, .tunnel]
  | .callback k => [.engine k, .tunnel]
  | .requestStop k | .taking k | .resetting k | .deregisterEntry k | .stopLeave k => [.engine k]
  | .deregistering k => [.source k, .engine k]
  | .finishing | .reporting _ _ => [.tunnel]
  | .tick k | .countersEntry k | .tickLeave k => [.engine k]
  | .counters k => [.tunnel, .engine k]
  | _ => []

/-- An engine, with the part of its cancellation source that is about it. -/
structure Engine where
  /-- `m_client` is set. -/
  client : Bool := false
  /-- Its two threads can be joined. -/
  joinable : Bool := false
  /-- They were created. -/
  spawned : Bool := false
  statsStop : Bool := true
  /-- `m_cancelReg` has an id. -/
  registered : Bool := false
  cancelled : Bool := false
  /-- The source has the engine's callback. -/
  callback : Bool := false
  deriving DecidableEq, Repr

structure World where
  phase : Thread → Phase := fun _ => .out
  owner : Mutex → Option Thread := fun _ => none
  engines : Nat → Engine := fun _ => {}
  /-- Engines created so far. -/
  created : Nat := 0
  state : ConnectionState := .disconnected
  /-- `m_engine`. -/
  engine : Option Nat := none
  /-- `m_cancelSource`. -/
  source : Option Nat := none

/-- What the outside decides of a step. -/
structure Choice where
  /-- A call that may fail succeeds. -/
  ok : Bool := true
  /-- `validate` accepts the profile. -/
  valid : Bool := true
  /-- The state the client reports, if it does; the session otherwise. -/
  report : Option ConnectionState := none
  deriving DecidableEq, Repr

inductive Act where
  | connect (i : Nat)
  | disconnect (i : Nat)
  /-- The thread takes the mutex it waits for. -/
  | lock (t : Thread)
  /-- The thread goes on. -/
  | go (t : Thread) (c : Choice)
  deriving DecidableEq, Repr

namespace World

/-- The thread goes on without a mutex. -/
def goto (w : World) (t : Thread) (p : Phase) : World :=
  { w with phase := Function.update w.phase t p }

def take (w : World) (t : Thread) (m : Mutex) (p : Phase) : World :=
  { w with phase := Function.update w.phase t p, owner := Function.update w.owner m (some t) }

def give (w : World) (t : Thread) (m : Mutex) (p : Phase) : World :=
  { w with phase := Function.update w.phase t p, owner := Function.update w.owner m none }

def setEngine (w : World) (k : Nat) (e : Engine) : World :=
  { w with engines := Function.update w.engines k e }

/-- What a thread does in its phase, up to the next mutex. -/
def advance (w : World) (t : Thread) (c : Choice) : Phase → Option World
  | .out =>
    match t with
    | .caller _ => none
    | .worker k => if (w.engines k).spawned then some (w.goto t (.working k)) else none
    | .poller k => if (w.engines k).spawned then some (w.goto t (.polling k)) else none
  -- the guard of `connect` loads the state twice
  | .connectGuard =>
    if isTransitional w.state then some (w.give t .tunnel .out) else some (w.goto t .connectSetup)
  | .connectSetup =>
    if w.state = .connected then some (w.give t .tunnel .out)
    else if !c.ok then some (w.give t .tunnel .out)
    else
      let k := w.created
      let w := { w with created := k + 1, engine := some k }
      if !c.valid then some (w.give t .tunnel .out)
      else some ({ w with source := some k }.give t .tunnel (.announcing k))
  | .announcing k => some ({ w with state := .connecting }.goto t (.startEntry k))
  | .startBody k =>
    if (w.engines k).joinable then some (w.give t (.engine k) .startFailed)
    else if !c.ok then
      some ((w.setEngine k { w.engines k with client := false }).give t (.engine k) .startFailed)
    else some ((w.setEngine k { w.engines k with client := true }).goto t (.registerEntry k))
  | .registering k =>
    if (w.engines k).cancelled then some (w.give t (.source k) (.startCancelled k))
    else
      some ((w.setEngine k { w.engines k with callback := true, registered := true }).give t
        (.source k) (.startThreads k))
  | .startThreads k =>
    some ((w.setEngine k { w.engines k with joinable := true, spawned := true, statsStop := false }).give
      t (.engine k) .out)
  | .startFailed => some ({ w with state := .faulted }.goto t .out)
  | .disconnectSection =>
    if w.state = .disconnected then some (w.give t .tunnel .out)
    else
      let w := { w with state := .disconnecting }
      match w.source with
      | some k => some (w.goto t (.cancelEntry k))
      | none => some (w.goto t .disconnectLeave)
  | .cancelling k =>
    if (w.engines k).cancelled then some (w.give t (.source k) .disconnectLeave)
    else
      some ((w.setEngine k { w.engines k with cancelled := true, callback := false }).give t (.source k)
        (if (w.engines k).callback then .callbackEntry k else .disconnectLeave))
  | .callback k => some (w.give t (.engine k) .disconnectLeave)
  | .disconnectLeave =>
    match w.engine with
    | some k => some (w.give t .tunnel (.requestStopEntry k))
    | none => some (w.give t .tunnel .finishEntry)
  | .requestStop k => some (w.give t (.engine k) (.stopStats k))
  | .stopStats k =>
    some ((w.setEngine k { w.engines k with statsStop := true }).goto t (.takeEntry k))
  | .taking k =>
    some ((w.setEngine k { w.engines k with joinable := false }).give t (.engine k)
      (.joining k (w.engines k).joinable))
  | .joining k threads =>
    if threads && !(w.phase (.worker k) == .ended && w.phase (.poller k) == .ended) then none
    else some (w.goto t (.resetEntry k))
  -- the registration holds the source's state weakly, and locks it if it is still there
  | .resetting k =>
    let w' := w.setEngine k { w.engines k with client := false, registered := false }
    if (w.engines k).registered && c.ok then some (w'.goto t (.deregisterEntry k))
    else some (w'.goto t (.stopLeave k))
  | .deregistering k =>
    some ((w.setEngine k { w.engines k with callback := false }).give t (.source k) (.stopLeave k))
  | .stopLeave k => some (w.give t (.engine k) .finishEntry)
  | .finishing => some ({ w with engine := none, state := .disconnected }.give t .tunnel .out)
  -- the client reports while it is connected and once when it returns
  | .working k => some (w.goto t (.reportEntry k !c.ok))
  | .reporting k last =>
    some ({ w with state := c.report.getD w.state }.give t .tunnel
      (if last then .ended else .working k))
  | .polling k =>
    if (w.engines k).statsStop then some (w.goto t .ended) else some (w.goto t (.tickEntry k))
  | .tick k =>
    if (w.engines k).client then some (w.goto t (.countersEntry k)) else some (w.goto t (.tickLeave k))
  | .counters k => some (w.give t .tunnel (.tickLeave k))
  | .tickLeave k => some (w.give t (.engine k) (.polling k))
  | _ => none

def step (w : World) : Act → Option World
  | .connect i => if w.phase (.caller i) = .out then some (w.goto (.caller i) .connectEntry) else none
  | .disconnect i =>
    if w.phase (.caller i) = .out then some (w.goto (.caller i) .disconnectEntry) else none
  | .lock t =>
    match enter (w.phase t) with
    | some (m, p) => if w.owner m = none then some (w.take t m p) else none
    | none => none
  | .go t c => w.advance t c (w.phase t)

end World

/-! ## What a step does -/

/-- A thread moves to a phase and gives back at most one mutex. -/
structure Move (w w' : World) (t : Thread) (p : Phase) : Prop where
  phase : w'.phase = Function.update w.phase t p
  owner : (w'.owner = w.owner ∧ ∀ m, m ∈ holds p ↔ m ∈ holds (w.phase t)) ∨
    ∃ m, w'.owner = Function.update w.owner m none ∧ m ∈ holds (w.phase t) ∧
      ∀ m', m' ∈ holds p ↔ m' ≠ m ∧ m' ∈ holds (w.phase t)

/-- Where the phases come from that wait with a mutex in hand. -/
def ComesFrom (w : World) (t : Thread) : Phase → Prop
  | .startCancelled k => w.phase t = .registering k ∧ (w.engines k).cancelled = true
  | .callbackEntry k =>
    w.phase t = .cancelling k ∧ (w.engines k).cancelled = false ∧ (w.engines k).callback = true
  | .countersEntry k => w.phase t = .tick k
  | .tick _ => False
  | _ => True

section Moves

variable {w w' w₀ : World} {t : Thread} {p q : Phase} {m : Mutex}

theorem move_goto (hp : w.phase t = q) (hphase : w₀.phase = w.phase) (howner : w₀.owner = w.owner)
    (hq : holds p = holds q) : Move w (w₀.goto t p) t p where
  phase := by rw [← hphase]; rfl
  owner := .inl ⟨howner, fun m => by rw [hp, hq]⟩

theorem move_give (hp : w.phase t = q) (hphase : w₀.phase = w.phase) (howner : w₀.owner = w.owner)
    (hq : holds q = m :: holds p) (hm : m ∉ holds p) : Move w (w₀.give t m p) t p where
  phase := by rw [← hphase]; rfl
  owner := by
    refine .inr ⟨m, by rw [← howner]; rfl, by rw [hp, hq]; exact List.mem_cons_self, fun m' => ?_⟩
    rw [hp, hq, List.mem_cons]
    constructor
    · intro h
      exact ⟨fun heq => hm (heq ▸ h), .inr h⟩
    · rintro ⟨hne, heq | h⟩
      · exact absurd heq hne
      · exact h

/-- Every step of a thread but for taking a mutex. -/
theorem advance_move {c : Choice} (h : w.advance t c (w.phase t) = some w') :
    ∃ p, Move w w' t p ∧ ComesFrom w t p := by
  cases hp : w.phase t <;> rw [hp] at h <;> simp only [World.advance] at h
  case out =>
    cases t with
    | caller i => cases h
    | worker k =>
      dsimp only at h
      split at h <;> cases h
      exact ⟨_, move_goto hp rfl rfl rfl, trivial⟩
    | poller k =>
      dsimp only at h
      split at h <;> cases h
      exact ⟨_, move_goto hp rfl rfl rfl, trivial⟩
  case connectGuard =>
    split at h <;> cases h
    · exact ⟨_, move_give hp rfl rfl rfl (by simp [holds]), trivial⟩
    · exact ⟨_, move_goto hp rfl rfl rfl, trivial⟩
  case connectSetup =>
    split at h
    · cases h
      exact ⟨_, move_give hp rfl rfl rfl (by simp [holds]), trivial⟩
    · split at h
      · cases h
        exact ⟨_, move_give hp rfl rfl rfl (by simp [holds]), trivial⟩
      · split at h <;> cases h
        · exact ⟨_, move_give hp rfl rfl rfl (by simp [holds]), trivial⟩
        · exact ⟨_, move_give hp rfl rfl rfl (by simp [holds]), trivial⟩
  case startBody k =>
    split at h
    · cases h
      exact ⟨_, move_give hp rfl rfl rfl (by simp [holds]), trivial⟩
    · split at h <;> cases h
      · exact ⟨_, move_give hp rfl rfl rfl (by simp [holds]), trivial⟩
      · exact ⟨_, move_goto hp rfl rfl rfl, trivial⟩
  case registering k =>
    split at h <;> cases h
    · next hc => exact ⟨_, move_give hp rfl rfl rfl (by simp [holds]), hp, hc⟩
    · exact ⟨_, move_give hp rfl rfl rfl (by simp [holds]), trivial⟩
  case disconnectSection =>
    split at h
    · cases h
      exact ⟨_, move_give hp rfl rfl rfl (by simp [holds]), trivial⟩
    · split at h <;> cases h
      · exact ⟨_, move_goto hp rfl rfl rfl, trivial⟩
      · exact ⟨_, move_goto hp rfl rfl rfl, trivial⟩
  case cancelling k =>
    split at h
    · cases h
      exact ⟨_, move_give hp rfl rfl rfl (by simp [holds]), trivial⟩
    · next hc =>
      cases hcb : (w.engines k).callback <;> rw [hcb] at h <;> cases h
      · exact ⟨_, move_give hp rfl rfl rfl (by simp [holds]), trivial⟩
      · exact ⟨_, move_give hp rfl rfl rfl (by simp [holds]), hp, by simpa using hc, hcb⟩
  case disconnectLeave =>
    split at h <;> cases h
    · exact ⟨_, move_give hp rfl rfl rfl (by simp [holds]), trivial⟩
    · exact ⟨_, move_give hp rfl rfl rfl (by simp [holds]), trivial⟩
  case joining k threads =>
    split at h <;> cases h
    exact ⟨_, move_goto hp rfl rfl rfl, trivial⟩
  case resetting k =>
    split at h <;> cases h
    · exact ⟨_, move_goto hp rfl rfl rfl, trivial⟩
    · exact ⟨_, move_goto hp rfl rfl rfl, trivial⟩
  case reporting k last =>
    cases last <;> cases h
    all_goals exact ⟨_, move_give hp rfl rfl rfl (by simp [holds]), trivial⟩
  case polling k =>
    split at h <;> cases h
    · exact ⟨_, move_goto hp rfl rfl rfl, trivial⟩
    · exact ⟨_, move_goto hp rfl rfl rfl, trivial⟩
  case tick k =>
    split at h <;> cases h
    · exact ⟨_, move_goto hp rfl rfl rfl, hp⟩
    · exact ⟨_, move_goto hp rfl rfl rfl, trivial⟩
  case announcing k | startFailed | stopStats k | working k =>
    cases h
    exact ⟨_, move_goto hp rfl rfl rfl, trivial⟩
  case startThreads k | callback k | requestStop k | taking k | deregistering k | stopLeave k
      | finishing | counters k | tickLeave k =>
    cases h
    exact ⟨_, move_give hp rfl rfl rfl (by simp [holds]), trivial⟩
  all_goals cases h

end Moves

/-! ## No cycle -/

/-- The steps that keep the two orders of the tunnel's and the engine's mutex
apart: `cancel` calls an engine's `requestStop` only while the engine's mutex
is not with a poller on its way to the tunnel's, a poller takes it only while
no such call waits, and `start` registers with a source that is not yet
cancelled. -/
def lockOrder (w : World) : Act → Bool
  | .go t _ =>
    match w.phase t with
    | .cancelling k =>
      (w.engines k).cancelled || !(w.engines k).callback ||
        (w.owner (.engine k)).all fun t' => w.phase t' != .tick k && w.phase t' != .countersEntry k
    | .registering k => !(w.engines k).cancelled
    | _ => true
  | .lock t =>
    match w.phase t with
    | .tickEntry k => (w.owner .tunnel).all fun t' => w.phase t' != .callbackEntry k
    | _ => true
  | _ => true

/-- The same as a condition on a step. -/
def LockOrder (w : World) (act : Act) : Prop := lockOrder w act = true

instance (w : World) (act : Act) : Decidable (LockOrder w act) := inferInstanceAs (Decidable (_ = _))

structure LockInv (w : World) : Prop where
  held : Held holds w.phase w.owner
  clear : ∀ t k, w.phase t ≠ .startCancelled k
  apart : ∀ t t' k, w.phase t = .callbackEntry k →
    w.phase t' ≠ .tick k ∧ w.phase t' ≠ .countersEntry k

/-- How far a thread that waits is from one that does not. -/
def rank (p : Phase) : Nat :=
  match p with
  | .callbackEntry _ => 2
  | p =>
    match waits p with
    | none => 0
    | some (.source _) => 1
    | some .tunnel => 3
    | some (.engine _) => 4

/-- Of a thread with a mutex in hand. -/
def RankHolding (p : Phase) : Mutex → Prop
  | .source _ => rank p = 0
  | .tunnel => rank p ≤ 2
  | .engine k => rank p ≤ 1 ∨ p = .countersEntry k

/-- Of a thread that waits for one. -/
def RankWaiting (p : Phase) : Mutex → Prop
  | .source _ => rank p = 1
  | .tunnel => rank p = 3
  | .engine k => rank p = 4 ∨ p = .callbackEntry k

attribute [local simp] enter

theorem rank_of_holds {p : Phase} {m : Mutex} (h : m ∈ holds p)
    (hp : ∀ j, p ≠ .startCancelled j) : RankHolding p m := by
  cases p <;> cases m <;> simp_all [RankHolding, holds, rank, waits, enter]

theorem rank_of_waits {p : Phase} {m : Mutex} (h : waits p = some m) : RankWaiting p m := by
  cases p <;> cases m <;> simp_all [RankWaiting, rank, waits, enter]

theorem LockInv.noCycle {w : World} (h : LockInv w) : NoCycle waits w.phase w.owner := by
  refine noCycle_of_rank rank fun t t' ⟨m, hw, ho⟩ => ?_
  have hheld := rank_of_holds ((h.held m t').mp ho) (h.clear t')
  have hwaiting := rank_of_waits hw
  cases m with
  | source k =>
    dsimp only [RankHolding, RankWaiting] at hheld hwaiting
    omega
  | tunnel =>
    dsimp only [RankHolding, RankWaiting] at hheld hwaiting
    omega
  | engine k =>
    obtain h4 | hcall := hwaiting
    · obtain h1 | hcounters := hheld
      · omega
      · rw [hcounters, h4]
        exact (by decide : 3 < 4)
    · obtain h1 | hcounters := hheld
      · rw [hcall]
        exact Nat.lt_of_le_of_lt h1 (by decide : 1 < 2)
      · exact absurd hcounters (h.apart t t' k hcall).2

theorem enter_holds {p q : Phase} {m : Mutex} (h : enter q = some (m, p)) (m' : Mutex) :
    m' ∈ holds p ↔ m' = m ∨ m' ∈ holds q := by
  cases q <;> simp only [enter, Option.some.injEq, Prod.mk.injEq, reduceCtorEq] at h <;>
    obtain ⟨rfl, rfl⟩ := h <;> simp [holds]

/-- Of the phases that matter, only the poller's first one comes with a
mutex. -/
theorem enter_phase {p q : Phase} {m : Mutex} (h : enter q = some (m, p)) (k : Nat) :
    p ≠ .startCancelled k ∧ p ≠ .callbackEntry k ∧ p ≠ .countersEntry k ∧
      (p = .tick k → q = .tickEntry k) := by
  cases q <;> simp only [enter, Option.some.injEq, Prod.mk.injEq, reduceCtorEq] at h <;>
    obtain ⟨rfl, rfl⟩ := h <;> simp

section Steps

variable {w w' : World} {t : Thread} {p : Phase}

/-- The invariant after one thread has moved. -/
theorem LockInv.moved (h : LockInv w) (hphase : w'.phase = Function.update w.phase t p)
    (hheld : Held holds w'.phase w'.owner) (hclear : ∀ k, p ≠ .startCancelled k)
    (hcall : ∀ k, p = .callbackEntry k → ∀ t', w.phase t' ≠ .tick k ∧ w.phase t' ≠ .countersEntry k)
    (hpoll : ∀ k, p = .tick k ∨ p = .countersEntry k → ∀ t', w.phase t' ≠ .callbackEntry k) :
    LockInv w' where
  held := hheld
  clear t' k := by
    rw [hphase, Function.update_apply]
    split
    · exact hclear k
    · exact h.clear t' k
  apart t₁ t₂ k h₁ := by
    rw [hphase, Function.update_apply] at h₁ ⊢
    split at h₁
    · split
      · rw [h₁]
        exact ⟨(fun h => by cases h), (fun h => by cases h)⟩
      · exact hcall k h₁ t₂
    · split
      · exact ⟨fun hp => hpoll k (.inl hp) t₁ h₁, fun hp => hpoll k (.inr hp) t₁ h₁⟩
      · exact h.apart t₁ t₂ k h₁

theorem LockInv.take (h : LockInv w) {m : Mutex} (he : enter (w.phase t) = some (m, p))
    (hfree : w.owner m = none) (hok : LockOrder w (.lock t)) : LockInv (w.take t m p) := by
  refine h.moved rfl (h.held.take hfree (enter_holds he)) (fun k => (enter_phase he k).1)
    (fun k hp => absurd hp (enter_phase he k).2.1) fun k hp t' ht' => ?_
  obtain hp | hp := hp
  · have hq := (enter_phase he k).2.2.2 hp
    have howner : w.owner .tunnel = some t' := (h.held _ _).mpr (by rw [ht']; exact List.mem_cons_self)
    simp only [LockOrder, lockOrder, hq, howner, Option.all_some, bne_iff_ne, ne_eq] at hok
    exact hok ht'
  · exact (enter_phase he k).2.2.1 hp

theorem Move.held (hm : Move w w' t p) (h : Held holds w.phase w.owner) :
    Held holds w'.phase w'.owner := by
  rw [hm.phase]
  obtain ⟨ho, hp⟩ | ⟨m, ho, hmem, hp⟩ := hm.owner
  · rw [ho]
    exact h.stay hp
  · rw [ho]
    exact h.give hmem hp

theorem LockInv.advance (h : LockInv w) {c : Choice} (hs : w.advance t c (w.phase t) = some w')
    (hok : LockOrder w (.go t c)) : LockInv w' := by
  obtain ⟨p, hm, hfrom⟩ := advance_move hs
  refine h.moved hm.phase (hm.held h.held) (fun k hp => ?_) (fun k hp t' => ?_) fun k hp t' ht' => ?_
  · subst hp
    obtain ⟨hq, hc⟩ := hfrom
    simp only [LockOrder, lockOrder, hq, hc] at hok
    cases hok
  · subst hp
    obtain ⟨hq, hc, hcb⟩ := hfrom
    simp only [LockOrder, lockOrder, hq, hc, hcb, Bool.not_true, Bool.or_false, Bool.false_or,
      Option.all_eq_true, Bool.and_eq_true, bne_iff_ne] at hok
    constructor
    · intro ht'
      exact (hok t' ((h.held _ _).mpr (by rw [ht']; exact List.mem_cons_self))).1 ht'
    · intro ht'
      exact (hok t' ((h.held _ _).mpr (by rw [ht']; exact List.mem_cons_self))).2 ht'
  · obtain rfl | rfl := hp
    · exact hfrom
    · exact (h.apart t' t k ht').1 hfrom

theorem LockInv.step (h : LockInv w) {act : Act} (hok : LockOrder w act)
    (hs : w.step act = some w') : LockInv w' := by
  cases act with
  | connect i =>
    simp only [World.step] at hs
    split at hs <;> cases hs
    next hp =>
    exact h.moved rfl (h.held.stay fun m => by rw [hp]; rfl) (fun k => by simp) (fun k => by simp)
      fun k => by simp
  | disconnect i =>
    simp only [World.step] at hs
    split at hs <;> cases hs
    next hp =>
    exact h.moved rfl (h.held.stay fun m => by rw [hp]; rfl) (fun k => by simp) (fun k => by simp)
      fun k => by simp
  | lock t =>
    simp only [World.step] at hs
    split at hs
    · next m p he =>
      split at hs <;> cases hs
      next hfree => exact h.take he hfree hok
    · cases hs
  | go t c => exact h.advance hs hok

end Steps

/-- In every run that keeps the two orders apart, no threads wait for each
other in a circle. -/
theorem no_lock_cycle {acts : List Act} {w : World} (hok : RunMeets World.step LockOrder {} acts)
    (hr : run World.step {} acts = some w) : NoCycle waits w.phase w.owner := by
  have hinit : LockInv {} :=
    ⟨(fun m t => by simp [holds]), (fun t k h => by cases h), (fun t t' k h => by cases h)⟩
  have hinv : LockInv w :=
    run_invariant (I := LockInv) (fun _ _ _ h hok hs => h.step hok hs) hinit hok hr
  exact hinv.noCycle

/-- A connect up to its threads. -/
def connected : List Act :=
  [.connect 0, .lock (.caller 0), .go (.caller 0) {}, .go (.caller 0) {}, .go (.caller 0) {},
    .lock (.caller 0), .go (.caller 0) {}, .lock (.caller 0), .go (.caller 0) {},
    .go (.caller 0) {}]

/-- The counters are polled once, and then the tunnel is disconnected. -/
def polledThenStopped : List Act :=
  connected ++
    ([.go (.poller 0) {}, .go (.poller 0) {}, .lock (.poller 0), .go (.poller 0) {},
      .lock (.poller 0), .go (.poller 0) {}, .go (.poller 0) {}, .disconnect 1,
      .lock (.caller 1), .go (.caller 1) {}, .lock (.caller 1), .go (.caller 1) {},
      .lock (.caller 1), .go (.caller 1) {}, .go (.caller 1) {}] : List Act)

theorem no_lock_cycle_stopped : ∃ w, run World.step {} polledThenStopped = some w ∧
    RunMeets World.step LockOrder {} polledThenStopped ∧ NoCycle waits w.phase w.owner := by
  have hmeets : RunMeets World.step LockOrder {} polledThenStopped := by decide +kernel
  have hrun : (run World.step {} polledThenStopped).isSome = true := by decide +kernel
  obtain ⟨w, hw⟩ := Option.isSome_iff_exists.mp hrun
  exact ⟨w, hw, hmeets, no_lock_cycle hmeets hw⟩

/-- The poller has the engine's mutex and waits for the tunnel's, which the
thread has that waits for the engine's. -/
def polledWhileStopped : List Act :=
  connected ++
    ([.go (.poller 0) {}, .go (.poller 0) {}, .lock (.poller 0), .disconnect 1, .lock (.caller 1),
      .go (.caller 1) {}, .lock (.caller 1), .go (.caller 1) {}, .go (.poller 0) {}] : List Act)

/-- The source is cancelled before `start` registers with it. -/
def stoppedWhileStarting : List Act :=
  [.connect 0, .lock (.caller 0), .go (.caller 0) {}, .go (.caller 0) {}, .go (.caller 0) {},
    .disconnect 1, .lock (.caller 1), .go (.caller 1) {}, .lock (.caller 1), .go (.caller 1) {},
    .lock (.caller 0), .go (.caller 0) {}, .lock (.caller 0), .go (.caller 0) {}]

theorem lock_cycles :
    (∃ w, run World.step {} polledWhileStopped = some w ∧
      Blocked waits w.phase w.owner (.caller 1) (.poller 0) ∧
      Blocked waits w.phase w.owner (.poller 0) (.caller 1) ∧
      ¬ NoCycle waits w.phase w.owner) ∧
    ∃ w, run World.step {} stoppedWhileStarting = some w ∧
      Blocked waits w.phase w.owner (.caller 0) (.caller 0) ∧ ¬ NoCycle waits w.phase w.owner := by
  have h₁ : (run World.step {} polledWhileStopped).map (fun w =>
      (waits (w.phase (.caller 1)), w.owner (.engine 0), waits (w.phase (.poller 0)),
        w.owner .tunnel)) =
      some (some (.engine 0), some (.poller 0), some .tunnel, some (.caller 1)) := by decide +kernel
  have h₂ : (run World.step {} stoppedWhileStarting).map (fun w =>
      (waits (w.phase (.caller 0)), w.owner (.engine 0))) =
      some (some (.engine 0), some (.caller 0)) := by decide +kernel
  constructor
  · obtain ⟨w, hw, h⟩ := Option.map_eq_some_iff.mp h₁
    simp only [Prod.mk.injEq] at h
    obtain ⟨hwait, howner, hwait', howner'⟩ := h
    have hcaller : Blocked waits w.phase w.owner (.caller 1) (.poller 0) := ⟨_, hwait, howner⟩
    have hpoller : Blocked waits w.phase w.owner (.poller 0) (.caller 1) := ⟨_, hwait', howner'⟩
    exact ⟨w, hw, hcaller, hpoller, fun h => h _ (.tail (.single hcaller) hpoller)⟩
  · obtain ⟨w, hw, h⟩ := Option.map_eq_some_iff.mp h₂
    simp only [Prod.mk.injEq] at h
    have hself : Blocked waits w.phase w.owner (.caller 0) (.caller 0) := ⟨_, h.1, h.2⟩
    exact ⟨w, hw, hself, fun h => h _ (.single hself)⟩

end NovaVpn.Tunnel.Locks
