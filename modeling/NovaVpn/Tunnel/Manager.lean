import Mathlib.Logic.Function.Basic
import NovaVpn.Framework.Machine
import NovaVpn.Tunnel.Tunnel

/-!
# The tunnel manager and its clients

`TunnelManager` of `Tunnel/TunnelManager.cpp`, and the Connect, Disconnect,
DisconnectAll and Reconnect handlers of `Services/ServiceApi.cpp`, each on
the thread of its connection. A Connect is three steps on the manager:
everything is disconnected, a tunnel is created, and it is connected; the
steps of other requests and the callbacks of engines come in between.

Connecting is to replace what is running. Two Connects that interleave leave
two tunnels live (`two_connects_live`), and so does a Reconnect of a tunnel
that `disconnect` passed over because its engine had reported Disconnected.
`one_live`: at most one tunnel is live in every run in which no tunnel is
connected while another has its engine attached, and only an attached engine
calls back with a live state.
-/

namespace NovaVpn

open NovaVpn.Framework

structure TunnelManager where
  maxConcurrentTunnels : Nat := 4
  /-- Whether there is an engine registry. -/
  registry : Bool := true
  /-- Every tunnel there is, by its id; a tunnel outlives its entry in the
  table if someone holds it. -/
  objects : String → Option Tunnel := fun _ => none
  /-- The ids of the manager's tunnels. -/
  table : List String := []
  /-- Empty if there is none. -/
  primary : String := ""

namespace TunnelManager

def setTunnel (m : TunnelManager) (id : String) (t : Tunnel) : TunnelManager :=
  { m with objects := Function.update m.objects id (some t) }

theorem setTunnel_self (m : TunnelManager) (id : String) (t : Tunnel) :
    (m.setTunnel id t).objects id = some t :=
  Function.update_self _ _ _

theorem setTunnel_of_ne (m : TunnelManager) {id other : String} (t : Tunnel) (hne : other ≠ id) :
    (m.setTunnel id t).objects other = m.objects other :=
  Function.update_of_ne hne _ _

/-- `profile`: whether the profile is valid; `id`: the new uuid. -/
def create (m : TunnelManager) (profile : Status) (id : String) : Result TunnelManager :=
  if profile.isError then .error profile
  else if m.table.length ≥ m.maxConcurrentTunnels then
    .error (Err.make .unavailable ("the concurrent tunnel limit (" ++
      toString m.maxConcurrentTunnels ++ ") is reached"))
  else .ok { m.setTunnel id { id } with
    table := id :: m.table
    primary := if m.primary = "" then id else m.primary }

def find (m : TunnelManager) (tunnelId : String) : Result Tunnel :=
  if tunnelId ∈ m.table then
    match m.objects tunnelId with
    | some t => .ok t
    | none => .error (Err.notFound ("no tunnel with id " ++ tunnelId))
  else .error (Err.notFound ("no tunnel with id " ++ tunnelId))

/-- One tunnel disconnected. -/
def disconnect (m : TunnelManager) (id : String) (callbacks : List Callback) :
    Status × TunnelManager :=
  match m.objects id with
  | some t => ((t.disconnect callbacks).1, m.setTunnel id (t.disconnect callbacks).2)
  | none => (.ok, m)

/-- The tunnel that a walk over the table begins with: any of them, `first`
says which. Empty if there is none. -/
def beginId (table : List String) (first : String) : String :=
  if first ∈ table then first else table.headD ""

def destroy (m : TunnelManager) (tunnelId first : String) (callbacks : List Callback) :
    Status × TunnelManager :=
  if tunnelId ∈ m.table then
    let table := m.table.erase tunnelId
    let primary := if m.primary = tunnelId then beginId table first else m.primary
    { m with table, primary }.disconnect tunnelId callbacks
  else (Err.notFound ("no tunnel with id " ++ tunnelId), m)

/-- The loop of `disconnectAll` over the tunnels it found. -/
def disconnectEach (callbacks : String → List Callback) :
    List String → Status → TunnelManager → Status × TunnelManager
  | [], first, m => (first, m)
  | id :: ids, first, m =>
    let (status, m) := m.disconnect id (callbacks id)
    disconnectEach callbacks ids (if status.isError && first.isOk then status else first) m

def disconnectAll (m : TunnelManager) (callbacks : String → List Callback) :
    Status × TunnelManager :=
  disconnectEach callbacks m.table .ok m

end TunnelManager

/-! ## The handlers -/

/-- Where the handler of a connection's request stands. -/
inductive Handling where
  | idle
  /-- Connect, with everything disconnected. -/
  | replaced
  /-- Connect, with its tunnel. -/
  | created (id : String)
  /-- Connect, before it destroys the tunnel that did not connect. -/
  | failed (id : String)
  /-- Reconnect, with the tunnel it found. -/
  | found (id : String)

structure Clients where
  manager : TunnelManager := {}
  handling : Nat → Handling := fun _ => .idle

/-- The steps of the handlers and the engines, with what the outside decides
of each. -/
inductive ClientAct where
  | connectRequest (connection : Nat) (profile : Status) (callbacks : String → List Callback)
  | create (connection : Nat) (profile : Status) (id : String)
  | connect (connection : Nat) (answers : EngineAnswers)
  | destroyFailed (connection : Nat) (first : String) (callbacks : List Callback)
  | disconnectRequest (connection : Nat) (tunnelId first : String) (callbacks : List Callback)
  | disconnectAllRequest (connection : Nat) (callbacks : String → List Callback)
  | reconnectRequest (connection : Nat) (tunnelId : String)
  | reconnect (connection : Nat) (renegotiated : Status)
  | engineCallback (tunnelId : String) (callback : Callback)

namespace Clients

def setHandling (s : Clients) (connection : Nat) (h : Handling) : Clients :=
  { s with handling := Function.update s.handling connection h }

def step (s : Clients) : ClientAct → Option Clients
  | .connectRequest connection profile callbacks =>
    match s.handling connection with
    | .idle =>
      if profile.isError then some s
      else some ({ s with manager := (s.manager.disconnectAll callbacks).2 }.setHandling
        connection .replaced)
    | _ => none
  | .create connection profile id =>
    match s.handling connection, s.manager.objects id with
    | .replaced, none =>
      match s.manager.create profile id with
      | .error _ => some (s.setHandling connection .idle)
      | .ok manager => some ({ s with manager }.setHandling connection (.created id))
    | _, _ => none
  | .connect connection answers =>
    match s.handling connection with
    | .created id => do
      let t ← s.manager.objects id
      let (status, t) := t.connect s.manager.registry answers
      some ({ s with manager := s.manager.setTunnel id t }.setHandling connection
        (if status.isError then .failed id else .idle))
    | _ => none
  | .destroyFailed connection first callbacks =>
    match s.handling connection with
    | .failed id =>
      some ({ s with manager := (s.manager.destroy id first callbacks).2 }.setHandling
        connection .idle)
    | _ => none
  | .disconnectRequest connection tunnelId first callbacks =>
    match s.handling connection with
    | .idle => some { s with manager := (s.manager.destroy tunnelId first callbacks).2 }
    | _ => none
  | .disconnectAllRequest connection callbacks =>
    match s.handling connection with
    | .idle => some { s with manager := (s.manager.disconnectAll callbacks).2 }
    | _ => none
  | .reconnectRequest connection tunnelId =>
    match s.handling connection with
    | .idle =>
      match s.manager.find tunnelId with
      | .error _ => some s
      | .ok _ => some (s.setHandling connection (.found tunnelId))
    | _ => none
  | .reconnect connection renegotiated =>
    match s.handling connection with
    | .found id => do
      let t ← s.manager.objects id
      some ({ s with manager := s.manager.setTunnel id (t.reconnect renegotiated).2 }.setHandling
        connection .idle)
    | _ => none
  | .engineCallback tunnelId callback => do
    let t ← s.manager.objects tunnelId
    some { s with manager := s.manager.setTunnel tunnelId (t.callback callback) }

end Clients

/-! ## Live tunnels -/

/-- A tunnel has its engine attached. -/
def TunnelManager.hasEngine (m : TunnelManager) (id : String) : Bool :=
  (m.objects id).any fun t => t.engine.isSome

def TunnelManager.isLive (m : TunnelManager) (id : String) : Bool :=
  (m.objects id).any fun t => t.state.live

/-- No two tunnels of the manager are in a transitional state or Connected. -/
def AtMostOneLive (m : TunnelManager) : Prop :=
  ∀ a ∈ m.table, ∀ b ∈ m.table, m.isLive a = true → m.isLive b = true → a = b

/-- The tunnel of a Connect gets its engine while no other tunnel has one. -/
def ConnectsAlone (m : TunnelManager) (answers : EngineAnswers) : Handling → Prop
  | .created id => id ∈ m.table → answers.created.isOk = true →
    ∀ other ∈ m.table, other ≠ id → m.hasEngine other = false
  | _ => True

/-- Tunnels are connected alone, and a live state is called back with by an
attached engine. -/
def Exclusive (s : Clients) : ClientAct → Prop
  | .connect connection answers => ConnectsAlone s.manager answers (s.handling connection)
  | .engineCallback tunnelId (.stateChanged state _) =>
    tunnelId ∈ s.manager.table → state.live = true → s.manager.hasEngine tunnelId = true
  | _ => True

instance (m : TunnelManager) (answers : EngineAnswers) : DecidablePred (ConnectsAlone m answers)
  | .created id => inferInstanceAs (Decidable (id ∈ m.table → answers.created.isOk = true →
      ∀ other ∈ m.table, other ≠ id → m.hasEngine other = false))
  | .idle | .replaced | .failed _ | .found _ => isTrue trivial

instance (s : Clients) : DecidablePred (Exclusive s)
  | .connect connection answers =>
    inferInstanceAs (Decidable (ConnectsAlone s.manager answers (s.handling connection)))
  | .engineCallback tunnelId (.stateChanged state _) =>
    inferInstanceAs (Decidable (tunnelId ∈ s.manager.table → state.live = true →
      s.manager.hasEngine tunnelId = true))
  | .engineCallback _ .sessionEstablished | .connectRequest .. | .create .. | .destroyFailed ..
  | .disconnectRequest .. | .disconnectAllRequest .. | .reconnectRequest .. | .reconnect .. =>
    isTrue trivial

structure EngineInv (m : TunnelManager) : Prop where
  attached : ∀ id ∈ m.table, ∀ t, m.objects id = some t → t.Attached
  one : ∀ a ∈ m.table, ∀ b ∈ m.table, m.hasEngine a = true → m.hasEngine b = true → a = b

section Steps

variable {m m' : TunnelManager} {id : String} {t t' : Tunnel}

theorem EngineInv.atMostOneLive (h : EngineInv m) : AtMostOneLive m := by
  have hengine : ∀ id ∈ m.table, m.isLive id = true → m.hasEngine id = true := by
    intro id hid hlive
    obtain ⟨t, ht, hlive⟩ := (Option.any_eq_true _ _).mp hlive
    exact (Option.any_eq_true _ _).mpr ⟨t, ht, h.attached id hid t ht hlive⟩
  intro a ha b hb hla hlb
  exact h.one a ha b hb (hengine a ha hla) (hengine b hb hlb)

/-- Tunnels may leave the table. -/
theorem EngineInv.subset (h : EngineInv m) (hobj : m'.objects = m.objects)
    (htable : m'.table ⊆ m.table) : EngineInv m' where
  attached id hid t ht := h.attached id (htable hid) t (by rwa [← hobj])
  one a ha b hb hea heb := by
    simp only [TunnelManager.hasEngine, hobj] at hea heb
    exact h.one a (htable ha) b (htable hb) hea heb

/-- One tunnel changes, and gets an engine only if no other has one. -/
theorem EngineInv.setTunnel (h : EngineInv m) (ht : id ∈ m.table → t'.Attached)
    (hothers : id ∈ m.table → t'.engine.isSome = true →
      ∀ other ∈ m.table, other ≠ id → m.hasEngine other = false) :
    EngineInv (m.setTunnel id t') := by
  have hne : ∀ other, other ≠ id → (m.setTunnel id t').objects other = m.objects other :=
    fun _ hne => m.setTunnel_of_ne t' hne
  have hself : (m.setTunnel id t').objects id = some t' := m.setTunnel_self id t'
  have hclash : ∀ other ∈ m.table, id ∈ m.table → other ≠ id →
      (m.setTunnel id t').hasEngine id = true →
      (m.setTunnel id t').hasEngine other = true → False := by
    intro other hother hid hoid heid heother
    rw [TunnelManager.hasEngine, hself] at heid
    rw [TunnelManager.hasEngine, hne other hoid] at heother
    have hfalse := hothers hid heid other hother hoid
    rw [TunnelManager.hasEngine, heother] at hfalse
    cases hfalse
  refine ⟨fun a ha s hs => ?_, fun a ha b hb hea heb => ?_⟩
  · by_cases haid : a = id
    · subst haid
      rw [hself] at hs
      cases hs
      exact ht ha
    · rw [hne a haid] at hs
      exact h.attached a ha s hs
  · by_cases haid : a = id <;> by_cases hbid : b = id
    · rw [haid, hbid]
    · subst haid
      exact (hclash b hb ha hbid hea heb).elim
    · subst hbid
      exact (hclash a ha hb haid heb hea).elim
    · simp only [TunnelManager.hasEngine, hne a haid, hne b hbid] at hea heb
      exact h.one a ha b hb hea heb

/-- A tunnel that gets no engine it did not have. -/
theorem EngineInv.update (h : EngineInv m) (hobj : m.objects id = some t)
    (ht : id ∈ m.table → t.Attached → t'.Attached)
    (he : t'.engine.isSome = true → t.engine.isSome = true) : EngineInv (m.setTunnel id t') := by
  refine h.setTunnel (fun hid => ht hid (h.attached id hid t hobj)) ?_
  intro hid hengine other hother hne
  have hself : m.hasEngine id = true := (Option.any_eq_true _ _).mpr ⟨t, hobj, he hengine⟩
  by_contra hcon
  exact hne (h.one other hother id hid (eq_true_of_ne_false hcon) hself)

theorem EngineInv.disconnect (h : EngineInv m) (id : String) (callbacks : List Callback) :
    EngineInv (m.disconnect id callbacks).2 := by
  unfold TunnelManager.disconnect
  split
  · next t hobj =>
    refine h.update hobj (fun _ ht => t.disconnect_attached ht callbacks) fun he => ?_
    obtain heq | ⟨hnone, -⟩ := t.disconnect_engine callbacks
    · rwa [heq] at he
    · rw [hnone] at he
      cases he
  · exact h

theorem EngineInv.disconnectEach (h : EngineInv m) (callbacks : String → List Callback)
    (ids : List String) (first : Status) :
    EngineInv (TunnelManager.disconnectEach callbacks ids first m).2 := by
  induction ids generalizing m first with
  | nil => exact h
  | cons id ids ih => exact ih (h.disconnect id (callbacks id)) _

theorem EngineInv.disconnectAll (h : EngineInv m) (callbacks : String → List Callback) :
    EngineInv (m.disconnectAll callbacks).2 :=
  h.disconnectEach callbacks m.table .ok

theorem EngineInv.destroy (h : EngineInv m) (tunnelId first : String)
    (callbacks : List Callback) : EngineInv (m.destroy tunnelId first callbacks).2 := by
  unfold TunnelManager.destroy
  split
  · refine EngineInv.disconnect ?_ tunnelId callbacks
    exact h.subset rfl fun _ hid => List.mem_of_mem_erase hid
  · exact h

/-- A tunnel without an engine enters the table. -/
theorem EngineInv.insert (h : EngineInv m) (hobj : m.objects id = some t) (ht : t.Attached)
    (he : t.engine = none) (hobjs : m'.objects = m.objects) (htable : m'.table = id :: m.table) :
    EngineInv m' := by
  have hnone : m'.hasEngine id = false := by
    rw [TunnelManager.hasEngine, hobjs, hobj, Option.any_some, he]
    rfl
  have hmem : ∀ a ∈ m'.table, a = id ∨ a ∈ m.table := by
    intro a ha
    rwa [htable, List.mem_cons] at ha
  have hold : ∀ a ∈ m'.table, m'.hasEngine a = true → a ∈ m.table ∧ m.hasEngine a = true := by
    intro a ha hea
    obtain rfl | ha := hmem a ha
    · rw [hnone] at hea
      cases hea
    · rw [TunnelManager.hasEngine, hobjs] at hea
      exact ⟨ha, hea⟩
  refine ⟨fun a ha s hs => ?_, fun a ha b hb hea heb => ?_⟩
  · rw [hobjs] at hs
    obtain rfl | ha := hmem a ha
    · rw [hobj] at hs
      cases hs
      exact ht
    · exact h.attached a ha s hs
  · obtain ⟨ha, hea⟩ := hold a ha hea
    obtain ⟨hb, heb⟩ := hold b hb heb
    exact h.one a ha b hb hea heb

theorem EngineInv.create (h : EngineInv m) {profile : Status}
    (hc : m.create profile id = .ok m') : EngineInv m' := by
  unfold TunnelManager.create at hc
  split at hc
  · cases hc
  split at hc
  · cases hc
  cases hc
  have hset : EngineInv (m.setTunnel id { id }) := h.setTunnel (fun _ => nofun) fun _ => nofun
  exact hset.insert (m.setTunnel_self id { id }) nofun rfl rfl rfl

theorem EngineInv.connect (h : EngineInv m) (hobj : m.objects id = some t) {answers : EngineAnswers}
    (hothers : id ∈ m.table → answers.created.isOk = true →
      ∀ other ∈ m.table, other ≠ id → m.hasEngine other = false) :
    EngineInv (m.setTunnel id (t.connect m.registry answers).2) := by
  obtain heq | ⟨engine, hcreated, -⟩ := t.connect_engine m.registry answers
  · rw [heq]
    exact h.update hobj (fun _ ht => ht) fun he => he
  · refine h.setTunnel (fun hid => t.connect_attached (h.attached id hid t hobj) _ _) ?_
    intro hid _
    exact hothers hid (by rw [hcreated]; rfl)

/-- Every step that meets the condition keeps the invariant. -/
theorem EngineInv.step {s s' : Clients} {act : ClientAct} (h : EngineInv s.manager)
    (hok : Exclusive s act) (hs : s.step act = some s') : EngineInv s'.manager := by
  cases act with
  | connectRequest connection profile callbacks =>
    simp only [Clients.step] at hs
    split at hs
    · split at hs <;> cases hs
      · exact h
      · exact h.disconnectAll callbacks
    · cases hs
  | create connection profile id =>
    simp only [Clients.step] at hs
    split at hs
    · split at hs <;> cases hs
      · exact h
      · next hc => exact h.create hc
    · cases hs
  | connect connection answers =>
    simp only [Clients.step] at hs
    split at hs
    · next id hid =>
      obtain ⟨t, hobj, hs⟩ := Option.bind_eq_some_iff.mp hs
      cases hs
      rw [Exclusive, hid] at hok
      exact h.connect hobj hok
    · cases hs
  | destroyFailed connection first callbacks =>
    simp only [Clients.step] at hs
    split at hs <;> cases hs
    exact h.destroy _ first callbacks
  | disconnectRequest connection tunnelId first callbacks =>
    simp only [Clients.step] at hs
    split at hs <;> cases hs
    exact h.destroy tunnelId first callbacks
  | disconnectAllRequest connection callbacks =>
    simp only [Clients.step] at hs
    split at hs <;> cases hs
    exact h.disconnectAll callbacks
  | reconnectRequest connection tunnelId =>
    simp only [Clients.step] at hs
    split at hs
    · split at hs <;> cases hs
      · exact h
      · exact h
    · cases hs
  | reconnect connection renegotiated =>
    simp only [Clients.step] at hs
    split at hs
    · obtain ⟨t, hobj, hs⟩ := Option.bind_eq_some_iff.mp hs
      cases hs
      refine h.update hobj (fun _ ht => Tunnel.reconnect_attached ht renegotiated) fun he => ?_
      rwa [Tunnel.reconnect_engine] at he
    · cases hs
  | engineCallback tunnelId callback =>
    obtain ⟨t, hobj, hs⟩ := Option.bind_eq_some_iff.mp hs
    cases hs
    refine h.update hobj (fun hid ht => t.callback_attached ht ?_) fun he => ?_
    · rintro state reason rfl hlive
      have hengine := hok hid hlive
      rwa [TunnelManager.hasEngine, hobj] at hengine
    · rwa [Tunnel.callback_engine] at he

end Steps

/-- At most one tunnel is live in every run that meets the condition. -/
theorem one_live {maxConcurrentTunnels : Nat} {registry : Bool} {acts : List ClientAct}
    {s : Clients}
    (hok : RunMeets Clients.step Exclusive { manager := { maxConcurrentTunnels, registry } } acts)
    (hr : run Clients.step { manager := { maxConcurrentTunnels, registry } } acts = some s) :
    AtMostOneLive s.manager := by
  have hinit : EngineInv { maxConcurrentTunnels, registry } :=
    ⟨fun _ hid => absurd hid List.not_mem_nil, fun _ hid => absurd hid List.not_mem_nil⟩
  have hinv : EngineInv s.manager :=
    run_invariant (I := fun s => EngineInv s.manager) (fun _ _ _ h hok hs => h.step hok hs) hinit
      hok hr
  exact hinv.atMostOneLive

/-- Two Connects, one after the other: the first tunnel is up when the
second replaces it. -/
def connectTwice : List ClientAct :=
  [.connectRequest 1 .ok fun _ => [], .create 1 .ok "a", .connect 1 { created := .ok 1 },
    .engineCallback "a" .sessionEstablished, .engineCallback "a" (.stateChanged .connected .ok),
    .connectRequest 2 .ok fun _ => [.stateChanged .disconnected .ok], .create 2 .ok "b",
    .connect 2 { created := .ok 2 }]

theorem one_live_connectTwice : ∃ s, run Clients.step {} connectTwice = some s ∧
    s.manager.table = ["b", "a"] ∧ AtMostOneLive s.manager := by
  have hok : RunMeets Clients.step Exclusive {} connectTwice := by decide
  exact ⟨_, rfl, rfl, one_live hok rfl⟩

/-- Two Connects that interleave. -/
def connectsInterleaved : List ClientAct :=
  [.connectRequest 1 .ok fun _ => [], .connectRequest 2 .ok fun _ => [], .create 1 .ok "a",
    .create 2 .ok "b", .connect 1 { created := .ok 1 }, .connect 2 { created := .ok 2 }]

theorem two_connects_live : ¬ ∀ acts s, run Clients.step {} acts = some s →
    AtMostOneLive s.manager := by
  intro h
  have hlive := h connectsInterleaved _ rfl
  have hab : "a" = "b" := hlive "a" (by decide) "b" (by decide) (by decide) (by decide)
  exact absurd hab (by decide)

/-- One request after another: the engine of the first tunnel reports
Disconnected, a Connect passes it over, and a Reconnect brings it back. -/
example : (run Clients.step {}
    [.connectRequest 1 .ok fun _ => [], .create 1 .ok "a", .connect 1 { created := .ok 1 },
      .engineCallback "a" (.stateChanged .disconnected .ok),
      .connectRequest 2 .ok fun _ => [], .create 2 .ok "b", .connect 2 { created := .ok 2 },
      .reconnectRequest 3 "a", .reconnect 3 .ok]).map
    (fun s => s.manager.table.map s.manager.isLive) = some [true, true] := by
  decide

end NovaVpn
