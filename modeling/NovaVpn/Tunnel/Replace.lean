import NovaVpn.Tunnel.Manager

/-!
# Connecting replaces what is running

The Connect handler of `Services/ServiceApi.cpp` from its first call to its
answer, with no other request in between; `connectHandler_run` says that it
is a run of the steps of `Clients`. `Replaces` is what a sequence of Connects
is to do: each one succeeds, and leaves its tunnel as the only one that is not
Disconnected and as the primary one.

The tunnels `disconnectAll` stops stay in the table and the primary one stays
what it was, so a second Connect leaves the first tunnel primary or finds the
limit reached: `replaces_iff`.
-/

namespace NovaVpn

open NovaVpn.Framework

namespace TunnelManager

/-- `primary`: the id of the tunnel returned. -/
def primaryTunnel (m : TunnelManager) : Result String :=
  if m.primary = "" then .error (Err.notFound "no primary tunnel")
  else if m.primary ∈ m.table then .ok m.primary
  else .error (Err.notFound "primary tunnel no longer exists")

def isDisconnected (m : TunnelManager) (id : String) : Bool :=
  (m.objects id).any fun t => t.state == .disconnected

/-- A callback of the engine of a tunnel. -/
def callback (m : TunnelManager) (c : String × Callback) : TunnelManager :=
  match m.objects c.1 with
  | some t => m.setTunnel c.1 (t.callback c.2)
  | none => m

end TunnelManager

/-- What the outside decides of one Connect. -/
structure ConnectCall where
  /-- The new uuid. -/
  id : String
  /-- Whether the profile is stored. -/
  stored : Status := .ok
  /-- Whether it is valid. -/
  profile : Status := .ok
  /-- The callbacks of the engines that are stopped. -/
  stopping : String → List Callback := fun _ => []
  answers : EngineAnswers
  /-- The tunnel a walk over the table begins with. -/
  first : String := ""
  destroying : List Callback := []

/-- The Connect handler; it answers with the id of the tunnel. -/
def TunnelManager.connectHandler (m : TunnelManager) (c : ConnectCall) :
    Result String × TunnelManager :=
  if c.stored.isError then (.error c.stored, m)
  else
    let m := (m.disconnectAll c.stopping).2
    match m.create c.profile c.id with
    | .error status => (.error status, m)
    | .ok m =>
      let (status, t) := ((m.objects c.id).getD { id := c.id }).connect m.registry c.answers
      let m := m.setTunnel c.id t
      if status.isError then (.error status, (m.destroy c.id c.first c.destroying).2)
      else (.ok c.id, m)

theorem TunnelManager.create_objects {m m' : TunnelManager} {profile : Status} {id : String}
    (h : m.create profile id = .ok m') : m'.objects id = some { id } := by
  unfold TunnelManager.create at h
  split at h
  · cases h
  split at h
  · cases h
  cases h
  exact m.setTunnel_self id { id }

/-- The handler is a run of the steps, with nothing in between. -/
theorem connectHandler_run {s : Clients} {connection : Nat} {c : ConnectCall}
    (hidle : s.handling connection = .idle)
    (hfresh : (s.manager.disconnectAll c.stopping).2.objects c.id = none) :
    ∃ acts, run Clients.step s acts =
      some { s with manager := (s.manager.connectHandler c).2 } := by
  have hback : Function.update s.handling connection .idle = s.handling := by
    rw [← hidle, Function.update_eq_self]
  unfold TunnelManager.connectHandler
  split
  · next hstored =>
    refine ⟨[.connectRequest connection c.stored c.stopping], ?_⟩
    simp [run, Clients.step, hidle, hstored]
  · next hstored =>
    cases hc : (s.manager.disconnectAll c.stopping).2.create c.profile c.id with
    | error status =>
      refine ⟨[.connectRequest connection c.stored c.stopping, .create connection c.profile c.id], ?_⟩
      simp [run, Clients.step, Clients.setHandling, hidle, hstored, hfresh, hc, hback]
    | ok m =>
      have hobj := TunnelManager.create_objects hc
      simp only [hc, hobj, Option.getD_some]
      split
      · next herr =>
        refine ⟨[.connectRequest connection c.stored c.stopping, .create connection c.profile c.id,
          .connect connection c.answers, .destroyFailed connection c.first c.destroying], ?_⟩
        simp [run, Clients.step, Clients.setHandling, hidle, hstored, hfresh, hc, hobj, herr, hback]
      · next herr =>
        refine ⟨[.connectRequest connection c.stored c.stopping, .create connection c.profile c.id,
          .connect connection c.answers], ?_⟩
        simp [run, Clients.step, Clients.setHandling, hidle, hstored, hfresh, hc, hobj, herr, hback]

/-! ## Sequences of Connects -/

/-- One Connect of a sequence, with a valid stored profile and an engine that
is created, valid and starts. -/
structure ConnectOk where
  id : String
  engine : Nat
  /-- The callbacks from inside `start`. -/
  callbacks : List Callback := []
  stopping : String → List Callback := fun _ => []
  /-- The callbacks until the next request. -/
  later : List (String × Callback) := []

def ConnectOk.call (c : ConnectOk) : ConnectCall where
  id := c.id
  stopping := c.stopping
  answers := { created := .ok c.engine, callbacks := c.callbacks }

/-- A tunnel is the only one that is not Disconnected, and the primary one. -/
structure Replaced (m : TunnelManager) (id : String) : Prop where
  mem : id ∈ m.table
  running : m.isDisconnected id = false
  alone : ∀ other ∈ m.table, other ≠ id → m.isDisconnected other = true
  primary : m.primaryTunnel = .ok id

/-- Every Connect succeeds, and its tunnel has replaced the others after it. -/
def Replaces (m : TunnelManager) : List ConnectOk → Prop
  | [] => True
  | c :: cs =>
    (m.connectHandler c.call).1 = .ok c.id ∧ Replaced (m.connectHandler c.call).2 c.id ∧
      Replaces (c.later.foldl TunnelManager.callback (m.connectHandler c.call).2) cs

/-! ## What the manager keeps -/

/-- The ids, the primary one and the limit stay. -/
structure SameTable (m m' : TunnelManager) : Prop where
  table : m'.table = m.table
  primary : m'.primary = m.primary
  limit : m'.maxConcurrentTunnels = m.maxConcurrentTunnels
  registry : m'.registry = m.registry

namespace SameTable

variable {m m' m'' : TunnelManager}

theorem refl (m : TunnelManager) : SameTable m m := ⟨rfl, rfl, rfl, rfl⟩

theorem trans (h : SameTable m m') (h' : SameTable m' m'') : SameTable m m'' :=
  ⟨h'.table.trans h.table, h'.primary.trans h.primary, h'.limit.trans h.limit,
    h'.registry.trans h.registry⟩

theorem setTunnel (m : TunnelManager) (id : String) (t : Tunnel) : SameTable m (m.setTunnel id t) :=
  ⟨rfl, rfl, rfl, rfl⟩

theorem disconnect (m : TunnelManager) (id : String) (callbacks : List Callback) :
    SameTable m (m.disconnect id callbacks).2 := by
  unfold TunnelManager.disconnect
  split
  · exact setTunnel _ _ _
  · exact refl m

theorem disconnectEach (callbacks : String → List Callback) (ids : List String) (first : Status)
    (m : TunnelManager) : SameTable m (TunnelManager.disconnectEach callbacks ids first m).2 := by
  induction ids generalizing m first with
  | nil => exact refl m
  | cons id ids ih => exact (disconnect m id (callbacks id)).trans (ih _ _)

theorem disconnectAll (m : TunnelManager) (callbacks : String → List Callback) :
    SameTable m (m.disconnectAll callbacks).2 :=
  disconnectEach callbacks m.table .ok m

theorem callbacks (m : TunnelManager) (cs : List (String × Callback)) :
    SameTable m (cs.foldl TunnelManager.callback m) := by
  induction cs generalizing m with
  | nil => exact refl m
  | cons c cs ih =>
    refine trans ?_ (ih (m.callback c))
    unfold TunnelManager.callback
    split
    · exact setTunnel _ _ _
    · exact refl m

end SameTable

theorem TunnelManager.create_ok {m : TunnelManager} {id : String}
    (h : m.table.length < m.maxConcurrentTunnels) :
    m.create .ok id = .ok { m.setTunnel id { id } with
      table := id :: m.table
      primary := if m.primary = "" then id else m.primary } := by
  rw [TunnelManager.create, if_neg (by decide), if_neg (by omega)]

/-- A new tunnel connects. -/
theorem Tunnel.connect_new (id : String) (engine : Nat) (callbacks : List Callback) :
    (({ id } : Tunnel).connect true { created := .ok engine, callbacks }) =
      (.ok, callbacks.foldl callback
        (({ id, engine := some engine } : Tunnel).transition .connecting .ok 1)) := rfl

/-- The state an engine reported last. -/
def lastState : List Callback → Option ConnectionState
  | [] => none
  | .stateChanged state _ :: cs => (lastState cs).or (some state)
  | .sessionEstablished :: cs => lastState cs

theorem Tunnel.callbacks_state (t : Tunnel) (cs : List Callback) :
    (cs.foldl callback t).state = (lastState cs).getD t.state := by
  induction cs generalizing t with
  | nil => rfl
  | cons c cs ih =>
    rw [List.foldl_cons, ih]
    cases c with
    | stateChanged state reason =>
      rw [callback, onEngineState_state, lastState]
      cases lastState cs <;> rfl
    | sessionEstablished => rfl

/-! ## When Connects replace -/

section

variable {m : TunnelManager} {c : ConnectOk}

/-- A Connect below the limit: its tunnel joins the others, and is the primary
one only if there was none. -/
theorem connectHandler_accepted (hlimit : m.table.length < m.maxConcurrentTunnels)
    (hregistry : m.registry = true) :
    (m.connectHandler c.call).1 = .ok c.id ∧
      (m.connectHandler c.call).2.table = c.id :: m.table ∧
      (m.connectHandler c.call).2.primary = (if m.primary = "" then c.id else m.primary) ∧
      (m.connectHandler c.call).2.registry = true ∧
      ∃ t, (m.connectHandler c.call).2.objects c.id = some t ∧
        t.state = (lastState c.callbacks).getD .connecting := by
  have hsame := SameTable.disconnectAll m c.stopping
  have hlen : (m.disconnectAll c.stopping).2.table.length <
      (m.disconnectAll c.stopping).2.maxConcurrentTunnels := by
    rw [hsame.table, hsame.limit]
    exact hlimit
  have hself : ∀ (f : String → Option Tunnel) (t : Tunnel),
      Function.update f c.id (some t) c.id = some t := fun f t => Function.update_self _ _ _
  unfold TunnelManager.connectHandler
  simp only [ConnectOk.call, Status.isError_ok, Bool.false_eq_true, if_false,
    TunnelManager.create_ok hlen, TunnelManager.setTunnel, hself, Option.getD_some,
    hsame.registry, hregistry, Tunnel.connect_new, hsame.table, hsame.primary, true_and]
  refine ⟨_, rfl, ?_⟩
  rw [Tunnel.callbacks_state, Tunnel.transition_state]

theorem connectHandler_refused (hlimit : m.maxConcurrentTunnels ≤ m.table.length) :
    ∃ status, (m.connectHandler c.call).1 = .error status := by
  have hsame := SameTable.disconnectAll m c.stopping
  unfold TunnelManager.connectHandler
  simp only [ConnectOk.call, Status.isError_ok, Bool.false_eq_true, if_false,
    TunnelManager.create, hsame.table, hsame.limit, ge_iff_le, hlimit, if_true]
  exact ⟨_, rfl⟩

/-- The first Connect replaces unless its engine has reported Disconnected
when `start` returns. -/
theorem replaced_first_iff (htable : m.table = []) (hprimary : m.primary = "") (hid : c.id ≠ "")
    (hlimit : 1 ≤ m.maxConcurrentTunnels) (hregistry : m.registry = true) :
    Replaced (m.connectHandler c.call).2 c.id ↔ lastState c.callbacks ≠ some .disconnected := by
  have hlen : m.table.length < m.maxConcurrentTunnels := by
    rw [htable]
    exact hlimit
  obtain ⟨-, ht, hp, -, t, hobj, hstate⟩ := connectHandler_accepted (c := c) hlen hregistry
  rw [htable] at ht
  rw [hprimary, if_pos rfl] at hp
  have hdisc : (m.connectHandler c.call).2.isDisconnected c.id = false ↔
      lastState c.callbacks ≠ some .disconnected := by
    rw [TunnelManager.isDisconnected, hobj, Option.any_some, hstate, beq_eq_false_iff_ne]
    cases lastState c.callbacks <;> simp
  refine ⟨fun h => hdisc.mp h.running, fun h => ⟨?_, hdisc.mpr h, ?_, ?_⟩⟩
  · rw [ht]
    exact List.mem_singleton_self _
  · intro other hother hne
    rw [ht, List.mem_singleton] at hother
    exact absurd hother hne
  · rw [TunnelManager.primaryTunnel, hp, ht, if_neg hid, if_pos (List.mem_singleton_self _)]

/-- A Connect that finds another primary tunnel fails or leaves it primary. -/
theorem not_replaced_second (hprimary : m.primary ≠ "") (hne : c.id ≠ m.primary)
    (hregistry : m.registry = true) (hok : (m.connectHandler c.call).1 = .ok c.id) :
    ¬ Replaced (m.connectHandler c.call).2 c.id := by
  intro h
  rcases Nat.lt_or_ge m.table.length m.maxConcurrentTunnels with hlt | hge
  · obtain ⟨-, -, hp, -⟩ := connectHandler_accepted (c := c) hlt hregistry
    rw [if_neg hprimary] at hp
    have hprim := h.primary
    rw [TunnelManager.primaryTunnel, hp, if_neg hprimary] at hprim
    split at hprim
    · exact hne (Except.ok.inj hprim).symm
    · cases hprim
  · obtain ⟨status, herr⟩ := connectHandler_refused (c := c) hge
    rw [herr] at hok
    cases hok

end

/-- A sequence of Connects, each with an engine that is created, valid and
starts: it replaces each time if, and only if, it is one Connect at most, and
its engine does not report Disconnected last from inside `start`. The ids are
the uuids: new each time, and not empty. -/
theorem replaces_iff {limit : Nat} (hlimit : 1 ≤ limit) {cs : List ConnectOk}
    (hnew : (cs.map (·.id)).Nodup) (hids : ∀ c ∈ cs, c.id ≠ "") :
    Replaces { maxConcurrentTunnels := limit } cs ↔
      cs.length ≤ 1 ∧ ∀ c ∈ cs, lastState c.callbacks ≠ some .disconnected := by
  match cs with
  | [] => simp [Replaces]
  | [c] =>
    have hid := hids c List.mem_cons_self
    have hacc := connectHandler_accepted (m := { maxConcurrentTunnels := limit }) (c := c) hlimit rfl
    have hrep := replaced_first_iff (m := { maxConcurrentTunnels := limit }) (c := c) rfl rfl hid
      hlimit rfl
    simp only [Replaces, hacc.1, true_and, and_true, hrep]
    simp
  | c :: d :: cs =>
    refine ⟨fun h => ?_, fun h => absurd h.1 (by simp)⟩
    have hid := hids c List.mem_cons_self
    have hne : d.id ≠ c.id := by
      simp only [List.map_cons, List.nodup_cons, List.mem_cons, not_or] at hnew
      exact Ne.symm hnew.1.1
    obtain ⟨-, -, hok, hrep, -⟩ := h
    obtain ⟨-, -, hp, hreg, -⟩ :=
      connectHandler_accepted (m := { maxConcurrentTunnels := limit }) (c := c) hlimit rfl
    rw [if_pos rfl] at hp
    have hsame := SameTable.callbacks
      (TunnelManager.connectHandler { maxConcurrentTunnels := limit } c.call).2 c.later
    have hprimary := hsame.primary.trans hp
    exact absurd hrep (not_replaced_second (by rw [hprimary]; exact hid)
      (by rw [hprimary]; exact hne) (hsame.registry.trans hreg) hok)

/-- A Connect whose engine comes up. -/
theorem replaces_one : Replaces { maxConcurrentTunnels := 1 }
    [{ id := "a", engine := 1, callbacks := [.stateChanged .connected .ok, .sessionEstablished] }] :=
  (replaces_iff (Nat.le_refl 1) (by decide) (by decide)).mpr (by decide)

/-- The second of two Connects leaves the first tunnel primary. -/
theorem second_connect_not_primary :
    ¬ Replaces { maxConcurrentTunnels := 4 } [{ id := "a", engine := 1 }, { id := "b", engine := 2 }] ∧
      (((({ maxConcurrentTunnels := 4 } : TunnelManager).connectHandler
          (ConnectOk.call { id := "a", engine := 1 })).2.connectHandler
            (ConnectOk.call { id := "b", engine := 2 })).2.primaryTunnel) = .ok "a" := by
  refine ⟨fun h => ?_, rfl⟩
  obtain ⟨-, -, -, hb, -⟩ := h
  have hab : "a" = "b" := Except.ok.inj hb.primary
  exact absurd hab (by decide)

/-- With a limit of one, it is refused. -/
example : (((({ maxConcurrentTunnels := 1 } : TunnelManager).connectHandler
    (ConnectOk.call { id := "a", engine := 1 })).2.connectHandler
      (ConnectOk.call { id := "b", engine := 2 })).1).isOk = false := by
  decide

end NovaVpn
