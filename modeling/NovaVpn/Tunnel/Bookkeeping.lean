import Mathlib.Logic.Basic
import NovaVpn.Profiles.Profile
import NovaVpn.Tunnel.Replace

/-!
# The bookkeeping of the tunnel manager

`all` and `setPrimary` of `TunnelManager`, and every sequence of its calls,
each with its answer. Between the calls the tunnels come to any states they
like: they connect, and their engines call back.

The primary id is kept apart from the table and chosen again when its tunnel
is destroyed. `TableInv` says how the two belong together: the empty id stands
for no primary tunnel, so no tunnel may have it, and one that is destroyed
must not be left as the primary one. `bookkeeping` is the result over all
runs.
-/

namespace NovaVpn

open NovaVpn.Framework NovaVpn.Profiles

/-- The text of a uuid, as `Uuid::toString` writes it. -/
structure UuidText where
  text : String
  length : text.length = 36

/-- A call on the manager, with what the outside decides of it: the new uuid,
the tunnel a walk over the table begins with, and the callbacks of the engines
that are stopped. -/
inductive ManagerCall where
  | create (profile : Profile) (uuid : UuidText)
  | find (tunnelId : String)
  | destroy (tunnelId first : String) (callbacks : List Callback)
  | disconnectAll (callbacks : String → List Callback)
  | setPrimary (tunnelId : String)

namespace TunnelManager

/-- The tunnels of the table. -/
def all (m : TunnelManager) : List Tunnel := m.table.filterMap m.objects

def setPrimary (m : TunnelManager) (tunnelId : String) : Status × TunnelManager :=
  if tunnelId ∈ m.table then (.ok, { m with primary := tunnelId })
  else (Err.notFound ("no tunnel with id " ++ tunnelId), m)

/-- The status a call returns, and the manager after it. -/
def call (m : TunnelManager) : ManagerCall → Status × TunnelManager
  | .create profile uuid =>
    match m.create profile.validate uuid.text with
    | .ok m' => (.ok, m')
    | .error status => (status, m)
  | .find tunnelId =>
    match m.find tunnelId with
    | .ok _ => (.ok, m)
    | .error status => (status, m)
  | .destroy tunnelId first callbacks => m.destroy tunnelId first callbacks
  | .disconnectAll callbacks => m.disconnectAll callbacks
  | .setPrimary tunnelId => m.setPrimary tunnelId

end TunnelManager

inductive ManagerAct where
  | call (call : ManagerCall)
  /-- A tunnel comes to another state. -/
  | tunnel (id : String) (t : Tunnel)

namespace ManagerAct

def step (m : TunnelManager) : ManagerAct → Option TunnelManager
  | .call c => some (m.call c).2
  | .tunnel id t => if (m.objects id).isSome then some (m.setTunnel id t) else none

/-- No tunnel of the manager has the new uuid. -/
def Fresh (m : TunnelManager) : ManagerAct → Prop
  | .call (.create _ uuid) => uuid.text ∉ m.table
  | _ => True

instance (m : TunnelManager) : DecidablePred (Fresh m)
  | .call (.create _ uuid) => inferInstanceAs (Decidable (uuid.text ∉ m.table))
  | .call (.find _) | .call (.destroy ..) | .call (.disconnectAll _) | .call (.setPrimary _)
  | .tunnel .. => isTrue trivial

end ManagerAct

/-! ## What the calls keep -/

/-- How the table, the tunnels and the primary id belong together. -/
structure TableInv (bound : Nat) (m : TunnelManager) : Prop where
  limit : m.maxConcurrentTunnels = bound
  bounded : m.table.length ≤ bound
  nodup : m.table.Nodup
  named : "" ∉ m.table
  made : ∀ id ∈ m.table, (m.objects id).isSome = true
  primary_mem : m.table ≠ [] → m.primary ∈ m.table
  primary_empty : m.table = [] → m.primary = ""

namespace TunnelManager

variable {m m' : TunnelManager} {id tunnelId : String}

theorem setTunnel_isSome {t : Tunnel} (h : (m.objects id).isSome = true) :
    ((m.setTunnel tunnelId t).objects id).isSome = true := by
  by_cases hid : id = tunnelId
  · rw [hid, setTunnel_self]
    rfl
  · rwa [m.setTunnel_of_ne t hid]

theorem disconnect_isSome (callbacks : List Callback) (h : (m.objects id).isSome = true) :
    ((m.disconnect tunnelId callbacks).2.objects id).isSome = true := by
  unfold disconnect
  split
  · exact setTunnel_isSome h
  · exact h

theorem disconnectEach_isSome (callbacks : String → List Callback) (ids : List String)
    (first : Status) (h : (m.objects id).isSome = true) :
    ((disconnectEach callbacks ids first m).2.objects id).isSome = true := by
  induction ids generalizing m first with
  | nil => exact h
  | cons tunnelId ids ih => exact ih _ (disconnect_isSome (callbacks tunnelId) h)

/-- Only the tunnel itself is disconnected. -/
theorem disconnect_of_ne (callbacks : List Callback) (hne : id ≠ tunnelId) :
    (m.disconnect tunnelId callbacks).2.objects id = m.objects id := by
  unfold disconnect
  split
  · exact m.setTunnel_of_ne _ hne
  · rfl

/-- A walk over a table that is not empty begins with a tunnel of it. -/
theorem beginId_mem {table : List String} (h : table ≠ []) (first : String) :
    beginId table first ∈ table := by
  unfold beginId
  split
  · assumption
  · cases table with
    | nil => exact absurd rfl h
    | cons id ids => exact List.mem_cons_self

theorem beginId_nil (first : String) : beginId [] first = "" := rfl

/-- `create` refuses, or the new tunnel joins the table. -/
theorem create_cases (m : TunnelManager) (profile : Status) (id : String) :
    (∃ status, m.create profile id = .error status) ∨
      m.table.length < m.maxConcurrentTunnels ∧
        m.create profile id = .ok { m.setTunnel id { id } with
          table := id :: m.table
          primary := if m.primary = "" then id else m.primary } := by
  unfold create
  split
  · exact .inl ⟨_, rfl⟩
  split
  · exact .inl ⟨_, rfl⟩
  next hlimit => exact .inr ⟨by omega, rfl⟩

/-- `destroy` of a tunnel of the table: it leaves, and another one is the
primary one if it was. -/
theorem destroy_of_mem (h : tunnelId ∈ m.table) (first : String) (callbacks : List Callback) :
    m.destroy tunnelId first callbacks =
      { m with
        table := m.table.erase tunnelId
        primary := if m.primary = tunnelId then beginId (m.table.erase tunnelId) first
          else m.primary }.disconnect tunnelId callbacks := by
  rw [destroy, if_pos h]

theorem destroy_of_notMem (h : tunnelId ∉ m.table) (first : String) (callbacks : List Callback) :
    m.destroy tunnelId first callbacks =
      (Err.notFound ("no tunnel with id " ++ tunnelId), m) := by
  rw [destroy, if_neg h]

end TunnelManager

namespace TableInv

variable {bound : Nat} {m m' : TunnelManager}

theorem of_sameTable (h : TableInv bound m) (hsame : SameTable m m')
    (hmade : ∀ id ∈ m.table, (m'.objects id).isSome = true) : TableInv bound m' where
  limit := hsame.limit.trans h.limit
  bounded := by
    rw [hsame.table]
    exact h.bounded
  nodup := by
    rw [hsame.table]
    exact h.nodup
  named := by
    rw [hsame.table]
    exact h.named
  made := by
    rw [hsame.table]
    exact hmade
  primary_mem := by
    rw [hsame.table, hsame.primary]
    exact h.primary_mem
  primary_empty := by
    rw [hsame.table, hsame.primary]
    exact h.primary_empty

/-- The primary id is empty only if there is no tunnel. -/
theorem primary_eq_empty_iff (h : TableInv bound m) : m.primary = "" ↔ m.table = [] := by
  refine ⟨fun hempty => ?_, h.primary_empty⟩
  by_contra hne
  have hmem := h.primary_mem hne
  rw [hempty] at hmem
  exact h.named hmem

theorem setTunnel (h : TableInv bound m) (id : String) (t : Tunnel) :
    TableInv bound (m.setTunnel id t) :=
  h.of_sameTable (SameTable.setTunnel m id t) fun _ hid =>
    TunnelManager.setTunnel_isSome (h.made _ hid)

theorem disconnect (h : TableInv bound m) (id : String) (callbacks : List Callback) :
    TableInv bound (m.disconnect id callbacks).2 :=
  h.of_sameTable (SameTable.disconnect m id callbacks) fun _ hid =>
    TunnelManager.disconnect_isSome callbacks (h.made _ hid)

theorem disconnectAll (h : TableInv bound m) (callbacks : String → List Callback) :
    TableInv bound (m.disconnectAll callbacks).2 :=
  h.of_sameTable (SameTable.disconnectAll m callbacks) fun _ hid =>
    TunnelManager.disconnectEach_isSome callbacks m.table .ok (h.made _ hid)

theorem create {profile : Status} {uuid : UuidText} (h : TableInv bound m)
    (hfresh : uuid.text ∉ m.table) (hc : m.create profile uuid.text = .ok m') : TableInv bound m' := by
  obtain ⟨status, herr⟩ | ⟨hlimit, hok⟩ := m.create_cases profile uuid.text
  · rw [herr] at hc
    cases hc
  rw [hok] at hc
  cases hc
  refine ⟨h.limit, h.limit ▸ hlimit, List.nodup_cons.mpr ⟨hfresh, h.nodup⟩, ?_, ?_, ?_, ?_⟩
  · have hname : uuid.text ≠ "" := by
      intro hempty
      have hlen := uuid.length
      rw [hempty] at hlen
      cases hlen
    rw [List.mem_cons, not_or]
    exact ⟨hname.symm, h.named⟩
  · intro id hid
    by_cases heq : id = uuid.text
    · rw [heq]
      exact congrArg Option.isSome (m.setTunnel_self uuid.text { id := uuid.text })
    · exact TunnelManager.setTunnel_isSome (h.made id ((List.mem_cons.mp hid).resolve_left heq))
  · intro _
    dsimp only
    split
    · exact List.mem_cons_self
    · next hprimary =>
      have hne : m.table ≠ [] := fun htable => hprimary (h.primary_empty htable)
      exact List.mem_cons_of_mem _ (h.primary_mem hne)
  · intro hnil
    exact absurd hnil (List.cons_ne_nil _ _)

theorem destroy (h : TableInv bound m) (tunnelId first : String) (callbacks : List Callback) :
    TableInv bound (m.destroy tunnelId first callbacks).2 := by
  by_cases hid : tunnelId ∈ m.table
  · rw [TunnelManager.destroy_of_mem hid]
    refine TableInv.disconnect ?_ tunnelId callbacks
    refine ⟨h.limit, ?_, h.nodup.erase tunnelId, fun hmem => h.named (List.mem_of_mem_erase hmem),
      fun id hmem => h.made id (List.mem_of_mem_erase hmem), ?_, ?_⟩
    · have hlen := List.length_erase_of_mem hid
      have hle := h.bounded
      dsimp only
      omega
    · intro hne
      dsimp only
      split
      · exact TunnelManager.beginId_mem hne first
      · next hprimary =>
        have hmem := h.primary_mem (List.ne_nil_of_mem hid)
        exact (List.mem_erase_of_ne hprimary).mpr hmem
    · intro hnil
      dsimp only at hnil ⊢
      split
      · rw [hnil]
        exact TunnelManager.beginId_nil first
      · next hprimary =>
        -- a primary tunnel that stays would be left in the table
        have hmem := h.primary_mem (List.ne_nil_of_mem hid)
        have hstays := (List.mem_erase_of_ne hprimary).mpr hmem
        rw [hnil] at hstays
        exact absurd hstays List.not_mem_nil
  · rwa [TunnelManager.destroy_of_notMem hid]

theorem setPrimary (h : TableInv bound m) (tunnelId : String) :
    TableInv bound (m.setPrimary tunnelId).2 := by
  unfold TunnelManager.setPrimary
  split
  · next hid =>
    exact ⟨h.limit, h.bounded, h.nodup, h.named, h.made, fun _ => hid,
      fun hnil => absurd hnil (List.ne_nil_of_mem hid)⟩
  · exact h

/-- Every step with a fresh uuid keeps the invariant. -/
theorem step {act : ManagerAct} (h : TableInv bound m) (hfresh : act.Fresh m)
    (hs : act.step m = some m') : TableInv bound m' := by
  cases act with
  | tunnel id t =>
    simp only [ManagerAct.step] at hs
    split at hs <;> cases hs
    exact h.setTunnel id t
  | call c =>
    cases hs
    cases c with
    | create profile uuid =>
      simp only [TunnelManager.call]
      split
      · next hc => exact h.create hfresh hc
      · exact h
    | find tunnelId =>
      simp only [TunnelManager.call]
      split
      · exact h
      · exact h
    | destroy tunnelId first callbacks => exact h.destroy tunnelId first callbacks
    | disconnectAll callbacks => exact h.disconnectAll callbacks
    | setPrimary tunnelId => exact h.setPrimary tunnelId

end TableInv
/-! ## The answers -/

/-- What holds of a manager with `limit` tunnels at most. -/
structure Bookkept (limit : Nat) (m : TunnelManager) : Prop where
  bounded : m.table.length ≤ limit
  /-- Every entry of the table is a tunnel of `all`. -/
  all_length : m.all.length = m.table.length
  primary_iff : m.primaryTunnel.isOk = true ↔ m.all ≠ []
  primary_mem : ∀ id, m.primaryTunnel = .ok id → ∃ t ∈ m.all, m.find id = .ok t

/-- The call destroys a tunnel of the table. -/
def ManagerCall.Destroys (m : TunnelManager) (tunnelId : String) : ManagerCall → Prop
  | .destroy id _ _ => id = tunnelId ∧ tunnelId ∈ m.table
  | _ => False

/-- What a call does to the tunnels and the primary one. -/
structure CallKept (m : TunnelManager) (c : ManagerCall) : Prop where
  /-- Exactly the destroyed tunnel is gone. -/
  destroyed : ∀ tunnelId, c.Destroys m tunnelId →
    ∀ id, id ∈ (m.call c).2.table ↔ id ∈ m.table ∧ id ≠ tunnelId
  /-- The others are what they were. -/
  others : ∀ tunnelId, c.Destroys m tunnelId →
    ∀ id, id ≠ tunnelId → (m.call c).2.find id = m.find id
  /-- The primary one changes only if it was destroyed. -/
  primary : ∀ tunnelId, c.Destroys m tunnelId → m.primary ≠ tunnelId →
    (m.call c).2.primaryTunnel = m.primaryTunnel
  /-- A call that returns an error changes nothing. -/
  failed : (m.call c).1.isError = true → (m.call c).2 = m

namespace TunnelManager

variable {m : TunnelManager} {id tunnelId : String}

theorem disconnect_fst (m : TunnelManager) (id : String) (callbacks : List Callback) :
    (m.disconnect id callbacks).1 = .ok := by
  unfold disconnect Tunnel.disconnect
  split
  · dsimp only
    split <;> rfl
  · rfl

theorem disconnectEach_fst (callbacks : String → List Callback) (ids : List String)
    (m : TunnelManager) : (disconnectEach callbacks ids .ok m).1 = .ok := by
  induction ids generalizing m with
  | nil => rfl
  | cons id ids ih =>
    have hstatus := m.disconnect_fst id (callbacks id)
    simp only [disconnectEach, hstatus]
    exact ih _

/-- The manager after a `destroy` of a tunnel of the table. -/
theorem destroy_table (h : tunnelId ∈ m.table) (first : String) (callbacks : List Callback) :
    (m.destroy tunnelId first callbacks).2.table = m.table.erase tunnelId := by
  rw [destroy_of_mem h, (SameTable.disconnect _ tunnelId callbacks).table]

theorem destroy_objects_of_ne (hne : id ≠ tunnelId) (first : String) (callbacks : List Callback) :
    (m.destroy tunnelId first callbacks).2.objects id = m.objects id := by
  unfold destroy
  split
  · exact disconnect_of_ne callbacks hne
  · rfl

theorem destroy_primary_of_ne (hne : m.primary ≠ tunnelId) (first : String)
    (callbacks : List Callback) :
    (m.destroy tunnelId first callbacks).2.primary = m.primary := by
  by_cases hid : tunnelId ∈ m.table
  · rw [destroy_of_mem hid, (SameTable.disconnect _ tunnelId callbacks).primary]
    exact if_neg hne
  · rw [destroy_of_notMem hid]

/-- Every call that returns an error refused before it did anything. -/
theorem call_of_isError {c : ManagerCall} (h : (m.call c).1.isError = true) :
    (m.call c).2 = m := by
  cases c with
  | create profile uuid =>
    simp only [call] at h ⊢
    split at h
    · cases h
    · rfl
  | find tunnelId =>
    simp only [call]
    split <;> rfl
  | destroy tunnelId first callbacks =>
    simp only [call, destroy] at h ⊢
    split at h
    · rw [disconnect_fst] at h
      cases h
    · next hid => rw [if_neg hid]
  | disconnectAll callbacks =>
    rw [call, disconnectAll, disconnectEach_fst] at h
    cases h
  | setPrimary tunnelId =>
    simp only [call, setPrimary] at h ⊢
    split at h
    · cases h
    · next hid => rw [if_neg hid]

theorem callKept (h : m.table.Nodup) (c : ManagerCall) : CallKept m c where
  destroyed := by
    rintro tunnelId hc id
    cases c with
    | destroy _ first callbacks =>
      obtain ⟨rfl, hid⟩ := hc
      rw [call, destroy_table hid, h.mem_erase_iff, and_comm]
    | create | find | disconnectAll | setPrimary => exact hc.elim
  others := by
    rintro tunnelId hc id hne
    cases c with
    | destroy _ first callbacks =>
      obtain ⟨rfl, hid⟩ := hc
      simp only [find, call, destroy_table hid, destroy_objects_of_ne hne,
        List.mem_erase_of_ne hne]
    | create | find | disconnectAll | setPrimary => exact hc.elim
  primary := by
    rintro tunnelId hc hne
    cases c with
    | destroy _ first callbacks =>
      obtain ⟨rfl, hid⟩ := hc
      simp only [primaryTunnel, call, destroy_table hid, destroy_primary_of_ne hne,
        List.mem_erase_of_ne hne]
    | create | find | disconnectAll | setPrimary => exact hc.elim
  failed := call_of_isError

end TunnelManager

namespace TableInv

variable {bound : Nat} {m : TunnelManager}

theorem all_length (h : TableInv bound m) : m.all.length = m.table.length :=
  List.filterMap_length_eq_length.mpr h.made

theorem all_eq_nil_iff (h : TableInv bound m) : m.all = [] ↔ m.table = [] := by
  rw [← List.length_eq_zero_iff, h.all_length, List.length_eq_zero_iff]

/-- The tunnel of an id of the table is found, and is one of `all`. -/
theorem find_of_mem {id : String} (h : TableInv bound m) (hid : id ∈ m.table) :
    ∃ t ∈ m.all, m.find id = .ok t := by
  obtain ⟨t, ht⟩ := Option.isSome_iff_exists.mp (h.made id hid)
  refine ⟨t, List.mem_filterMap.mpr ⟨id, hid, ht⟩, ?_⟩
  rw [TunnelManager.find, if_pos hid, ht]

theorem primaryTunnel_of_nil (h : TableInv bound m) (hnil : m.table = []) :
    m.primaryTunnel = .error (Err.notFound "no primary tunnel") := by
  rw [TunnelManager.primaryTunnel, if_pos (h.primary_empty hnil)]

theorem primaryTunnel_of_ne_nil (h : TableInv bound m) (hne : m.table ≠ []) :
    m.primaryTunnel = .ok m.primary := by
  rw [TunnelManager.primaryTunnel, if_neg (mt h.primary_eq_empty_iff.mp hne),
    if_pos (h.primary_mem hne)]

theorem bookkept (h : TableInv bound m) : Bookkept bound m where
  bounded := h.bounded
  all_length := h.all_length
  primary_iff := by
    rw [Ne, h.all_eq_nil_iff]
    by_cases hnil : m.table = []
    · rw [h.primaryTunnel_of_nil hnil]
      exact iff_of_false (by decide) (not_not.mpr hnil)
    · rw [h.primaryTunnel_of_ne_nil hnil]
      exact iff_of_true rfl hnil
  primary_mem id hid := by
    by_cases hnil : m.table = []
    · rw [h.primaryTunnel_of_nil hnil] at hid
      cases hid
    · rw [h.primaryTunnel_of_ne_nil hnil] at hid
      cases hid
      exact h.find_of_mem (h.primary_mem hnil)

end TableInv

/-- Every sequence of calls with fresh uuids, whatever the tunnels do. -/
theorem bookkeeping {maxConcurrentTunnels : Nat} {registry : Bool} {acts : List ManagerAct}
    {m : TunnelManager}
    (hfresh : RunMeets ManagerAct.step ManagerAct.Fresh { maxConcurrentTunnels, registry } acts)
    (hr : run ManagerAct.step { maxConcurrentTunnels, registry } acts = some m) :
    Bookkept maxConcurrentTunnels m ∧ ∀ c, CallKept m c := by
  have hinit : TableInv maxConcurrentTunnels { maxConcurrentTunnels, registry } :=
    ⟨rfl, Nat.zero_le _, List.nodup_nil, List.not_mem_nil, fun _ hid => absurd hid List.not_mem_nil,
      fun hne => absurd rfl hne, fun _ => rfl⟩
  have hinv : TableInv maxConcurrentTunnels m :=
    run_invariant (fun _ _ _ h hok hs => h.step hok hs) hinit hfresh hr
  exact ⟨hinv.bookkept, TunnelManager.callKept hinv.nodup⟩

/-- The profile of the tests. -/
def sampleProfile : Profile where
  name := "HK"
  remotes := [{ host := "hk1.example.net", port := 1194 }]
  authMethod := .certificate
  certificates := { caPem := "ca", certificatePem := "cert" }

/-- The uuid of the second tunnel. -/
def secondUuid : UuidText := ⟨"7c9e6679-7425-40de-944b-e07fc1f90ae7", rfl⟩

/-- Two tunnels, of which the second one is made the primary one, a third that
finds the limit, and the second one up. -/
def twoTunnels : List ManagerAct :=
  [.call (.create sampleProfile ⟨"0b2f5a4e-3d0c-4c57-9a43-1b8f0c6f2d11", rfl⟩),
    .call (.create sampleProfile secondUuid),
    .call (.setPrimary secondUuid.text),
    .call (.create sampleProfile ⟨"f47ac10b-58cc-4372-a567-0e02b2c3d479", rfl⟩),
    .tunnel secondUuid.text { id := secondUuid.text, state := .connected, engine := some 1 }]

theorem bookkeeping_twoTunnels : ∃ m,
    run ManagerAct.step { maxConcurrentTunnels := 2 } twoTunnels = some m ∧
      m.table.length = 2 ∧ m.primaryTunnel = .ok secondUuid.text ∧
      CallKept m (.destroy secondUuid.text "" []) := by
  have hsome : (run ManagerAct.step { maxConcurrentTunnels := 2 } twoTunnels).any (fun m =>
      decide (m.table.length = 2 ∧ m.primaryTunnel.toOption = some secondUuid.text)) = true := by
    decide +kernel
  obtain ⟨m, hm, hmade⟩ := (Option.any_eq_true _ _).mp hsome
  obtain ⟨hlength, hprimary⟩ := of_decide_eq_true hmade
  exact ⟨m, hm, hlength, Result.eq_ok_of_toOption hprimary,
    (bookkeeping (by decide +kernel) hm).2 _⟩

end NovaVpn
