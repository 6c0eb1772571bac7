import Mathlib.Logic.Function.Basic
import Mathlib.Order.OrderDual
import NovaVpn.Framework.FirstBest
import NovaVpn.Networking.IpAddress

/-!
# The network monitor

`Networking/NetworkMonitor.cpp`: `enumerateAdapters` makes the list of adapters
from what `GetAdaptersAddresses` and `GetIpForwardTable2` return, and
`underlayAdapter` takes the one of them that the routes to the gateways are
pinned to. The forwarding table is gone through once, and the facts about an
interface have one metric, the lowest of its default routes of either family;
`underlay_is_best_iff` says where the choice by that metric is the one by the
metric of the family.
-/

namespace NovaVpn.Net

open NovaVpn.Framework NovaVpn.Win

/-! ## Adapters -/

inductive AdapterType where
  | unknown | ethernet | wiFi | cellular | loopback | tunnel | virtual
  deriving DecidableEq, Repr

structure NetworkAdapter where
  interfaceIndex : UInt32 := 0
  luid : UInt64 := 0
  name : List Char := []
  description : List Char := []
  type : AdapterType := .unknown
  isUp : Bool := false
  hasDefaultRouteV4 : Bool := false
  hasDefaultRouteV6 : Bool := false
  metric : UInt32 := 0
  mtu : UInt32 := 0
  addresses : List IpAddress := []
  gateways : List IpAddress := []
  dnsServers : List IpAddress := []
  deriving DecidableEq, Repr

/-- `IP_ADAPTER_ADDRESSES`. A socket address that `fromSockAddr` cannot read is
`none`. -/
structure IpAdapterAddresses where
  luid : UInt64
  ifIndex : UInt32 := 0
  ipv6IfIndex : UInt32 := 0
  friendlyName : List Char := []
  description : List Char := []
  ifType : UInt32
  operStatus : UInt32
  mtu : UInt32 := 1500
  unicastAddresses : List (Option IpAddress) := []
  gatewayAddresses : List (Option IpAddress) := []
  dnsServerAddresses : List (Option IpAddress) := []
  deriving DecidableEq, Repr

/-- `classify`, by the numbers of the interface types. -/
def classify (adapter : IpAdapterAddresses) : AdapterType :=
  if adapter.ifType = 24 then .loopback
  else if Str.contains "wintun".toList (Str.toLower adapter.description) ||
      "novavpn".toList.isPrefixOf (Str.toLower adapter.friendlyName) then .tunnel
  else if adapter.ifType = 6 then .ethernet
  else if adapter.ifType = 71 then .wiFi
  else if adapter.ifType = 243 || adapter.ifType = 244 then .cellular
  else if adapter.ifType = 53 || adapter.ifType = 131 then .virtual
  else .unknown

/-! ## Default routes -/

/-- `MIB_IPFORWARD_ROW2`, of either family. -/
structure ForwardRow where
  luid : UInt64
  family : AddressFamily
  prefixLength : UInt8
  metric : UInt32
  deriving DecidableEq, Repr

structure DefaultRouteFacts where
  hasV4 : Bool := false
  hasV6 : Bool := false
  bestMetric : UInt32 := 0xFFFFFFFF
  deriving DecidableEq, Repr

/-- The map from the LUID of an interface to the facts about it. -/
abbrev RouteFacts := UInt64 → Option DefaultRouteFacts

def DefaultRouteFacts.add (facts : DefaultRouteFacts) (row : ForwardRow) : DefaultRouteFacts where
  hasV4 := facts.hasV4 || row.family = .ipv4
  hasV6 := facts.hasV6 || row.family = .ipv6
  bestMetric := min facts.bestMetric row.metric

/-- A turn of the loop of `queryDefaultRoutes`. -/
def RouteFacts.add (facts : RouteFacts) (row : ForwardRow) : RouteFacts :=
  if row.prefixLength ≠ 0 then facts
  else Function.update facts row.luid (some (((facts row.luid).getD {}).add row))

def RouteFacts.of (table : List ForwardRow) : RouteFacts := table.foldl RouteFacts.add fun _ => none

/-- `queryDefaultRoutes`; `table` is what `GetIpForwardTable2` returns. -/
def queryDefaultRoutes (table : Except UInt32 (List ForwardRow)) : Result RouteFacts :=
  match table with
  | .error status => .error (fromWin32 status "GetIpForwardTable2")
  | .ok rows => .ok (.of rows)

/-- What `enumerateAdapters` makes of an entry. -/
def networkAdapter (facts : RouteFacts) (raw : IpAdapterAddresses) : NetworkAdapter :=
  let adapter : NetworkAdapter :=
    { luid := raw.luid
      interfaceIndex := if raw.ifIndex ≠ 0 then raw.ifIndex else raw.ipv6IfIndex
      name := raw.friendlyName
      description := raw.description
      type := classify raw
      isUp := raw.operStatus = 1
      mtu := raw.mtu
      addresses := raw.unicastAddresses.filterMap id
      gateways := raw.gatewayAddresses.filterMap id
      dnsServers := raw.dnsServerAddresses.filterMap id }
  match facts raw.luid with
  | some facts =>
    { adapter with
      hasDefaultRouteV4 := facts.hasV4
      hasDefaultRouteV6 := facts.hasV6
      metric := facts.bestMetric }
  | none => adapter

/-- `enumerateAdapters`; `adapters` is what `GetAdaptersAddresses` returns. -/
def enumerateAdapters (adapters : Except UInt32 (List IpAdapterAddresses))
    (table : Except UInt32 (List ForwardRow)) : Result (List NetworkAdapter) :=
  match adapters with
  | .error status => .error (fromWin32 status "GetAdaptersAddresses")
  | .ok raws => (queryDefaultRoutes table).map fun facts => raws.map (networkAdapter facts)

/-! ## The underlay -/

def NetworkAdapter.hasRoute (adapter : NetworkAdapter) : AddressFamily → Bool
  | .ipv4 => adapter.hasDefaultRouteV4
  | .ipv6 => adapter.hasDefaultRouteV6

/-- A turn of the loop of `pickUnderlay`. -/
def keepUnderlay (family : AddressFamily) (best : Option NetworkAdapter) (adapter : NetworkAdapter) :
    Option NetworkAdapter :=
  if !adapter.isUp || adapter.type = .tunnel || adapter.type = .loopback then best
  else if !adapter.hasRoute family then best
  else match best with
    | none => some adapter
    | some b => if adapter.metric < b.metric then some adapter else some b

def pickUnderlay (adapters : List NetworkAdapter) (family : AddressFamily) : Result NetworkAdapter :=
  match adapters.foldl (keepUnderlay family) none with
  | some best => .ok best
  | none =>
    .error (Err.notFound ("no underlay adapter with a default " ++
      (match family with | .ipv4 => "IPv4" | .ipv6 => "IPv6") ++ " route"))

def underlayAdapter (adapters : Except UInt32 (List IpAdapterAddresses))
    (table : Except UInt32 (List ForwardRow)) (family : AddressFamily) : Result NetworkAdapter :=
  (enumerateAdapters adapters table).bind fun all => pickUnderlay all family

def hasUnderlayConnectivity (adapters : Except UInt32 (List IpAdapterAddresses))
    (table : Except UInt32 (List ForwardRow)) : Bool :=
  match enumerateAdapters adapters table with
  | .error _ => false
  | .ok all => (pickUnderlay all .ipv4).toOption.isSome || (pickUnderlay all .ipv6).toOption.isSome

/-! ## What the facts are -/

/-- The row is a default route of the family over the interface. -/
def ForwardRow.IsDefault (luid : UInt64) (family : AddressFamily) (row : ForwardRow) : Prop :=
  row.luid = luid ∧ row.family = family ∧ row.prefixLength = 0

instance (luid : UInt64) (family : AddressFamily) (row : ForwardRow) :
    Decidable (row.IsDefault luid family) :=
  inferInstanceAs (Decidable (_ ∧ _))

def defaultRoutes (table : List ForwardRow) (family : AddressFamily) (luid : UInt64) :
    List ForwardRow :=
  table.filter fun row => row.IsDefault luid family

/-- The lowest metric of the rows, and the largest number for none. -/
def lowestMetric (rows : List ForwardRow) : UInt32 :=
  rows.foldl (fun lowest row => min lowest row.metric) 0xFFFFFFFF

/-- The lowest metric of the default routes of a family over an interface. -/
def familyMetric (table : List ForwardRow) (family : AddressFamily) (luid : UInt64) : UInt32 :=
  lowestMetric (defaultRoutes table family luid)

/-- Of those of both families. -/
def mergedMetric (table : List ForwardRow) (luid : UInt64) : UInt32 :=
  min (familyMetric table .ipv4 luid) (familyMetric table .ipv6 luid)

section Facts

variable (table : List ForwardRow) (row : ForwardRow) (family : AddressFamily) (luid : UInt64)

theorem lowestMetric_concat : lowestMetric (table ++ [row]) = min (lowestMetric table) row.metric := by
  rw [lowestMetric, List.foldl_append]
  rfl

theorem defaultRoutes_concat : defaultRoutes (table ++ [row]) family luid =
    if row.IsDefault luid family then defaultRoutes table family luid ++ [row]
    else defaultRoutes table family luid := by
  rw [defaultRoutes, List.filter_append, List.filter_cons, List.filter_nil]
  by_cases h : row.IsDefault luid family <;> simp [h, defaultRoutes]

theorem familyMetric_concat : familyMetric (table ++ [row]) family luid =
    if row.IsDefault luid family then min (familyMetric table family luid) row.metric
    else familyMetric table family luid := by
  unfold familyMetric
  rw [defaultRoutes_concat]
  split
  · exact lowestMetric_concat _ row
  · rfl

theorem family_cases : row.family = .ipv4 ∨ row.family = .ipv6 := by
  cases row.family
  · exact .inl rfl
  · exact .inr rfl

theorem mergedMetric_concat : mergedMetric (table ++ [row]) luid =
    if row.luid = luid ∧ row.prefixLength = 0 then min (mergedMetric table luid) row.metric
    else mergedMetric table luid := by
  unfold mergedMetric
  rw [familyMetric_concat, familyMetric_concat]
  unfold ForwardRow.IsDefault
  rcases family_cases row with hfamily | hfamily <;> simp only [hfamily] <;> grind

/-- The facts about an interface, from the rows about it. -/
theorem facts_eq : (RouteFacts.of table luid).getD {} =
    { hasV4 := decide (defaultRoutes table .ipv4 luid ≠ [])
      hasV6 := decide (defaultRoutes table .ipv6 luid ≠ [])
      bestMetric := mergedMetric table luid } := by
  induction table using List.reverseRecOn with
  | nil => rfl
  | append_singleton table row ih =>
    have hstep : RouteFacts.of (table ++ [row]) = (RouteFacts.of table).add row := by
      rw [RouteFacts.of, List.foldl_append]
      rfl
    rw [hstep, RouteFacts.add, mergedMetric_concat, defaultRoutes_concat, defaultRoutes_concat]
    unfold ForwardRow.IsDefault
    by_cases hzero : row.prefixLength = 0
    · rw [if_neg (not_not.mpr hzero)]
      by_cases hluid : row.luid = luid
      · subst hluid
        rw [Function.update_self, Option.getD_some, ih]
        rcases family_cases row with hfamily | hfamily <;>
          simp [DefaultRouteFacts.add, hzero, hfamily]
      · rw [Function.update_of_ne (Ne.symm hluid), ih]
        simp [hluid]
    · rw [if_pos hzero, ih]
      simp [hzero]

end Facts

/-! ## The choice -/

/-- The adapter qualifies: it is up, neither a tunnel nor loopback, and has a
default route of the family. -/
structure Qualifies (table : List ForwardRow) (family : AddressFamily) (a : NetworkAdapter) :
    Prop where
  up : a.isUp = true
  notTunnel : a.type ≠ .tunnel
  notLoopback : a.type ≠ .loopback
  route : ∃ row ∈ table, row.IsDefault a.luid family

/-- A lower metric ranks higher. -/
def rankOf (metric : UInt32) : Natᵒᵈ := OrderDual.toDual metric.toNat

/-- What `enumerateAdapters` makes of the two lists. -/
def adaptersOf (adapters : List IpAdapterAddresses) (table : List ForwardRow) : List NetworkAdapter :=
  adapters.map (networkAdapter (.of table))

/-- The first of the adapters that qualify with the lowest of such metrics. -/
def FirstLowest (adapters : List IpAdapterAddresses) (table : List ForwardRow)
    (family : AddressFamily) (metric : UInt64 → UInt32) (best : NetworkAdapter) : Prop :=
  FirstBest (Qualifies table family) (fun a => rankOf (metric a.luid)) (adaptersOf adapters table) best

/-- `underlayAdapter` returns the best adapter of the family, and fails if and
only if there is none. -/
def UnderlayIsBest (adapters : List IpAdapterAddresses) (table : List ForwardRow)
    (family : AddressFamily) : Prop :=
  (∀ a, underlayAdapter (.ok adapters) (.ok table) family = .ok a →
    FirstLowest adapters table family (familyMetric table family) a) ∧
  ((∃ status, underlayAdapter (.ok adapters) (.ok table) family = .error status) ↔
    ∀ a ∈ adaptersOf adapters table, ¬ Qualifies table family a)

theorem rankOf_lt {m n : UInt32} : rankOf m < rankOf n ↔ n < m := Iff.rfl

/-- The adapters that the loop of `pickUnderlay` does not pass over. -/
def candidate (family : AddressFamily) (a : NetworkAdapter) : Bool :=
  a.isUp && a.type ≠ .tunnel && a.type ≠ .loopback && a.hasRoute family

theorem keepsUnderlay (family : AddressFamily) :
    KeepsBest (keepUnderlay family) (candidate family) (fun a => rankOf a.metric) := by
  refine ⟨fun best a h => ?_, fun a h => ?_, fun b a h => ?_⟩
  all_goals unfold keepUnderlay candidate at *
  · grind
  · grind
  · simp only [rankOf_lt]
    grind

section Choice

variable {adapters : List IpAdapterAddresses} {table : List ForwardRow} {family : AddressFamily}
  {a : NetworkAdapter}

/-- An adapter of the list, from the facts about its interface. -/
theorem networkAdapter_facts (family : AddressFamily) (facts : RouteFacts)
    (raw : IpAdapterAddresses) :
    (networkAdapter facts raw).luid = raw.luid ∧
      (networkAdapter facts raw).hasDefaultRouteV4 = ((facts raw.luid).getD {}).hasV4 ∧
      (networkAdapter facts raw).hasDefaultRouteV6 = ((facts raw.luid).getD {}).hasV6 ∧
      ((networkAdapter facts raw).hasRoute family = true →
        (networkAdapter facts raw).metric = ((facts raw.luid).getD {}).bestMetric) := by
  unfold networkAdapter
  cases facts raw.luid with
  | none =>
    refine ⟨rfl, rfl, rfl, fun h => ?_⟩
    cases family <;> cases h
  | some found => exact ⟨rfl, rfl, rfl, fun _ => rfl⟩

theorem hasRoute_iff (ha : a ∈ adaptersOf adapters table) :
    a.hasRoute family = true ↔ ∃ row ∈ table, row.IsDefault a.luid family := by
  obtain ⟨raw, -, rfl⟩ := List.mem_map.mp ha
  obtain ⟨hluid, hv4, hv6, -⟩ := networkAdapter_facts family (.of table) raw
  have hne : (∃ row ∈ table, row.IsDefault raw.luid family) ↔
      defaultRoutes table family raw.luid ≠ [] := by
    simp [defaultRoutes, List.filter_eq_nil_iff]
  rw [hluid, hne]
  cases family
  · rw [NetworkAdapter.hasRoute, hv4, facts_eq, decide_eq_true_eq]
  · rw [NetworkAdapter.hasRoute, hv6, facts_eq, decide_eq_true_eq]

theorem metric_eq (ha : a ∈ adaptersOf adapters table) (hroute : a.hasRoute family = true) :
    a.metric = mergedMetric table a.luid := by
  obtain ⟨raw, -, rfl⟩ := List.mem_map.mp ha
  obtain ⟨hluid, -, -, hmetric⟩ := networkAdapter_facts family (.of table) raw
  rw [hmetric hroute, hluid, facts_eq]

theorem candidate_iff (ha : a ∈ adaptersOf adapters table) :
    candidate family a = true ↔ Qualifies table family a := by
  unfold candidate
  simp only [Bool.and_eq_true, decide_eq_true_eq, hasRoute_iff ha]
  exact ⟨fun ⟨⟨⟨hup, htunnel⟩, hloopback⟩, hroute⟩ => ⟨hup, htunnel, hloopback, hroute⟩,
    fun h => ⟨⟨⟨h.up, h.notTunnel⟩, h.notLoopback⟩, h.route⟩⟩

/-- The loop compares the metrics of the interfaces. -/
theorem firstLowest_iff :
    FirstBest (fun a => candidate family a = true) (fun a => rankOf a.metric)
      (adaptersOf adapters table) a ↔ FirstLowest adapters table family (mergedMetric table) a := by
  refine FirstBest.congr (fun b hb => candidate_iff hb) fun b hb hcandidate => ?_
  have hroute := (hasRoute_iff hb).mpr ((candidate_iff hb).mp hcandidate).route
  rw [metric_eq hb hroute]

theorem underlayAdapter_eq : underlayAdapter (.ok adapters) (.ok table) family =
    pickUnderlay (adaptersOf adapters table) family := rfl

/-- The choice is the first by the metric of the interface. -/
theorem underlayAdapter_eq_ok_iff :
    underlayAdapter (.ok adapters) (.ok table) family = .ok a ↔
      FirstLowest adapters table family (mergedMetric table) a := by
  rw [← firstLowest_iff, ← FirstBest.foldl_eq_some_iff (keepsUnderlay family), underlayAdapter_eq]
  unfold pickUnderlay
  cases (adaptersOf adapters table).foldl (keepUnderlay family) none with
  | none => exact ⟨fun h => (by cases h), fun h => (by cases h)⟩
  | some best => exact ⟨fun h => congrArg some (Except.ok.inj h), fun h => congrArg _ (Option.some.inj h)⟩

theorem underlayAdapter_eq_error_iff :
    (∃ status, underlayAdapter (.ok adapters) (.ok table) family = .error status) ↔
      ∀ a ∈ adaptersOf adapters table, ¬ Qualifies table family a := by
  have hnone := (keepsUnderlay family).foldl_eq_none (l := adaptersOf adapters table)
  have hiff : (∀ a ∈ adaptersOf adapters table, candidate family a = false) ↔
      ∀ a ∈ adaptersOf adapters table, ¬ Qualifies table family a :=
    forall₂_congr fun a ha => by rw [← candidate_iff ha, Bool.not_eq_true]
  rw [← hiff, ← hnone, underlayAdapter_eq]
  unfold pickUnderlay
  cases (adaptersOf adapters table).foldl (keepUnderlay family) none with
  | none => exact ⟨fun _ => rfl, fun _ => ⟨_, rfl⟩⟩
  | some best => exact ⟨fun ⟨_, h⟩ => (by cases h), fun h => (by cases h)⟩

/-- There is connectivity exactly if an adapter qualifies for some family. -/
theorem hasUnderlayConnectivity_iff :
    hasUnderlayConnectivity (.ok adapters) (.ok table) = true ↔
      ∃ family, ∃ a ∈ adaptersOf adapters table, Qualifies table family a := by
  have hsome (family : AddressFamily) :
      (pickUnderlay (adaptersOf adapters table) family).toOption.isSome = true ↔
        ∃ a ∈ adaptersOf adapters table, Qualifies table family a := by
    have herror : _ ↔ ∀ a ∈ adaptersOf adapters table, ¬ Qualifies table family a :=
      underlayAdapter_eq_error_iff
    rw [underlayAdapter_eq] at herror
    cases hpick : pickUnderlay (adaptersOf adapters table) family with
    | error status =>
      refine iff_of_false Bool.false_ne_true fun ⟨a, ha, hqualifies⟩ => ?_
      exact herror.mp ⟨status, hpick⟩ a ha hqualifies
    | ok best =>
      refine iff_of_true rfl (Classical.byContradiction fun hnone => ?_)
      obtain ⟨status, hstatus⟩ := herror.mpr fun a ha h => hnone ⟨a, ha, h⟩
      cases hpick.symm.trans hstatus
  show ((pickUnderlay (adaptersOf adapters table) .ipv4).toOption.isSome ||
    (pickUnderlay (adaptersOf adapters table) .ipv6).toOption.isSome) = true ↔ _
  rw [Bool.or_eq_true, hsome, hsome]
  constructor
  · rintro (h | h)
    · exact ⟨.ipv4, h⟩
    · exact ⟨.ipv6, h⟩
  · rintro ⟨_ | _, h⟩
    · exact Or.inl h
    · exact Or.inr h

end Choice

/-- The choice is the best exactly if the first adapter that qualifies with the
lowest metric of the family is also the first with the lowest of the metrics of
both families. -/
theorem underlay_is_best_iff (adapters : List IpAdapterAddresses) (table : List ForwardRow)
    (family : AddressFamily) :
    UnderlayIsBest adapters table family ↔
      ∀ best, FirstLowest adapters table family (familyMetric table family) best →
        FirstLowest adapters table family (mergedMetric table) best := by
  unfold UnderlayIsBest
  rw [and_iff_left underlayAdapter_eq_error_iff]
  simp only [underlayAdapter_eq_ok_iff]
  constructor
  · intro h best hbest
    obtain ⟨found, hfound⟩ := FirstBest.exists_of_mem
      (fun a : NetworkAdapter => rankOf (mergedMetric table a.luid)) hbest.mem hbest.app
    rwa [hbest.unique (h found hfound)]
  · intro h a ha
    obtain ⟨best, hbest⟩ := FirstBest.exists_of_mem
      (fun a : NetworkAdapter => rankOf (familyMetric table family a.luid)) ha.mem ha.app
    rwa [ha.unique (h best hbest)]

def wifiAdapter : IpAdapterAddresses where
  luid := 1
  ifType := 71
  operStatus := 1

def ethernetAdapter : IpAdapterAddresses where
  luid := 2
  ifType := 6
  operStatus := 1

/-- Ethernet has the lower metric for IPv4, and only the other one has IPv6. -/
def dualStackTable : List ForwardRow :=
  [{ luid := 1, family := .ipv4, prefixLength := 0, metric := 50 },
    { luid := 1, family := .ipv6, prefixLength := 0, metric := 5 },
    { luid := 2, family := .ipv4, prefixLength := 0, metric := 20 }]

/-- The adapter with the cheap IPv6 route is taken for IPv4. -/
theorem cheap_v6_route_is_taken_for_v4 :
    ¬ UnderlayIsBest [wifiAdapter, ethernetAdapter] dualStackTable .ipv4 := by
  intro h
  have htaken : underlayAdapter (.ok [wifiAdapter, ethernetAdapter]) (.ok dualStackTable) .ipv4 =
      .ok (networkAdapter (.of dualStackTable) wifiAdapter) := by
    decide +kernel
  have hother : Qualifies dualStackTable .ipv4 (networkAdapter (.of dualStackTable) ethernetAdapter) :=
    ⟨by decide +kernel, by decide +kernel, by decide +kernel, by decide +kernel⟩
  have hle := (h.1 _ htaken).le (a := networkAdapter (.of dualStackTable) ethernetAdapter)
    (by decide +kernel) hother
  revert hle
  decide +kernel

end NovaVpn.Net
