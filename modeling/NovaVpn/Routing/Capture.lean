import NovaVpn.Networking.Ranges
import NovaVpn.Routing.Agreement
import NovaVpn.Routing.Teardown

/-!
# The gateway under a captured default route

`pinGatewayRoute` adds a route for the gateway alone, and `captureDefaultRoute`
one for each half of the address space. Whatever the calls meet on the way, once
both have returned ok the table has these rows besides those it had
(`Gains`), so the longest row that covers the gateway is its own, and the
longest that covers another address is one of the halves, unless there was a
longer row, or a half, before (`gateway_stays_on_underlay`).
-/

namespace NovaVpn.Net

open NovaVpn.Framework

theorem maskBytes_of_length_le {n : Nat} {bs : List Byte} (h : 8 * bs.length ≤ n) :
    maskBytes n bs = bs := by
  induction bs generalizing n with
  | nil => rfl
  | cons b bs ih =>
    rw [List.length_cons] at h
    rw [maskBytes, if_neg (by omega), if_neg (by omega), ih (by omega)]

namespace IpRange

/-- The range of one address. -/
def host (a : IpAddress) : IpRange where
  network := a
  prefixLength := a.family.width
  prefix_le := Nat.le_refl _
  masked := maskBytes_of_length_le (by rw [a.length_bytes, AddressFamily.width_eq])

theorem make_host (a : IpAddress) : make a (if a.isV4 then 32 else 128) = .ok (host a) := by
  have hwidth : (if a.isV4 = true then 32 else 128 : UInt8) = UInt8.ofNat a.family.width := by
    rw [IpAddress.isV4]
    cases a.family <;> rfl
  have hmake := make_network (host a)
  rwa [hwidth]

theorem contains_host {a b : IpAddress} : (host a).contains b = true ↔ b = a := by
  rw [contains_iff]
  constructor
  · rintro ⟨hf, hagree⟩
    have hfamily : b.family = a.family := hf
    have hlen : b.bytes.length = a.bytes.length := by rw [b.length_bytes, a.length_bytes, hfamily]
    have hwidth : (host a).prefixLength = 8 * b.bytes.length := by
      rw [b.length_bytes, hfamily, ← AddressFamily.width_eq]
      rfl
    rw [hwidth] at hagree
    exact IpAddress.ext hfamily ((agreeOn_full hlen).mp hagree)
  · rintro rfl
    exact ⟨rfl, fun i _ => rfl⟩

/-- Only the range of one address has so long a prefix. -/
theorem eq_host_of_contains {r : IpRange} {a : IpAddress} (h : r.contains a = true)
    (hp : a.family.width ≤ r.prefixLength) : r = host a := by
  have hfamily : a.family = r.network.family := ((contains_iff r a).mp h).1
  have hprefix : r.prefixLength = a.family.width :=
    Nat.le_antisymm (hfamily ▸ r.prefix_le) hp
  have hbytes := maskBytes_of_contains h
  rw [maskBytes_of_length_le (by rw [a.length_bytes, ← AddressFamily.width_eq]; exact hp)] at hbytes
  have hnetwork : r.network = a := IpAddress.ext hfamily.symm hbytes.symm
  obtain ⟨network, n, hle, hmasked⟩ := r
  change network = a at hnetwork
  change n = a.family.width at hprefix
  subst hnetwork
  subst hprefix
  rfl

/-- The lower or the upper half of a family's addresses. -/
def half (family : AddressFamily) (upper : Bool) : IpRange where
  network :=
    ⟨family, (if upper then 0x80 else 0) :: List.replicate (family.byteCount - 1) 0, by
      cases family <;> rfl⟩
  prefixLength := 1
  prefix_le := by cases family <;> exact Nat.le_add_left _ _
  masked := by cases family <;> cases upper <;> decide

/-- An address is in the half that its first bit says. -/
theorem contains_half {family : AddressFamily} {upper : Bool} {a : IpAddress} :
    (half family upper).contains a = true ↔ a.family = family ∧ bit a.bytes 0 = upper := by
  have hbit : bit (half family upper).network.bytes 0 = upper := by
    cases family <;> cases upper <;> decide
  rw [contains_iff]
  refine and_congr_right fun _ => ⟨fun h => (h 0 (Nat.zero_lt_one)).trans hbit, fun h i hi => ?_⟩
  rw [Nat.lt_one_iff.mp hi, hbit, h]

end IpRange

end NovaVpn.Net

namespace NovaVpn.Routing

open NovaVpn.Framework NovaVpn.Net

/-! ## What the calls add -/

namespace RouteWorld

/-- The rows of the table are those there were and those of the entries. -/
def Gains (w : RouteWorld) (entries : List RouteEntry) (w' : RouteWorld) : Prop :=
  ∀ key, (w'.table key).isSome = true ↔
    (w.table key).isSome = true ∨ key ∈ entries.map rowKey

theorem Gains.nil (w : RouteWorld) : w.Gains [] w := fun key => by simp

theorem Gains.append {w w' w'' : RouteWorld} {entries entries' : List RouteEntry}
    (h : w.Gains entries w') (h' : w'.Gains entries' w'') : w.Gains (entries ++ entries') w'' := by
  intro key
  rw [h' key, h key, List.map_append, List.mem_append, or_assoc]

/-- The answer of a create says that the row is there now. -/
theorem gains_createIpForwardEntry2 {w : RouteWorld} {entry : RouteEntry} {row : ForwardRow}
    (hrow : row.key = rowKey entry) (o : Option CreateFailure)
    (h : ¬ ((w.createIpForwardEntry2 row o).1 ≠ Win.noError ∧
      (w.createIpForwardEntry2 row o).1 ≠ Win.errorObjectAlreadyExists)) :
    w.Gains [entry] (w.createIpForwardEntry2 row o).2 := by
  intro key
  rw [List.map_singleton, List.mem_singleton, ← hrow]
  cases o with
  | some code => exact absurd code.2 h
  | none =>
    simp only [createIpForwardEntry2]
    split
    next hthere =>
      refine ⟨Or.inl, fun hkey => hkey.elim id ?_⟩
      rintro rfl
      exact hthere
    next =>
      by_cases hkey : key = row.key
      · simp [hkey]
      · simp [hkey]

end RouteWorld

section Adding

variable {ok : (call : RouteCall) → routeEnv.Outcome call → RouteWorld → Prop}

/-- `addRoute` that returns ok has added the row of its entry. -/
theorem addRoute_gains (entry : RouteEntry) (w : RouteWorld) :
    Prog.Safe routeEnv ok (fun _ => True)
      (fun status w' => status.isError = false → w.Gains [entry] w')
      (RouteManager.addRoute entry) w := by
  unfold RouteManager.addRoute
  split
  next st hrow =>
    refine ⟨trivial, fun hst => ?_⟩
    rw [toRow_error hrow] at hst
    cases hst
  next row hrow =>
    refine Prog.Safe.step trivial fun o _ => ?_
    split
    next herror =>
      refine ⟨trivial, fun hst => ?_⟩
      rw [hst] at herror
      cases herror
    next =>
      refine Prog.Safe.step trivial fun oc _ => ?_
      split
      next =>
        refine Prog.Safe.step trivial fun _ _ => ⟨trivial, fun hst => ?_⟩
        rw [RouteManager.isError_createFailure] at hst
        cases hst
      next hcreated =>
        refine ⟨trivial, fun _ key => ?_⟩
        have hgains := RouteWorld.gains_createIpForwardEntry2 (toRow_key hrow) oc hcreated key
        rw [RouteWorld.table_recordRoute] at hgains
        exact hgains

/-- So has the loop of `captureDefaultRoute`, for each entry. -/
theorem captureRoutes_gains (entries : List RouteEntry) (w : RouteWorld) :
    Prog.Safe routeEnv ok (fun _ => True)
      (fun status w' => status.isError = false → w.Gains entries w')
      (RouteManager.captureRoutes entries) w := by
  induction entries generalizing w with
  | nil => exact ⟨trivial, fun _ => RouteWorld.Gains.nil w⟩
  | cons entry entries ih =>
    refine Prog.Safe.bind (addRoute_gains entry w) fun status w' _ hgains => ?_
    split
    next herror =>
      refine ⟨trivial, fun hst => ?_⟩
      rw [Status.isError_withContext, herror] at hst
      cases hst
    next hok =>
      refine (ih w').mono fun status' w'' _ hgains' hst => ?_
      exact (hgains (Bool.eq_false_of_not_eq_true hok)).append (hgains' hst)

end Adding

/-- The entry of the route to the gateway, by the next hop that the system
reports for it. -/
def gatewayEntry (gateway : IpAddress) (underlayInterfaceIndex : UInt32)
    (reported : Option IpAddress) : RouteEntry where
  destination := .host gateway
  nextHop := reported.filter fun hop => !hop.isUnspecified
  interfaceIndex := underlayInterfaceIndex
  metric := ownedRouteMetric

/-- The entry of a half of the address space. -/
def halfEntry (family : AddressFamily) (upper : Bool) (tunnelInterfaceIndex : UInt32) : RouteEntry where
  destination := .half family upper
  interfaceIndex := tunnelInterfaceIndex
  metric := ownedRouteMetric

/-- The texts of the halves are read as the halves. -/
theorem defaultRouteEntries_splitHalves (family : AddressFamily) (tunnelInterfaceIndex : UInt32) :
    RouteManager.defaultRouteEntries .splitHalves family tunnelInterfaceIndex =
      [halfEntry family false tunnelInterfaceIndex, halfEntry family true tunnelInterfaceIndex] := by
  have hlow4 : IpRange.parse "0.0.0.0/1".toList = .ok (.half .ipv4 false) := by decide +kernel
  have hhigh4 : IpRange.parse "128.0.0.0/1".toList = .ok (.half .ipv4 true) := by decide +kernel
  have hlow6 : IpRange.parse "::/1".toList = .ok (.half .ipv6 false) := by decide +kernel
  have hhigh6 : IpRange.parse "8000::/1".toList = .ok (.half .ipv6 true) := by decide +kernel
  cases family with
  | ipv4 =>
    simp only [RouteManager.defaultRouteEntries, hlow4, hhigh4, if_true]
    rfl
  | ipv6 =>
    simp only [RouteManager.defaultRouteEntries, hlow6, hhigh6]
    rfl

/-- The first call of a pin that returns ok reports a next hop, and the route by
this next hop has been added. -/
theorem pinGatewayRoute_gains {w w' : RouteWorld} {gateway : IpAddress} {index : UInt32}
    {status : Status} {ts : List routeEnv.Turn}
    (h : Prog.exec routeEnv (RouteManager.pinGatewayRoute gateway index) w ts = (.ret status, w'))
    (hok : status.isError = false) :
    ∃ turn rest reported, ts = turn :: rest ∧ turn (.getBestRoute2 gateway index) = .ok reported ∧
      w.Gains [gatewayEntry gateway index reported] w' := by
  cases ts with
  | nil => cases congrArg Prod.fst h
  | cons turn rest =>
    cases hturn : turn (.getBestRoute2 gateway index) with
    | error code =>
      have hexec : Prog.exec routeEnv (RouteManager.pinGatewayRoute gateway index) w (turn :: rest) =
          (.ret (Win.fromWin32 code.1 ("GetBestRoute2(" ++ gateway.toString ++ ")")), w) := by
        show Prog.exec routeEnv _ (routeEnv.step (.getBestRoute2 gateway index) _ w).2 rest = _
        rw [hturn]
        rfl
      rw [hexec] at h
      cases h
      rw [Win.isError_fromWin32 code.2] at hok
      cases hok
    | ok reported =>
      refine ⟨turn, rest, reported, rfl, hturn, ?_⟩
      have hexec : Prog.exec routeEnv (RouteManager.pinGatewayRoute gateway index) w (turn :: rest) =
          Prog.exec routeEnv (RouteManager.addRoute (gatewayEntry gateway index reported)) w rest := by
        rw [RouteManager.pinGatewayRoute]
        simp only [IpRange.make_host]
        show Prog.exec routeEnv _ (routeEnv.step (.getBestRoute2 gateway index) _ w).2 rest = _
        rw [hturn]
        rfl
      rw [hexec] at h
      exact (addRoute_gains _ w).post (Prog.meets_true _ _ _) h hok

/-! ## The lookups -/

/-- Longest-prefix lookup may send the address by this row. -/
def RouteWorld.Carries (w : RouteWorld) (a : IpAddress) (key : RowKey) : Prop :=
  (w.table key).isSome = true ∧ key.destination.contains a = true ∧
    ∀ key', (w.table key').isSome = true → key'.destination.contains a = true →
      key'.destination.prefixLength ≤ key.destination.prefixLength

theorem RouteWorld.looksUp_iff_carries {w : RouteWorld} {a : IpAddress} {i : UInt32} :
    w.LooksUp a i ↔ ∃ key, w.Carries a key ∧ key.interfaceIndex = i := by
  constructor
  · rintro ⟨key, hrow, hcontains, hi, hmax⟩
    exact ⟨key, ⟨hrow, hcontains, hmax⟩, hi⟩
  · rintro ⟨key, ⟨hrow, hcontains, hmax⟩, hi⟩
    exact ⟨key, hrow, hcontains, hi, hmax⟩

/-- The rows that are added for a gateway and the two halves. -/
def capturedEntries (gateway : IpAddress) (underlay tunnel : UInt32) (reported : Option IpAddress) :
    List RouteEntry :=
  [gatewayEntry gateway underlay reported, halfEntry gateway.family false tunnel,
    halfEntry gateway.family true tunnel]

section Lookups

variable {w w' : RouteWorld} {gateway : IpAddress} {underlay tunnel : UInt32}
  {reported : Option IpAddress}

/-- A row that covers an address after the capture. -/
theorem row_cases (h : w.Gains (capturedEntries gateway underlay tunnel reported) w') {key : RowKey}
    (hrow : (w'.table key).isSome = true) :
    (w.table key).isSome = true ∨ key = rowKey (gatewayEntry gateway underlay reported) ∨
      ∃ upper, key = rowKey (halfEntry gateway.family upper tunnel) := by
  rcases (h key).mp hrow with hold | hnew
  · exact Or.inl hold
  · simp only [capturedEntries, List.map_cons, List.map_nil, List.mem_cons, List.not_mem_nil,
      or_false] at hnew
    rcases hnew with hkey | hkey | hkey
    · exact Or.inr (Or.inl hkey)
    · exact Or.inr (Or.inr ⟨false, hkey⟩)
    · exact Or.inr (Or.inr ⟨true, hkey⟩)

theorem one_lt_width (family : AddressFamily) : 1 < family.width := by
  cases family <;> decide

/-- Only its own row carries the gateway. -/
theorem carries_gateway (h : w.Gains (capturedEntries gateway underlay tunnel reported) w')
    (hno : ∀ key : RowKey, key.destination = .host gateway → w.table key = none) (key : RowKey) :
    w'.Carries gateway key ↔ key = rowKey (gatewayEntry gateway underlay reported) := by
  have hown : (w'.table (rowKey (gatewayEntry gateway underlay reported))).isSome = true :=
    (h _).mpr (Or.inr List.mem_cons_self)
  have hlong : ∀ key : RowKey, (w'.table key).isSome = true →
      gateway.family.width ≤ key.destination.prefixLength → key.destination.contains gateway = true →
      key = rowKey (gatewayEntry gateway underlay reported) := by
    intro key hrow hlen hcontains
    rcases row_cases h hrow with hold | hkey | ⟨upper, rfl⟩
    · rw [hno key (IpRange.eq_host_of_contains hcontains hlen)] at hold
      cases hold
    · exact hkey
    · exact absurd hlen (Nat.not_le.mpr (one_lt_width gateway.family))
  constructor
  · rintro ⟨hrow, hcontains, hmax⟩
    exact hlong key hrow (hmax _ hown (IpRange.contains_host.mpr rfl)) hcontains
  · rintro rfl
    refine ⟨hown, IpRange.contains_host.mpr rfl, fun key' _ hcontains' => ?_⟩
    have hfamily : gateway.family = key'.destination.network.family :=
      ((IpRange.contains_iff ..).mp hcontains').1
    show key'.destination.prefixLength ≤ gateway.family.width
    rw [hfamily]
    exact key'.destination.prefix_le

/-- The half that has an address carries it, unless a row with a prefix did
before. -/
theorem looksUp_captured (h : w.Gains (capturedEntries gateway underlay tunnel reported) w')
    {a : IpAddress} (hfamily : a.family = gateway.family) (hne : a ≠ gateway)
    (hshort : ∀ key : RowKey, (w.table key).isSome = true → key.destination.contains a = true →
      key.destination.prefixLength = 0) (i : UInt32) : w'.LooksUp a i ↔ i = tunnel := by
  have hrows : ∀ key : RowKey, (w'.table key).isSome = true → key.destination.contains a = true →
      key.destination.prefixLength = 0 ∨
        (key.destination.prefixLength = 1 ∧ key.interfaceIndex = tunnel) := by
    intro key hrow hcontains
    rcases row_cases h hrow with hold | rfl | ⟨upper, rfl⟩
    · exact Or.inl (hshort key hold hcontains)
    · exact absurd (IpRange.contains_host.mp hcontains) hne
    · exact Or.inr ⟨rfl, rfl⟩
  have hhalf : (w'.table (rowKey (halfEntry gateway.family (bit a.bytes 0) tunnel))).isSome = true := by
    refine (h _).mpr (Or.inr ?_)
    cases bit a.bytes 0 <;> simp [capturedEntries]
  have hin : (rowKey (halfEntry gateway.family (bit a.bytes 0) tunnel)).destination.contains a = true :=
    IpRange.contains_half.mpr ⟨hfamily, rfl⟩
  rw [RouteWorld.looksUp_iff_carries]
  constructor
  · rintro ⟨key, ⟨hrow, hcontains, hmax⟩, rfl⟩
    have hle : 1 ≤ key.destination.prefixLength := hmax _ hhalf hin
    rcases hrows key hrow hcontains with hzero | ⟨-, hi⟩
    · omega
    · exact hi
  · rintro rfl
    refine ⟨_, ⟨hhalf, hin, fun key hrow hcontains => ?_⟩, rfl⟩
    show key.destination.prefixLength ≤ 1
    rcases hrows key hrow hcontains with hzero | ⟨hone, -⟩
    · omega
    · omega

end Lookups

/-- Once both operations have returned ok, on a table without a route to the
gateway alone, the gateway goes over the underlay by the next hop reported for
it, and every other address of its family to the tunnel, but for those that a
route with a prefix was for. -/
theorem gateway_stays_on_underlay {w w₁ w₂ : RouteWorld} {gateway : IpAddress}
    {underlay tunnel : UInt32} {ts₁ ts₂ : List routeEnv.Turn}
    (hno : ∀ key : RowKey, key.destination = .host gateway → w.table key = none)
    (hpin : Prog.exec routeEnv (RouteManager.pinGatewayRoute gateway underlay) w ts₁ =
      (.ret Status.ok, w₁))
    (hcapture : Prog.exec routeEnv
      (RouteManager.captureDefaultRoute tunnel .splitHalves gateway.family) w₁ ts₂ =
      (.ret Status.ok, w₂)) :
    (∃ turn rest reported, ts₁ = turn :: rest ∧
      turn (.getBestRoute2 gateway underlay) = .ok reported ∧
      ∀ key, w₂.Carries gateway key ↔ key = rowKey (gatewayEntry gateway underlay reported)) ∧
    ∀ a : IpAddress, a.family = gateway.family → a ≠ gateway →
      (∀ key : RowKey, (w.table key).isSome = true → key.destination.contains a = true →
        key.destination.prefixLength = 0) →
      ∀ i, w₂.LooksUp a i ↔ i = tunnel := by
  obtain ⟨turn, rest, reported, hts, hturn, hgains⟩ := pinGatewayRoute_gains hpin rfl
  rw [RouteManager.captureDefaultRoute, defaultRouteEntries_splitHalves] at hcapture
  have hgains' := (captureRoutes_gains _ w₁).post (Prog.meets_true _ _ _) hcapture rfl
  have hall : w.Gains (capturedEntries gateway underlay tunnel reported) w₂ := hgains.append hgains'
  exact ⟨⟨turn, rest, reported, hts, hturn, carries_gateway hall hno⟩,
    fun a hfamily hne hshort => looksUp_captured hall hfamily hne hshort⟩

/-- The default route by the gateway 192.168.1.1, over interface 4, which is
also the next hop that the system reports. -/
def homeRow : RowKey := rowKey officeRoute

def homeTurn : routeEnv.Turn
  | .getBestRoute2 _ _ => .ok (some (.fromV4 192 168 1 1))
  | call => quietTurn call

/-- The gateway 203.0.113.5 over interface 4 and a tunnel on interface 9. -/
theorem gateway_stays_at_home :
    ∃ w₁ w₂ : RouteWorld,
      Prog.exec routeEnv (RouteManager.pinGatewayRoute (.fromV4 203 0 113 5) 4) (.ofForeign [homeRow])
        (List.replicate 3 homeTurn) = (.ret Status.ok, w₁) ∧
      Prog.exec routeEnv (RouteManager.captureDefaultRoute 9 .splitHalves .ipv4) w₁
        (List.replicate 4 homeTurn) = (.ret Status.ok, w₂) ∧
      ∀ i, w₂.LooksUp (.fromV4 198 51 100 7) i ↔ i = 9 := by
  have hno : ∀ key : RowKey, key.destination = .host (.fromV4 203 0 113 5) →
      (RouteWorld.ofForeign [homeRow]).table key = none := by
    intro key hkey
    refine if_neg fun hmem => ?_
    rw [List.mem_singleton.mp hmem] at hkey
    exact absurd (congrArg IpRange.prefixLength hkey) (by decide)
  have h := @gateway_stays_on_underlay (.ofForeign [homeRow]) _ _ (.fromV4 203 0 113 5) 4 9
    (List.replicate 3 homeTurn) (List.replicate 4 homeTurn) hno rfl rfl
  refine ⟨_, _, rfl, rfl, h.2 (.fromV4 198 51 100 7) rfl (by decide) fun key hrow _ => ?_⟩
  simp only [RouteWorld.ofForeign] at hrow
  split at hrow
  next hmem =>
    rw [List.mem_singleton.mp hmem]
    rfl
  next => cases hrow

end NovaVpn.Routing
