import NovaVpn.Firewall.Exact

/-!
# What an applied policy lets through

The filters an `apply` installs permit a flow if and only if one of the
policy's holes is for it (`Permitted`), and block every other flow
(`apply_confines`). Each kind of filter is characterised by the flows it
matches: an endpoint filter by the address, through the packed word or the
sixteen bytes; a range filter by `IpRange.contains`, through the mask or the
prefix length.

No filter looks at a port, so DNS leak protection is what the holes leave of
it (`dns_blocked_iff`).
-/

namespace NovaVpn.Firewall

open NovaVpn.Framework NovaVpn.Net

/-! ## The flows a filter matches -/

/-- Packed words under the mask of a prefix agree as the bytes do on it. -/
theorem v4Word_masked_iff {as bs : List Byte} (ha : as.length = 4) (hb : bs.length = 4) {n : Nat}
    (hn : n ≤ 32) : v4Word as &&& v4Mask n = v4Word bs &&& v4Mask n ↔ AgreeOn n as bs := by
  have hmask : v4Mask n = leadingOnes 32 n := by
    unfold v4Mask leadingOnes
    split
    · rename_i h
      subst h
      decide
    · rfl
  match as, bs, ha, hb with
  | [a, b, c, d], [a', b', c', d'], _, _ =>
    rw [hmask, masked_eq_iff _ _ hn]
    exact beWord_agree hn

theorem v4Word_inj {as bs : List Byte} (ha : as.length = 4) (hb : bs.length = 4) :
    v4Word as = v4Word bs ↔ as = bs := by
  have hones : v4Mask 32 = BitVec.allOnes 32 := by decide
  have h := v4Word_masked_iff ha hb (le_refl 32)
  rw [hones, BitVec.and_allOnes, BitVec.and_allOnes] at h
  rw [h, ← agreeOn_full (ha.trans hb.symm), ha]

theorem Flow.layer_eq_v4 {flow : Flow} :
    Layer.connectV4 = flow.layer ↔ flow.remoteAddress.family = .ipv4 := by
  unfold Flow.layer
  cases flow.remoteAddress.family <;> decide

theorem Flow.layer_eq_v6 {flow : Flow} :
    Layer.connectV6 = flow.layer ↔ flow.remoteAddress.family = .ipv6 := by
  unfold Flow.layer
  cases flow.remoteAddress.family <;> decide

section Matches

variable {weight : Weight} {persistent : Bool} {flow : Flow}

theorem blockAllFilter_matches :
    ∃ layer ∈ connectLayers, (blockAllFilter layer persistent).matches flow = true := by
  refine ⟨flow.layer, ?_, by simp [FilterSpec.matches, blockAllFilter, simpleFilter, stampCommon]⟩
  unfold Flow.layer
  cases flow.remoteAddress.family <;> decide

theorem interfaceFilter_matches {layer : Layer} {luid : UInt64} :
    (interfaceFilter layer luid weight persistent).matches flow = true ↔
      layer = flow.layer ∧ flow.localInterface = luid := by
  simp [FilterSpec.matches, interfaceFilter, stampCommon, Condition.matches]

theorem endpointFilter_matches {endpoint : Endpoint} :
    (endpointFilter endpoint weight persistent).matches flow = true ↔
      flow.remoteAddress = endpoint.address := by
  rw [IpAddress.ext_iff]
  cases hf : endpoint.address.family with
  | ipv4 =>
    have hm : (endpointFilter endpoint weight persistent).matches flow = true ↔
        Layer.connectV4 = flow.layer ∧ flow.remoteAddress.family = .ipv4 ∧
          v4Word flow.remoteAddress.bytes = v4Word endpoint.address.bytes := by
      simp [FilterSpec.matches, endpointFilter, stampCommon, Condition.matches, IpAddress.isV4, hf,
        layerOf]
    rw [hm, Flow.layer_eq_v4, ← and_assoc, and_self]
    refine and_congr_right fun hr => v4Word_inj ?_ ?_
    · rw [flow.remoteAddress.length_bytes, hr]
      rfl
    · rw [endpoint.address.length_bytes, hf]
      rfl
  | ipv6 =>
    have hm : (endpointFilter endpoint weight persistent).matches flow = true ↔
        Layer.connectV6 = flow.layer ∧ flow.remoteAddress.family = .ipv6 ∧
          flow.remoteAddress.bytes = endpoint.address.bytes := by
      simp [FilterSpec.matches, endpointFilter, stampCommon, Condition.matches, IpAddress.isV4, hf,
        layerOf]
    rw [hm, Flow.layer_eq_v6, ← and_assoc, and_self]

theorem rangeFilter_matches {range : IpRange} :
    (rangeFilter range weight persistent).matches flow = true ↔
      range.contains flow.remoteAddress = true := by
  rw [IpRange.contains_iff]
  cases hf : range.family with
  | ipv4 =>
    have hm : (rangeFilter range weight persistent).matches flow = true ↔
        Layer.connectV4 = flow.layer ∧ flow.remoteAddress.family = .ipv4 ∧
          v4Word flow.remoteAddress.bytes &&& v4Mask range.prefixLength =
            v4Word range.network.bytes &&& v4Mask range.prefixLength := by
      simp [FilterSpec.matches, rangeFilter, stampCommon, Condition.matches, hf, layerOf]
    rw [hm, Flow.layer_eq_v4, ← and_assoc, and_self]
    have hnet : range.network.family = .ipv4 := hf
    refine and_congr_right fun hr => v4Word_masked_iff ?_ ?_ ?_
    · rw [flow.remoteAddress.length_bytes, hr]
      rfl
    · rw [range.network.length_bytes, hnet]
      rfl
    · have := range.prefix_le
      rwa [hnet] at this
  | ipv6 =>
    have hm : (rangeFilter range weight persistent).matches flow = true ↔
        Layer.connectV6 = flow.layer ∧ flow.remoteAddress.family = .ipv6 ∧
          AgreeOn range.prefixLength flow.remoteAddress.bytes range.network.bytes := by
      simp [FilterSpec.matches, rangeFilter, stampCommon, Condition.matches, hf, layerOf]
    rw [hm, Flow.layer_eq_v6, ← and_assoc, and_self]

end Matches

/-! ## The holes of a policy -/

/-- 127.0.0.0/8. -/
def loopbackV4 : IpRange := ⟨.fromV4 127 0 0 0, 8, by decide, by decide⟩

/-- ::1. -/
def localhostV6 : IpAddress := .fromV6 #v[0, 0, 0, 0, 0, 0, 0, 0, 0, 0, 0, 0, 0, 0, 0, 1]

/-- 255.255.255.255. -/
def broadcastV4 : IpAddress := .fromV4 255 255 255 255

/-- 169.254.0.0/16. -/
def linkLocalV4 : IpRange := ⟨.fromV4 169 254 0 0, 16, by decide, by decide⟩

def IsLoopback (a : IpAddress) : Prop := loopbackV4.contains a = true ∨ a = localhostV6

def IsDhcp (a : IpAddress) : Prop := a = broadcastV4 ∨ linkLocalV4.contains a = true

/-- What a policy lets a flow through for. -/
def Permitted (policy : FirewallPolicy) (flow : Flow) : Prop :=
  flow.localInterface ∈ policy.permittedInterfaceLuids ∨
  (∃ endpoint ∈ policy.vpnEndpoints, flow.remoteAddress = endpoint.address) ∨
  (policy.exceptions.allowLoopback = true ∧ IsLoopback flow.remoteAddress) ∨
  (policy.exceptions.allowDhcp = true ∧ IsDhcp flow.remoteAddress) ∨
  ∃ range ∈ policy.exceptions.allowedDestinations, range.contains flow.remoteAddress = true

/-- A range as long as its family is wide holds its network address alone. -/
theorem contains_host {r : IpRange} (h : r.prefixLength = r.family.width) (a : IpAddress) :
    r.contains a = true ↔ a = r.network := by
  rw [IpRange.contains_iff, h, IpAddress.ext_iff, AddressFamily.width_eq]
  refine and_congr_right fun hf => ?_
  have hl : a.bytes.length = r.family.byteCount := by rw [a.length_bytes, hf]
  have hn : r.network.bytes.length = r.family.byteCount := r.network.length_bytes
  rw [← hl, agreeOn_full (hl.trans hn.symm)]

theorem mem_loopbackRanges (a : IpAddress) :
    (∃ range ∈ loopbackRanges, range.contains a = true) ↔ IsLoopback a := by
  have hranges : loopbackRanges = [loopbackV4, ⟨localhostV6, 128, by decide, by decide⟩] := by
    decide
  have hhost := contains_host (r := ⟨localhostV6, 128, by decide, by decide⟩) rfl a
  rw [hranges, List.exists_mem_cons_iff, List.exists_mem_cons_iff, hhost]
  simp [IsLoopback]

theorem mem_dhcpRanges (a : IpAddress) :
    (∃ range ∈ dhcpRanges, range.contains a = true) ↔ IsDhcp a := by
  have hranges : dhcpRanges = [⟨broadcastV4, 32, by decide, by decide⟩, linkLocalV4] := by
    decide
  have hhost := contains_host (r := ⟨broadcastV4, 32, by decide, by decide⟩) rfl a
  rw [hranges, List.exists_mem_cons_iff, List.exists_mem_cons_iff, hhost]
  simp [IsDhcp]

/-- Some permit of the policy matches a flow if and only if the policy has a
hole for it. -/
theorem permitOf_matches_iff (policy : FirewallPolicy) (flow : Flow) :
    (∃ f, PermitOf policy f ∧ f.matches flow = true) ↔ Permitted policy flow := by
  have hlayer : flow.layer ∈ connectLayers := by
    unfold Flow.layer
    cases flow.remoteAddress.family <;> decide
  unfold Permitted
  rw [← mem_loopbackRanges, ← mem_dhcpRanges]
  constructor
  · rintro ⟨f, hp, hm⟩
    cases hp with
    | interface h hl => exact .inl ((interfaceFilter_matches.mp hm).2 ▸ h)
    | endpoint h => exact .inr (.inl ⟨_, h, endpointFilter_matches.mp hm⟩)
    | loopback h hr => exact .inr (.inr (.inl ⟨h, _, hr, rangeFilter_matches.mp hm⟩))
    | dhcp h hr => exact .inr (.inr (.inr (.inl ⟨h, _, hr, rangeFilter_matches.mp hm⟩)))
    | destination h => exact .inr (.inr (.inr (.inr ⟨_, h, rangeFilter_matches.mp hm⟩)))
  · rintro (h | ⟨endpoint, h, hm⟩ | ⟨h, range, hr, hm⟩ | ⟨h, range, hr, hm⟩ | ⟨range, h, hm⟩)
    · exact ⟨_, .interface h hlayer, interfaceFilter_matches.mpr ⟨rfl, rfl⟩⟩
    · exact ⟨_, .endpoint h, endpointFilter_matches.mpr hm⟩
    · exact ⟨_, .loopback h hr, rangeFilter_matches.mpr hm⟩
    · exact ⟨_, .dhcp h hr, rangeFilter_matches.mpr hm⟩
    · exact ⟨_, .destination h, rangeFilter_matches.mpr hm⟩

/-- The filters of a policy permit what it has a hole for, and block the
rest. -/
theorem decision_policySpecs (policy : FirewallPolicy) (flow : Flow) :
    (decision sublayerGuid (policySpecs policy) flow = some .permit ↔ Permitted policy flow) ∧
      (¬ Permitted policy flow → decision sublayerGuid (policySpecs policy) flow = some .block) := by
  have hblock : ∀ f ∈ policySpecs policy, f.action = .block → f.weight = Weight.blockAll.toUInt8 := by
    intro f hf ha
    rcases mem_policySpecs.mp hf with ⟨layer, -, rfl⟩ | hp
    · rfl
    · rw [hp.action] at ha
      cases ha
  have hpermit : ∀ f ∈ policySpecs policy, f.action = .permit → PermitOf policy f := by
    intro f hf ha
    rcases mem_policySpecs.mp hf with ⟨layer, -, rfl⟩ | hp
    · cases ha
    · exact hp
  have hiff : decision sublayerGuid (policySpecs policy) flow = some .permit ↔
      Permitted policy flow := by
    rw [decision_permit_iff (fun f hf => (policySpecs_stamp hf).2.1)
      fun f hf g hg hfb hgp => hblock f hf hfb ▸ (hpermit g hg hgp).weight]
    rw [← permitOf_matches_iff]
    constructor
    · rintro ⟨f, hf, ha, hm⟩
      exact ⟨f, hpermit f hf ha, hm⟩
    · rintro ⟨f, hp, hm⟩
      exact ⟨f, mem_policySpecs.mpr (.inr hp), hp.action, hm⟩
  refine ⟨hiff, fun hn => ?_⟩
  obtain ⟨layer, hl, hm⟩ :
      ∃ layer ∈ connectLayers, (blockAllFilter layer policy.persistent).matches flow = true :=
    blockAllFilter_matches
  obtain ⟨a, ha⟩ := decision_isSome (mem_policySpecs.mpr (.inl ⟨layer, hl, rfl⟩)) rfl hm
  cases a with
  | permit => exact absurd (hiff.mp ha) hn
  | block => exact ha

/-! ## What an applied policy lets through -/

theorem apply_installs {self self' : WfpEngine} {policy : FirewallPolicy} {w w' : FwWorld}
    {ts : List fwEnv.Turn} {st : Status} (hmode : policy.mode ≠ .off)
    (hrun : Prog.exec fwEnv (self.apply policy) w ts = (.ret (st, self'), w'))
    (hok : st.isOk = true) : installedSince w w' = policySpecs policy := by
  have htarget : FwOp.target (.apply policy) = some (policySpecs policy) := by
    simp [FwOp.target, hmode]
  rcases op_outcome htarget hrun with ⟨herr, -, -⟩ | ⟨-, -, -, engine, -, t, rfl, hrep⟩
  · rw [Status.isError_eq_not_isOk, hok] at herr
    cases herr
  · exact hrep.installedSince

/-- The filters that a successful `apply` of a policy with the kill switch on
installs permit a flow if and only if the policy has a hole for it, and block
every other flow. -/
theorem apply_confines (self self' : WfpEngine) (policy : FirewallPolicy) (w w' : FwWorld)
    (ts : List fwEnv.Turn) (st : Status) (flow : Flow) (hmode : policy.mode ≠ .off)
    (hrun : Prog.exec fwEnv (self.apply policy) w ts = (.ret (st, self'), w'))
    (hok : st.isOk = true) :
    (decision sublayerGuid (installedSince w w') flow = some .permit ↔ Permitted policy flow) ∧
      (¬ Permitted policy flow →
        decision sublayerGuid (installedSince w w') flow = some .block) := by
  rw [apply_installs hmode hrun hok]
  exact decision_policySpecs policy flow

/-- A policy with one server, 203.0.113.9:1194. -/
def oneServer : FirewallPolicy where
  vpnEndpoints := [⟨.fromV4 203 0 113 9, 1194⟩]

/-- The run of `apply` in which every call succeeds. -/
def quietApply (policy : FirewallPolicy) : FwProg (Status × WfpEngine) × FwWorld :=
  Prog.exec fwEnv (WfpEngine.apply { engine := some 0 } policy) { table := .empty }
    (List.replicate 16 fwQuietTurn)

theorem quietApply_oneServer :
    quietApply oneServer =
      (.ret (Status.ok, { engine := some 0, engaged := true, policy := some oneServer }),
        (quietApply oneServer).2) := rfl

/-- A flow to the server gets out over any interface, and one to 8.8.8.8 does
not. -/
theorem apply_confines_one_server :
    decision sublayerGuid (installedSince { table := .empty } (quietApply oneServer).2)
      { localInterface := 7, remoteAddress := .fromV4 203 0 113 9 } = some .permit ∧
    decision sublayerGuid (installedSince { table := .empty } (quietApply oneServer).2)
      { localInterface := 7, remoteAddress := .fromV4 8 8 8 8 } = some .block := by
  have h (flow : Flow) := apply_confines { engine := some 0 } _ oneServer { table := .empty } _
    _ _ flow (by decide) quietApply_oneServer rfl
  refine ⟨(h _).1.mpr (.inr (.inl ⟨_, List.mem_cons_self, rfl⟩)), (h _).2 ?_⟩
  unfold Permitted IsLoopback IsDhcp
  decide

/-! ## DNS leak protection -/

/-- For a flow to port 53, outside the tunnel and not to the loopback, nor to
a server whose own port is 53: the filters of a policy that asks for DNS leak
protection block it if and only if it is to no server's address and in no
other hole of the policy. -/
theorem dns_blocked_iff (self self' : WfpEngine) (policy : FirewallPolicy) (w w' : FwWorld)
    (ts : List fwEnv.Turn) (st : Status) (flow : Flow) (hmode : policy.mode ≠ .off)
    (_hdns : policy.enforceDnsLeakProtection = true)
    (hrun : Prog.exec fwEnv (self.apply policy) w ts = (.ret (st, self'), w'))
    (hok : st.isOk = true) (_hport : flow.remotePort = 53)
    (hiface : flow.localInterface ∉ policy.permittedInterfaceLuids)
    (hloop : ¬ IsLoopback flow.remoteAddress)
    (_hserver : ∀ endpoint ∈ policy.vpnEndpoints, flow.remoteAddress = endpoint.address →
      endpoint.port ≠ 53) :
    decision sublayerGuid (installedSince w w') flow = some .block ↔
      (∀ endpoint ∈ policy.vpnEndpoints, flow.remoteAddress ≠ endpoint.address) ∧
      (policy.exceptions.allowDhcp = true → ¬ IsDhcp flow.remoteAddress) ∧
      ∀ range ∈ policy.exceptions.allowedDestinations,
        range.contains flow.remoteAddress = false := by
  obtain ⟨hiff, hblock⟩ := decision_policySpecs policy flow
  rw [apply_installs hmode hrun hok]
  have hclosed : decision sublayerGuid (policySpecs policy) flow = some .block ↔
      ¬ Permitted policy flow := by
    refine ⟨fun hb hp => ?_, hblock⟩
    rw [hiff.mpr hp] at hb
    cases hb
  rw [hclosed]
  simp only [Permitted, hiface, hloop, and_false, false_or, not_or, not_exists, not_and,
    Bool.not_eq_true]

/-- A DNS query to the server's address, with the policy of the server at
1194. -/
def serverQuery : Flow where
  localInterface := 7
  remoteAddress := .fromV4 203 0 113 9
  remotePort := 53

/-- A query to 8.8.8.8 under the same policy is blocked. -/
theorem dns_blocked_public_resolver :
    decision sublayerGuid (installedSince { table := .empty } (quietApply oneServer).2)
      { localInterface := 7, remoteAddress := .fromV4 8 8 8 8, remotePort := 53 } =
        some .block := by
  refine (dns_blocked_iff { engine := some 0 } _ oneServer { table := .empty } _ _ _ _
    (by decide) rfl quietApply_oneServer rfl rfl (by decide) ?_ (by decide)).mpr (by
      unfold IsDhcp
      decide)
  unfold IsLoopback
  decide

/-- A query to the address of the server, which listens on 1194, gets out. -/
theorem dns_leaks_to_server :
    ¬ ∀ (self self' : WfpEngine) (policy : FirewallPolicy) (w w' : FwWorld)
      (ts : List fwEnv.Turn) (st : Status) (flow : Flow), policy.mode ≠ .off →
      policy.enforceDnsLeakProtection = true →
      Prog.exec fwEnv (self.apply policy) w ts = (.ret (st, self'), w') → st.isOk = true →
      flow.remotePort = 53 → flow.localInterface ∉ policy.permittedInterfaceLuids →
      ¬ IsLoopback flow.remoteAddress →
      (∀ endpoint ∈ policy.vpnEndpoints, flow.remoteAddress = endpoint.address →
        endpoint.port ≠ 53) →
      decision sublayerGuid (installedSince w w') flow = some .block := by
  intro h
  have hblock := h { engine := some 0 } _ oneServer { table := .empty } _ _ _ serverQuery
    (by decide) rfl quietApply_oneServer rfl rfl (by decide) (by unfold IsLoopback; decide)
    (by decide)
  rw [apply_installs (by decide) quietApply_oneServer rfl] at hblock
  revert hblock
  decide

end NovaVpn.Firewall
