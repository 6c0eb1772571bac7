import NovaVpn.Firewall.Wfp

/-!
# The firewall engine

`Firewall/WfpEngine.cpp`. The engine's members are passed along explicitly
(`WfpEngine`); its operations are programs over the platform's calls. Each of
them runs under the engine's mutex from its first line to its last.

`applyPolicyLocked` adds filters one after another and stops at the first
that fails; `applyPolicyLocked_eq` gathers them in one list, `policyFilters`.
-/

namespace NovaVpn.Firewall

open NovaVpn.Framework NovaVpn.Net

/-! ## Policies -/

inductive KillSwitchMode where
  | off
  | soft
  | hard
  deriving DecidableEq, Repr

/-- The exceptions the engine reads; the others of the source have no code
yet. -/
structure FirewallExceptions where
  allowLoopback : Bool := true
  allowDhcp : Bool := true
  allowedDestinations : List IpRange := []
  deriving DecidableEq, Repr

structure FirewallPolicy where
  mode : KillSwitchMode := .soft
  exceptions : FirewallExceptions := {}
  permittedInterfaceLuids : List UInt64 := []
  vpnEndpoints : List Endpoint := []
  persistent : Bool := false
  enforceDnsLeakProtection : Bool := true
  deriving DecidableEq, Repr

/-- `kProviderGuid`. -/
def providerGuid : Guid := 0x6e2a1f304b774e9c9e216b0e0a9d31a1

/-- `kSublayerGuid`. -/
def sublayerGuid : Guid := 0x6e2a1f314b774e9c9e216b0e0a9d31a1

/-- `Weight`. -/
inductive Weight where
  | blockAll
  | permitLoopback
  | permitDhcp
  | permitLan
  | permitTunnel
  | permitEndpoint
  | blockDnsLeak
  deriving DecidableEq, Repr

def Weight.toUInt8 : Weight → UInt8
  | blockAll => 1
  | permitLoopback => 8
  | permitDhcp => 9
  | permitLan => 10
  | permitTunnel => 12
  | permitEndpoint => 14
  | blockDnsLeak => 13

def wfpError (code : UInt32) (context : String) : Status where
  code := if code = fwpAlreadyExists then .alreadyExists else .firewallApplyFailed
  message := context ++ " failed"
  platformCode := code

@[simp] theorem isError_wfpError (code : UInt32) (context : String) :
    (wfpError code context).isError = true := by
  unfold wfpError Status.isError
  split <;> rfl

/-- `Result::value`, of a result that is a value. -/
def value {α : Type} : (r : Result α) → r.isOk = true → α
  | .ok a, _ => a
  | .error _, h => absurd h (by simp [Except.isOk, Except.toBool])

/-! ## The filters -/

def connectLayers : List Layer := [.connectV4, .connectV6]

def stampCommon (layer : Layer) (weight : Weight) (persistent : Bool) (name : String)
    (action : Action) (conditions : List Condition) : FilterSpec where
  layerKey := layer
  subLayerKey := sublayerGuid
  providerKey := some providerGuid
  name := name
  weight := weight.toUInt8
  persistent := persistent
  action := action
  conditions := conditions

def simpleFilter (layer : Layer) (action : Action) (weight : Weight) (name : String)
    (persistent : Bool) : FilterSpec :=
  stampCommon layer weight persistent name action []

def interfaceFilter (layer : Layer) (luid : UInt64) (weight : Weight) (persistent : Bool) :
    FilterSpec :=
  stampCommon layer weight persistent "NovaVPN permit tunnel interface" .permit
    [⟨.ipLocalInterface, .uint64 luid⟩]

def layerOf (v4 : Bool) : Layer := if v4 then .connectV4 else .connectV6

/-- The port of the endpoint is not looked at. -/
def endpointFilter (endpoint : Endpoint) (weight : Weight) (persistent : Bool) : FilterSpec :=
  let v4 := endpoint.address.isV4
  let value : ConditionValue :=
    if v4 then .uint32 (v4Word endpoint.address.bytes) else .byteArray16 endpoint.address.bytes
  stampCommon (layerOf v4) weight persistent "NovaVPN permit VPN endpoint" .permit
    [⟨.ipRemoteAddress, value⟩]

/-- The mask of an IPv4 prefix. A shift by 32 is avoided. -/
def v4Mask (prefixLength : Nat) : BitVec 32 :=
  if prefixLength = 0 then 0 else 0xFFFFFFFF#32 <<< (32 - prefixLength)

def rangeFilter (range : IpRange) (weight : Weight) (persistent : Bool) : FilterSpec :=
  let v4 : Bool := range.family = .ipv4
  let value : ConditionValue :=
    if v4 then .v4AddrMask (v4Word range.network.bytes) (v4Mask range.prefixLength)
    else .v6AddrMask range.network.bytes range.prefixLength
  stampCommon (layerOf v4) weight persistent "NovaVPN permit destination" .permit
    [⟨.ipRemoteAddress, value⟩]

def loopbackRanges : List IpRange :=
  [value (IpRange.parse "127.0.0.0/8".toList) (by decide),
    value (IpRange.parse "::1/128".toList) (by decide)]

def dhcpRanges : List IpRange :=
  [value (IpRange.parse "255.255.255.255/32".toList) (by decide),
    value (IpRange.parse "169.254.0.0/16".toList) (by decide)]

/-! ## The engine -/

structure WfpEngine where
  /-- `m_engine`: the session, while one is open. -/
  engine : Option Nat := none
  engaged : Bool := false
  policy : Option FirewallPolicy := none
  deriving DecidableEq, Repr

/-- `NOVA_RETURN_IF_ERROR`. -/
def andThen (p q : FwProg Status) : FwProg Status := do
  let status ← p
  if status.isError then pure status else q

def forEach {α : Type} : List α → (α → FwProg Status) → FwProg Status
  | [], _ => pure Status.ok
  | x :: xs, f => andThen (f x) (forEach xs f)

namespace WfpEngine

/-- One call that answers an error code. -/
def checked (call : FwProg UInt32) (context : String) : FwProg Status := do
  let result ← call
  if result ≠ Win.noError then pure (wfpError result context) else pure Status.ok

/-- The same for an object that may be there already. -/
def ensured (call : FwProg UInt32) (context : String) : FwProg Status := do
  let result ← call
  if result ≠ Win.noError ∧ result ≠ fwpAlreadyExists then pure (wfpError result context)
  else pure Status.ok

def ensureProviderAndSublayer (engine : Nat) : FwProg Status :=
  andThen (ensured (FwCall.perform (.providerAdd engine)) "FwpmProviderAdd")
    (ensured (FwCall.perform (.subLayerAdd engine)) "FwpmSubLayerAdd")

def beginTransaction (engine : Nat) : FwProg Status :=
  checked (FwCall.perform (.transactionBegin engine)) "FwpmTransactionBegin"

def deleteEach (engine : Nat) : List Nat → FwProg Unit
  | [] => pure ()
  | id :: ids => do
    let _ ← FwCall.perform (.filterDeleteById engine id)
    deleteEach engine ids

/-- The identifiers of the filters an enumeration answered that carry the
provider; none if it failed. -/
def ownIds : Except UInt32 (List Filter) → List Nat
  | .ok entries => (entries.filter fun f => f.spec.providerKey = some providerGuid).map (·.id)
  | .error _ => []

/-- One enumeration of at most 512 filters; neither its failure nor that of a
delete is an error. -/
def clearFiltersInTransaction (engine : Nat) : FwProg Status := do
  let result ← FwCall.perform (.filterCreateEnumHandle engine)
  if result ≠ Win.noError then pure (wfpError result "FwpmFilterCreateEnumHandle")
  else do
    let entries ← FwCall.perform (.filterEnum engine 512)
    let _ ← FwCall.perform (.filterDestroyEnumHandle engine)
    deleteEach engine (ownIds entries)
    pure Status.ok

/-- The end of a transaction: abort after an error, else commit. -/
def finish (engine : Nat) (status : Status) (context : String) : FwProg Status :=
  if status.isError then do
    let _ ← FwCall.perform (.transactionAbort engine)
    pure status
  else checked (FwCall.perform (.transactionCommit engine)) context

def clearFiltersLocked (engine : Nat) : FwProg Status :=
  andThen (beginTransaction engine) do
    let status ← clearFiltersInTransaction engine
    finish engine status "FwpmTransactionCommit(clear)"

def addFilter (engine : Nat) (spec : FilterSpec) (context : String) : FwProg Status :=
  checked (FwCall.perform (.filterAdd engine spec)) context

def addSimpleFilter (engine : Nat) (layer : Layer) (action : Action) (weight : Weight)
    (name : String) (persistent : Bool) : FwProg Status :=
  addFilter engine (simpleFilter layer action weight name persistent) "FwpmFilterAdd(block-all)"

def addInterfaceFilter (engine : Nat) (layer : Layer) (luid : UInt64) (weight : Weight)
    (persistent : Bool) : FwProg Status :=
  addFilter engine (interfaceFilter layer luid weight persistent)
    "FwpmFilterAdd(permit interface)"

def addEndpointFilter (engine : Nat) (endpoint : Endpoint) (weight : Weight) (persistent : Bool) :
    FwProg Status :=
  addFilter engine (endpointFilter endpoint weight persistent) "FwpmFilterAdd(permit endpoint)"

def addRangeFilter (engine : Nat) (range : IpRange) (weight : Weight) (persistent : Bool) :
    FwProg Status :=
  addFilter engine (rangeFilter range weight persistent) "FwpmFilterAdd(permit range)"

def addLoopbackFilters (engine : Nat) (persistent : Bool) : FwProg Status :=
  forEach loopbackRanges fun range => addRangeFilter engine range .permitLoopback persistent

def addDhcpFilters (engine : Nat) (persistent : Bool) : FwProg Status :=
  forEach dhcpRanges fun range => addRangeFilter engine range .permitDhcp persistent

def applyPolicyLocked (engine : Nat) (policy : FirewallPolicy) : FwProg Status :=
  andThen (clearFiltersInTransaction engine) <|
  andThen (forEach connectLayers fun layer =>
    addSimpleFilter engine layer .block .blockAll "NovaVPN block-all" policy.persistent) <|
  andThen (forEach policy.permittedInterfaceLuids fun luid =>
    forEach connectLayers fun layer =>
      addInterfaceFilter engine layer luid .permitTunnel policy.persistent) <|
  andThen (forEach policy.vpnEndpoints fun endpoint =>
    addEndpointFilter engine endpoint .permitEndpoint policy.persistent) <|
  andThen (if policy.exceptions.allowLoopback then addLoopbackFilters engine policy.persistent
    else pure Status.ok) <|
  andThen (if policy.exceptions.allowDhcp then addDhcpFilters engine policy.persistent
    else pure Status.ok) <|
  forEach policy.exceptions.allowedDestinations fun range =>
    addRangeFilter engine range .permitLan policy.persistent

def notOpen : Status := Err.invalidState "firewall engine not open"

def openEngine (self : WfpEngine) : FwProg (Status × WfpEngine) :=
  match self.engine with
  | some _ => pure (Status.ok, self)
  | none => do
    match ← FwCall.perform .engineOpen with
    | .error code => pure (wfpError code "FwpmEngineOpen", self)
    | .ok engine => do
      let status ← ensureProviderAndSublayer engine
      if status.isError then do
        let _ ← FwCall.perform (.engineClose engine)
        pure (status, self)
      else pure (Status.ok, { self with engine := some engine })

/-- The flags are left as they are. -/
def close (self : WfpEngine) : FwProg (Status × WfpEngine) :=
  match self.engine with
  | none => pure (Status.ok, self)
  | some engine => do
    let _ ← FwCall.perform (.engineClose engine)
    pure (Status.ok, { self with engine := none })

/-- What `clear`, and `apply` of the mode off, do. -/
def release (self : WfpEngine) (engine : Nat) : FwProg (Status × WfpEngine) := do
  let status ← clearFiltersLocked engine
  if status.isError then pure (status, self)
  else pure (Status.ok, { self with engaged := false, policy := none })

def apply (self : WfpEngine) (policy : FirewallPolicy) : FwProg (Status × WfpEngine) :=
  match self.engine with
  | none => pure (notOpen, self)
  | some engine =>
    if policy.mode = .off then self.release engine
    else do
      let status ← andThen (beginTransaction engine) do
        let status ← applyPolicyLocked engine policy
        finish engine status "FwpmTransactionCommit"
      if status.isError then pure (status, self)
      else pure (Status.ok, { self with engaged := true, policy := some policy })

def clear (self : WfpEngine) : FwProg (Status × WfpEngine) :=
  match self.engine with
  | none => pure (notOpen, self)
  | some engine => self.release engine

def reconcile (self : WfpEngine) : FwProg (Status × WfpEngine) :=
  match self.engine with
  | none => pure (notOpen, self)
  | some engine => do
    let status ← clearFiltersLocked engine
    pure (status, self)

end WfpEngine

/-- The operations of `IFirewallEngine` that change something. -/
inductive FwOp where
  | openEngine
  | close
  | apply (policy : FirewallPolicy)
  | clear
  | reconcile
  deriving DecidableEq, Repr

def FwOp.run : FwOp → WfpEngine → FwProg (Status × WfpEngine)
  | .openEngine => WfpEngine.openEngine
  | .close => WfpEngine.close
  | .apply policy => fun self => self.apply policy
  | .clear => WfpEngine.clear
  | .reconcile => WfpEngine.reconcile

/-! ## The filters of a policy -/

/-- The block-all filter of a layer. -/
def blockAllFilter (layer : Layer) (persistent : Bool) : FilterSpec :=
  simpleFilter layer .block .blockAll "NovaVPN block-all" persistent

/-- The filters `applyPolicyLocked` builds, in the order it adds them, with
what it calls the adding of each. -/
def policyFilters (policy : FirewallPolicy) : List (FilterSpec × String) :=
  connectLayers.map (fun layer =>
    (blockAllFilter layer policy.persistent, "FwpmFilterAdd(block-all)")) ++
  policy.permittedInterfaceLuids.flatMap (fun luid => connectLayers.map fun layer =>
    (interfaceFilter layer luid .permitTunnel policy.persistent,
      "FwpmFilterAdd(permit interface)")) ++
  policy.vpnEndpoints.map (fun endpoint =>
    (endpointFilter endpoint .permitEndpoint policy.persistent, "FwpmFilterAdd(permit endpoint)")) ++
  (if policy.exceptions.allowLoopback then loopbackRanges.map fun range =>
    (rangeFilter range .permitLoopback policy.persistent, "FwpmFilterAdd(permit range)") else []) ++
  (if policy.exceptions.allowDhcp then dhcpRanges.map fun range =>
    (rangeFilter range .permitDhcp policy.persistent, "FwpmFilterAdd(permit range)") else []) ++
  policy.exceptions.allowedDestinations.map (fun range =>
    (rangeFilter range .permitLan policy.persistent, "FwpmFilterAdd(permit range)"))

def policySpecs (policy : FirewallPolicy) : List FilterSpec := (policyFilters policy).map (·.1)

def addAll (engine : Nat) (filters : List (FilterSpec × String)) : FwProg Status :=
  forEach filters fun f => WfpEngine.addFilter engine f.1 f.2

theorem andThen_assoc (p q r : FwProg Status) :
    andThen (andThen p q) r = andThen p (andThen q r) := by
  unfold andThen
  rw [Prog.bind_assoc]
  congr 1
  funext status
  by_cases h : status.isError = true
  · simp [h, Prog.pure_eq, Prog.bind_eq]
  · simp [h]

theorem andThen_forEach {α : Type} (xs ys : List α) (f : α → FwProg Status) :
    andThen (forEach xs f) (forEach ys f) = forEach (xs ++ ys) f := by
  induction xs with
  | nil => simp [forEach, andThen, Prog.pure_eq, Prog.bind_eq]
  | cons x xs ih => rw [forEach, andThen_assoc, ih, List.cons_append, forEach]

theorem forEach_map {α β : Type} (g : α → β) (xs : List α) (f : β → FwProg Status) :
    forEach (xs.map g) f = forEach xs fun x => f (g x) := by
  induction xs with
  | nil => rfl
  | cons x xs ih => rw [List.map_cons, forEach, ih, forEach]

theorem forEach_flatMap {α β : Type} (g : α → List β) (xs : List α) (f : β → FwProg Status) :
    forEach (xs.flatMap g) f = forEach xs fun x => forEach (g x) f := by
  induction xs with
  | nil => rfl
  | cons x xs ih => rw [List.flatMap_cons, ← andThen_forEach, ih, forEach]

/-- `applyPolicyLocked` sweeps, then adds the filters of the policy. -/
theorem applyPolicyLocked_eq (engine : Nat) (policy : FirewallPolicy) :
    WfpEngine.applyPolicyLocked engine policy =
      andThen (WfpEngine.clearFiltersInTransaction engine) (addAll engine (policyFilters policy)) := by
  have hif (c : Bool) (xs : List (FilterSpec × String)) :
      addAll engine (if c then xs else []) = if c then addAll engine xs else pure Status.ok := by
    cases c <;> rfl
  have happ (xs ys : List (FilterSpec × String)) :
      addAll engine (xs ++ ys) = andThen (addAll engine xs) (addAll engine ys) :=
    (andThen_forEach xs ys _).symm
  simp only [policyFilters, happ, hif, andThen_assoc]
  simp only [addAll, forEach_map, forEach_flatMap]
  rfl

/-- The permits of a policy, by what they are for. -/
inductive PermitOf (policy : FirewallPolicy) : FilterSpec → Prop where
  | interface {luid : UInt64} (h : luid ∈ policy.permittedInterfaceLuids) {layer : Layer}
      (hl : layer ∈ connectLayers) :
      PermitOf policy (interfaceFilter layer luid .permitTunnel policy.persistent)
  | endpoint {endpoint : Endpoint} (h : endpoint ∈ policy.vpnEndpoints) :
      PermitOf policy (endpointFilter endpoint .permitEndpoint policy.persistent)
  | loopback (h : policy.exceptions.allowLoopback = true) {range : IpRange}
      (hr : range ∈ loopbackRanges) :
      PermitOf policy (rangeFilter range .permitLoopback policy.persistent)
  | dhcp (h : policy.exceptions.allowDhcp = true) {range : IpRange} (hr : range ∈ dhcpRanges) :
      PermitOf policy (rangeFilter range .permitDhcp policy.persistent)
  | destination {range : IpRange} (h : range ∈ policy.exceptions.allowedDestinations) :
      PermitOf policy (rangeFilter range .permitLan policy.persistent)

theorem mem_policySpecs {policy : FirewallPolicy} {f : FilterSpec} :
    f ∈ policySpecs policy ↔
      (∃ layer ∈ connectLayers, f = blockAllFilter layer policy.persistent) ∨ PermitOf policy f := by
  have hite {c : Bool} {xs : List (FilterSpec × String)} {x : FilterSpec × String} :
      (x ∈ if c then xs else []) ↔ c = true ∧ x ∈ xs := by cases c <;> simp
  simp only [policySpecs, policyFilters, List.mem_map, List.mem_append, List.mem_flatMap, hite]
  constructor
  · rintro ⟨-, ((((⟨layer, hl, rfl⟩ | ⟨luid, h, layer, hl, rfl⟩) | ⟨endpoint, h, rfl⟩) |
      ⟨h, range, hr, rfl⟩) | ⟨h, range, hr, rfl⟩) | ⟨range, h, rfl⟩, rfl⟩
    · exact .inl ⟨layer, hl, rfl⟩
    · exact .inr (.interface h hl)
    · exact .inr (.endpoint h)
    · exact .inr (.loopback h hr)
    · exact .inr (.dhcp h hr)
    · exact .inr (.destination h)
  · rintro (⟨layer, hl, rfl⟩ | hp)
    · exact ⟨_, .inl (.inl (.inl (.inl (.inl ⟨layer, hl, rfl⟩)))), rfl⟩
    cases hp with
    | interface h hl => exact ⟨_, .inl (.inl (.inl (.inl (.inr ⟨_, h, _, hl, rfl⟩)))), rfl⟩
    | endpoint h => exact ⟨_, .inl (.inl (.inl (.inr ⟨_, h, rfl⟩))), rfl⟩
    | loopback h hr => exact ⟨_, .inl (.inl (.inr ⟨h, _, hr, rfl⟩)), rfl⟩
    | dhcp h hr => exact ⟨_, .inl (.inr ⟨h, _, hr, rfl⟩), rfl⟩
    | destination h => exact ⟨_, .inr ⟨_, h, rfl⟩, rfl⟩

theorem PermitOf.action {policy : FirewallPolicy} {f : FilterSpec} (h : PermitOf policy f) :
    f.action = .permit := by
  cases h <;> rfl

/-- Every permit weighs more than block-all. -/
theorem PermitOf.weight {policy : FirewallPolicy} {f : FilterSpec} (h : PermitOf policy f) :
    Weight.blockAll.toUInt8 < f.weight := by
  cases h with
  | interface => exact (by decide : Weight.blockAll.toUInt8 < Weight.permitTunnel.toUInt8)
  | endpoint => exact (by decide : Weight.blockAll.toUInt8 < Weight.permitEndpoint.toUInt8)
  | loopback => exact (by decide : Weight.blockAll.toUInt8 < Weight.permitLoopback.toUInt8)
  | dhcp => exact (by decide : Weight.blockAll.toUInt8 < Weight.permitDhcp.toUInt8)
  | destination => exact (by decide : Weight.blockAll.toUInt8 < Weight.permitLan.toUInt8)

/-- What all filters of a policy have in common. -/
theorem policySpecs_stamp {policy : FirewallPolicy} {f : FilterSpec} (h : f ∈ policySpecs policy) :
    f.providerKey = some providerGuid ∧ f.subLayerKey = sublayerGuid ∧
      f.persistent = policy.persistent := by
  rcases mem_policySpecs.mp h with ⟨layer, -, rfl⟩ | hp
  · exact ⟨rfl, rfl, rfl⟩
  · cases hp <;> exact ⟨rfl, rfl, rfl⟩

end NovaVpn.Firewall
