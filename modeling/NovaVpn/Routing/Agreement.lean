import NovaVpn.Routing.RoutingRules

/-!
# Routes and the evaluator

What `applyPolicy` adds to an empty table when no call fails is a row for each
enabled rule, with the rule's range and interface; the system then sends an
address to the interface of the longest row that covers it. `agrees_iff` says
for which policies this is what the evaluator decides: the rows know nothing of
ports, transports and priorities.
-/

namespace NovaVpn.Routing

open NovaVpn.Framework NovaVpn.Net

/-! ## The rows -/

/-- The entry that `applyPolicy` adds for a rule. -/
def ruleEntry (rule : IpRule) (interfaceIndex : UInt32) : RouteEntry :=
  { destination := rule.range, interfaceIndex, metric := ownedRouteMetric }

/-- A row with this key is added for the rule. -/
def RouteWorld.Adds (w : RouteWorld) (rule : IpRule) (key : RowKey) : Prop :=
  rule.enabled = true ∧ ∃ i, w.interfaceFor rule = some i ∧ i ≠ 0 ∧ key = rowKey (ruleEntry rule i)

/-- The interfaces are bound as before. -/
def RouteWorld.SameBindings (w w' : RouteWorld) : Prop :=
  w'.tunnelInterfaces = w.tunnelInterfaces ∧ w'.underlayInterface = w.underlayInterface

theorem RouteWorld.SameBindings.interfaceFor {w w' : RouteWorld} (h : w.SameBindings w')
    (rule : IpRule) : w'.interfaceFor rule = w.interfaceFor rule := by
  simp only [RouteWorld.interfaceFor, h.1, h.2]

theorem RouteWorld.SameBindings.adds {w w' : RouteWorld} (h : w.SameBindings w') (rule : IpRule)
    (key : RowKey) : w'.Adds rule key ↔ w.Adds rule key := by
  simp only [RouteWorld.Adds, h.interfaceFor]

/-- `addRoute` when no call fails. -/
theorem complete_addRoute {entry : RouteEntry} {row : ForwardRow} (h : toRow entry = .ok row)
    (w : RouteWorld) :
    Prog.complete routeEnv quietTurn (RouteManager.addRoute entry) w =
      (Status.ok, ((w.recordRoute entry .saved).2.createIpForwardEntry2 row none).2) := by
  have hrecord : Prog.complete routeEnv quietTurn (RouteManager.recordRoute entry) w =
      w.recordRoute entry .saved := rfl
  have hok : (w.recordRoute entry .saved).1 = Status.ok := rfl
  unfold RouteManager.addRoute
  simp only [h, Prog.complete_bind, hrecord, hok, Status.isError_ok, Bool.false_eq_true, ite_false]
  generalize (w.recordRoute entry .saved).2 = w'
  have hcreate : Prog.complete routeEnv quietTurn (RouteManager.createIpForwardEntry2 row) w' =
      w'.createIpForwardEntry2 row none := rfl
  rw [hcreate]
  by_cases hrow : (w'.table row.key).isSome = true <;>
    simp [RouteWorld.createIpForwardEntry2, hrow]

theorem sameBindings_created (w : RouteWorld) (entry : RouteEntry) (row : ForwardRow) :
    w.SameBindings ((w.recordRoute entry .saved).2.createIpForwardEntry2 row none).2 := by
  unfold RouteWorld.createIpForwardEntry2
  dsimp only
  split <;> exact ⟨rfl, rfl⟩

theorem isSome_created (w : RouteWorld) (entry : RouteEntry) (row : ForwardRow) (key : RowKey) :
    (((w.recordRoute entry .saved).2.createIpForwardEntry2 row none).2.table key).isSome = true ↔
      (w.table key).isSome = true ∨ key = row.key := by
  unfold RouteWorld.createIpForwardEntry2
  dsimp only
  split
  · rename_i hrow
    rw [RouteWorld.table_recordRoute] at hrow ⊢
    refine ⟨.inl, fun h => ?_⟩
    rcases h with h | rfl
    · exact h
    · exact hrow
  · by_cases hk : key = row.key
    · simp [hk]
    · simp [hk]

/-- What `applyPolicy` leaves when no call fails. -/
theorem complete_applyRules (rules : List IpRule) (w : RouteWorld) :
    let r := Prog.complete routeEnv quietTurn (RouteManager.applyRules rules) w
    r.1 = Status.ok ∧
      ∀ key, (r.2.table key).isSome = true ↔
        (w.table key).isSome = true ∨ ∃ rule ∈ rules, w.Adds rule key := by
  induction rules generalizing w with
  | nil => exact ⟨rfl, fun key => by simp [RouteManager.applyRules]⟩
  | cons rule rules ih =>
    have skip (h : ∀ key, ¬w.Adds rule key) (key : RowKey) :
        (∃ r ∈ rule :: rules, w.Adds r key) ↔ ∃ r ∈ rules, w.Adds r key := by
      simp [h]
    have hasked : Prog.complete routeEnv quietTurn (RouteManager.interfaceFor rule) w =
        (w.interfaceFor rule, w) := rfl
    rw [RouteManager.applyRules]
    split
    · rename_i he
      simp only [skip fun key ha => by simp [ha.1] at he]
      exact ih w
    · rename_i he
      rw [Prog.complete_bind, hasked]
      cases hi : w.interfaceFor rule with
      | none =>
        simp only [skip fun key ha => by simp [RouteWorld.Adds, hi] at ha]
        exact ih w
      | some i =>
        dsimp only
        split
        · rename_i h0
          simp only [skip fun key ha => by simp [RouteWorld.Adds, hi, h0] at ha]
          exact ih w
        · rename_i h0
          have hrow : toRow (ruleEntry rule i) =
              .ok { key := rowKey (ruleEntry rule i), metric := ownedRouteMetric } := rfl
          rw [Prog.complete_bind, ← ruleEntry, complete_addRoute hrow]
          simp only [Status.isError_ok, Bool.false_eq_true, ite_false]
          have hsame := sameBindings_created w (ruleEntry rule i)
            { key := rowKey (ruleEntry rule i), metric := ownedRouteMetric }
          obtain ⟨hok, htable⟩ := ih _
          refine ⟨hok, fun key => ?_⟩
          rw [htable, isSome_created]
          have henabled : rule.enabled = true := by simpa using he
          have hadds : w.Adds rule key ↔ key = rowKey (ruleEntry rule i) := by
            simp [RouteWorld.Adds, hi, henabled, h0]
          simp only [hsame.adds, List.exists_mem_cons_iff, hadds, or_assoc]

/-! ## The two decisions -/

/-- Longest-prefix lookup: the address goes to the interface of a row that covers
it and that no other such row exceeds in length. -/
def RouteWorld.LooksUp (w : RouteWorld) (a : IpAddress) (i : UInt32) : Prop :=
  ∃ key, (w.table key).isSome = true ∧ key.destination.contains a = true ∧
    key.interfaceIndex = i ∧
    ∀ key', (w.table key').isSome = true → key'.destination.contains a = true →
      key'.destination.prefixLength ≤ key.destination.prefixLength

/-- The rule that decides, by the id in the decision. -/
def RoutingPolicy.Decides (p : RoutingPolicy) (address : IpAddress) (rule : IpRule) : Prop :=
  rule ∈ p.ipRules ∧ (p.evaluateAddress address).matchedRuleKind = "ip" ∧
    (p.evaluateAddress address).matchedRuleId = rule.id

/-- A manager without routes. -/
def RouteWorld.IsEmpty (w : RouteWorld) : Prop := ∀ key, w.table key = none

/-- Every rule of the policy has an interface to land on; so none of them
blocks. -/
def RouteWorld.Binds (w : RouteWorld) (p : RoutingPolicy) : Prop :=
  ∀ rule ∈ p.ipRules, rule.enabled = true → ∃ i, w.interfaceFor rule = some i ∧ i ≠ 0

/-- The state after `applyPolicy`, if no call fails. -/
def RouteWorld.applied (w : RouteWorld) (p : RoutingPolicy) : RouteWorld :=
  (Prog.complete routeEnv quietTurn (RouteManager.applyPolicy p) w).2

/-- The routes of the policy send the address where the evaluator says: to one
interface, that of the rule that decides; and if none decides no route covers
it. -/
structure Agrees (w : RouteWorld) (p : RoutingPolicy) (address : IpAddress) : Prop where
  matched : ∀ rule, p.Decides address rule →
    ∀ i, (w.applied p).LooksUp address.normalized i ↔ w.interfaceFor rule = some i
  unmatched : (p.evaluateAddress address).matchedRuleKind ≠ "ip" →
    ∀ key, ((w.applied p).table key).isSome = true →
      key.destination.contains address.normalized = false

/-- A rule that covers the address, and that no other such rule exceeds in the
length of its prefix, whatever its restrictions. -/
def RoutingPolicy.Longest (p : RoutingPolicy) (a : IpAddress) (rule : IpRule) : Prop :=
  rule ∈ p.ipRules ∧ rule.covers a = true ∧
    ∀ r ∈ p.ipRules, r.covers a = true → r.range.prefixLength ≤ rule.range.prefixLength

/-- Of the rules without restrictions that cover the address, the first of the
greatest rank. -/
def RoutingPolicy.preferred (p : RoutingPolicy) (a : IpAddress) : Option IpRule :=
  (p.ipRules.filter fun rule =>
    rule.covers a && rule.port.isNone && rule.transport.isNone).argmax IpRule.rank

section Agree

variable {w : RouteWorld} {p : RoutingPolicy} {address a : IpAddress}

theorem bestRule_eq_preferred (p : RoutingPolicy) (a : IpAddress) :
    p.bestRule a none none = p.preferred a := by
  rw [RoutingPolicy.bestRule_eq_argmax, RoutingPolicy.preferred]
  refine congrArg (List.argmax IpRule.rank) (List.filter_congr fun rule _ => ?_)
  cases hp : rule.port <;> cases ht : rule.transport <;>
    simp [IpRule.applies, IpRule.admits, hp, ht]

theorem preferred_mem {rule : IpRule} (h : p.preferred a = some rule) :
    rule ∈ p.ipRules ∧ rule.covers a = true := by
  have hmem := List.argmax_mem (Option.mem_def.mpr h)
  rw [List.mem_filter, Bool.and_eq_true, Bool.and_eq_true] at hmem
  exact ⟨hmem.1, hmem.2.1.1⟩

/-- The rule that decides is the preferred one. -/
theorem decides_iff (hids : (p.ipRules.map IpRule.id).Nodup) (rule : IpRule) :
    p.Decides address rule ↔ p.preferred address.normalized = some rule := by
  unfold RoutingPolicy.Decides RoutingPolicy.evaluateAddress
  rw [bestRule_eq_preferred]
  cases hb : p.preferred address.normalized with
  | none => simp [RoutingPolicy.defaultDecision]
  | some best =>
    simp only [decisionFrom, true_and, Option.some.injEq]
    constructor
    · rintro ⟨hmem, hid⟩
      exact List.inj_on_of_nodup_map hids (preferred_mem hb).1 hmem hid
    · rintro rfl
      exact ⟨(preferred_mem hb).1, rfl⟩

theorem matchedRuleKind_iff :
    (p.evaluateAddress address).matchedRuleKind ≠ "ip" ↔ p.preferred address.normalized = none := by
  unfold RoutingPolicy.evaluateAddress
  rw [bestRule_eq_preferred]
  cases p.preferred address.normalized with
  | none => simp [RoutingPolicy.defaultDecision]
  | some best => simp [decisionFrom]

theorem exists_longest {rule : IpRule} (hmem : rule ∈ p.ipRules) (hc : rule.covers a = true) :
    ∃ r, p.Longest a r := by
  let covering := p.ipRules.filter fun r => r.covers a
  cases hm : covering.argmax fun r => r.range.prefixLength with
  | none =>
    rw [List.argmax_eq_none, List.filter_eq_nil_iff] at hm
    exact absurd hc (hm rule hmem)
  | some r =>
    obtain ⟨hr, hrc⟩ := List.mem_filter.mp (List.argmax_mem (Option.mem_def.mpr hm))
    refine ⟨r, hr, hrc, fun r' hr' hc' => ?_⟩
    have hr' : r' ∈ covering := List.mem_filter.mpr ⟨hr', hc'⟩
    exact List.le_of_mem_argmax (f := fun r : IpRule => r.range.prefixLength) hr'
      (Option.mem_def.mpr hm)

/-- `applyPolicy` returns ok after enough calls, if none fails. -/
theorem exec_applyPolicy (w : RouteWorld) (p : RoutingPolicy) :
    ∃ n, ∀ m ≥ n, Prog.exec routeEnv (RouteManager.applyPolicy p) w (List.replicate m quietTurn) =
      (.ret Status.ok, w.applied p) := by
  have hok := (complete_applyRules p.ipRules w).1
  have hexec := Prog.exec_replicate quietTurn (RouteManager.applyPolicy p) w
  rwa [show (Prog.complete routeEnv quietTurn (RouteManager.applyPolicy p) w).1 = Status.ok from hok]
    at hexec

/-- The rows after `applyPolicy` are those of the rules. -/
theorem isSome_applied (hempty : w.IsEmpty) (key : RowKey) :
    ((w.applied p).table key).isSome = true ↔ ∃ rule ∈ p.ipRules, w.Adds rule key := by
  have htable := (complete_applyRules p.ipRules w).2 key
  rw [hempty key] at htable
  simpa [RouteWorld.applied, RouteManager.applyPolicy] using htable

/-- The lookup finds the interfaces of the longest rules. -/
theorem looksUp_iff (hempty : w.IsEmpty) (hbound : w.Binds p) {i : UInt32} :
    (w.applied p).LooksUp a i ↔ ∃ rule, p.Longest a rule ∧ w.interfaceFor rule = some i := by
  unfold RouteWorld.LooksUp
  simp only [isSome_applied hempty]
  constructor
  · rintro ⟨key, ⟨rule, hmem, henabled, j, hj, h0, rfl⟩, hc, rfl, hmax⟩
    refine ⟨rule, ⟨hmem, by simp only [IpRule.covers, henabled, Bool.true_and]; exact hc, ?_⟩, hj⟩
    intro r hr hrc
    rw [IpRule.covers, Bool.and_eq_true] at hrc
    obtain ⟨j', hj', h0'⟩ := hbound r hr hrc.1
    exact hmax (rowKey (ruleEntry r j')) ⟨r, hr, hrc.1, j', hj', h0', rfl⟩ hrc.2
  · rintro ⟨rule, ⟨hmem, hc, hmax⟩, hi⟩
    rw [IpRule.covers, Bool.and_eq_true] at hc
    obtain ⟨j, hj, h0⟩ := hbound rule hmem hc.1
    rw [hi, Option.some.injEq] at hj
    subst hj
    refine ⟨rowKey (ruleEntry rule i), ⟨rule, hmem, hc.1, i, hi, h0, rfl⟩, hc.2, rfl, ?_⟩
    rintro key' ⟨r, hr, henabled, j', -, -, rfl⟩ hrc
    exact hmax r hr (by simp only [IpRule.covers, henabled, Bool.true_and]; exact hrc)

theorem agrees_iff (hempty : w.IsEmpty) (hids : (p.ipRules.map IpRule.id).Nodup)
    (hbound : w.Binds p) (address : IpAddress) :
    Agrees w p address ↔
      ∀ rule, p.Longest address.normalized rule →
        ∃ best, p.preferred address.normalized = some best ∧
          w.interfaceFor best = w.interfaceFor rule := by
  constructor
  · intro h rule hlong
    have hmem := hlong.1
    have hc := hlong.2.1
    rw [IpRule.covers, Bool.and_eq_true] at hc
    obtain ⟨i, hi, h0⟩ := hbound rule hmem hc.1
    cases hb : p.preferred address.normalized with
    | none =>
      -- the rule's row covers the address
      have hrow := h.unmatched (matchedRuleKind_iff.mpr hb) (rowKey (ruleEntry rule i))
        ((isSome_applied hempty _).mpr ⟨rule, hmem, hc.1, i, hi, h0, rfl⟩)
      replace hrow : rule.range.contains address.normalized = false := hrow
      rw [hrow] at hc
      cases hc.2
    | some best =>
      refine ⟨best, rfl, ?_⟩
      rw [hi]
      exact (h.matched best ((decides_iff hids best).mpr hb) i).mp
        ((looksUp_iff hempty hbound).mpr ⟨rule, hlong, hi⟩)
  · intro h
    refine ⟨fun rule hd i => ?_, fun hno key hkey => ?_⟩
    · have hb := (decides_iff hids rule).mp hd
      rw [looksUp_iff hempty hbound]
      constructor
      · rintro ⟨r, hlong, hr⟩
        obtain ⟨best, hbest, heq⟩ := h r hlong
        rw [hb, Option.some.injEq] at hbest
        rw [hbest, heq, hr]
      · intro hi
        obtain ⟨hmem, hc⟩ := preferred_mem hb
        obtain ⟨r, hlong⟩ := exists_longest hmem hc
        obtain ⟨best, hbest, heq⟩ := h r hlong
        rw [hb, Option.some.injEq] at hbest
        exact ⟨r, hlong, by rw [← heq, ← hbest, hi]⟩
    · rw [matchedRuleKind_iff] at hno
      obtain ⟨rule, hmem, henabled, i, -, -, rfl⟩ := (isSome_applied hempty key).mp hkey
      by_contra hc
      have hcovers : rule.covers address.normalized = true := by
        simp only [IpRule.covers, henabled, Bool.true_and]
        exact Bool.of_not_eq_false hc
      obtain ⟨r, hlong⟩ := exists_longest hmem hcovers
      obtain ⟨best, hbest, -⟩ := h r hlong
      rw [hno] at hbest
      cases hbest

end Agree

/-! ## Two kinds of disagreement -/

/-- `172.16.0.0/12`. -/
def privateNet : IpRange where
  network := .fromV4 172 16 0 0
  prefixLength := 12
  prefix_le := by decide
  masked := by decide

/-- An empty table, the underlay on interface 7 and a tunnel on interface 9. -/
def boundWorld : RouteWorld where
  table := fun _ => none
  ledger := []
  owned := .empty
  underlayInterface := 7
  tunnelInterfaces := AList.singleton "hk-01" 9

def directRule : IpRule :=
  { id := "office", disposition := .direct, range := privateNet, priority := 10 }

def tunnelRule : IpRule := { id := "lab", tunnelId := "hk-01", range := privateNet }

theorem agrees_single : Agrees boundWorld { ipRules := [directRule] } (.fromV4 172 16 1 2) := by
  refine (agrees_iff (fun _ => rfl) (by decide) ?_ _).mpr ?_
  · intro rule hmem _
    obtain rfl := List.mem_singleton.mp hmem
    exact ⟨7, rfl, by decide⟩
  · rintro rule ⟨hmem, -, -⟩
    obtain rfl := List.mem_singleton.mp hmem
    exact ⟨directRule, by decide, rfl⟩

/-- A rule for one port has a route for every port; and of two rules for one
range the routes keep both. -/
theorem restricted_or_tied_disagrees :
    ¬Agrees boundWorld { ipRules := [{ directRule with port := some 443 }] } (.fromV4 172 16 1 2) ∧
    ¬Agrees boundWorld { ipRules := [directRule, tunnelRule] } (.fromV4 172 16 1 2) := by
  constructor
  · intro h
    have hrow := h.unmatched (by decide) (rowKey (ruleEntry directRule 7)) (by decide)
    revert hrow
    decide
  · intro h
    have hbound : boundWorld.Binds { ipRules := [directRule, tunnelRule] } := by
      intro rule hmem _
      simp only [List.mem_cons, List.not_mem_nil, or_false] at hmem
      rcases hmem with rfl | rfl
      · exact ⟨7, rfl, by decide⟩
      · exact ⟨9, rfl, by decide⟩
    have hlookup := (looksUp_iff (i := 9) (fun _ => rfl) hbound (a := .fromV4 172 16 1 2)).mpr
      ⟨tunnelRule, ⟨by simp, by decide, by decide⟩, rfl⟩
    have hnine := (h.matched directRule ⟨by simp, by decide, by decide⟩ 9).mp hlookup
    revert hnine
    decide

end NovaVpn.Routing
