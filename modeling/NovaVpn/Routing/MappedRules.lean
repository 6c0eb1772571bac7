import NovaVpn.Networking.Mapped
import NovaVpn.Routing.Evaluator

/-!
# Rules in two notations

An IPv4 rule may be written with a range of IPv4-mapped addresses. The evaluator
brings the address to its IPv4 form and leaves the ranges as they are, so a rule
so written is for no address, and a rule whose IPv6 range happens to hold mapped
addresses does not see them. How the decision then compares with that by the
same rules in IPv4 notation is a matter of what the best of the mapped rules
would do (`notation_free_iff`).
-/

namespace NovaVpn.Routing

open NovaVpn.Framework NovaVpn.Net
open NovaVpn.Profiles (Transport)

namespace IpRule

/-- The rule in IPv4 notation, if its range is one of mapped addresses. -/
def unmapped (rule : IpRule) : IpRule := { rule with range := rule.range.unmapped }

/-- What the rule is compared by in IPv4 notation. -/
def v4Rank (rule : IpRule) : Rank := rule.unmapped.rank

/-- The rule is written in mapped addresses and would take part in the
evaluation of the flow if it were in IPv4 notation. -/
def AppliesUnmapped (a : IpAddress) (port : Option UInt16) (transport : Option Transport)
    (rule : IpRule) : Prop :=
  rule.range.isMapped = true ∧ rule.unmapped.applies a port transport = true

variable {rule : IpRule} {a : IpAddress} {port : Option UInt16} {transport : Option Transport}

theorem unmapped_of_not_mapped (h : rule.range.isMapped = false) : rule.unmapped = rule := by
  rw [unmapped, IpRange.unmapped_of_not_mapped h]

theorem contains_of_applies (h : rule.applies a port transport = true) :
    rule.enabled = true ∧ rule.range.contains a = true := by
  rw [applies, covers, Bool.and_eq_true, Bool.and_eq_true, Bool.and_eq_true] at h
  exact h.1.1

/-- A rule written in mapped addresses is for no address as the evaluator has
them. -/
theorem not_mapped_of_applies (h : rule.applies a.normalized port transport = true) :
    rule.range.isMapped = false := by
  refine Bool.eq_false_iff.mpr fun hmapped => ?_
  have hcontains := (contains_of_applies h).2
  rw [IpRange.contains_normalized hmapped] at hcontains
  cases hcontains

theorem v4Rank_of_applies (h : rule.applies a.normalized port transport = true) :
    rule.v4Rank = rule.rank := by
  rw [v4Rank, unmapped_of_not_mapped (not_mapped_of_applies h)]

/-- What takes part once all rules are in IPv4 notation. -/
theorem applies_unmapped_iff : rule.unmapped.applies a.normalized port transport = true ↔
    rule.applies a.normalized port transport = true ∨
      rule.AppliesUnmapped a.normalized port transport := by
  cases hmapped : rule.range.isMapped with
  | true =>
    have hno : ¬ rule.applies a.normalized port transport = true := fun h => by
      rw [not_mapped_of_applies h] at hmapped
      cases hmapped
    rw [AppliesUnmapped, hmapped, and_iff_right rfl, or_iff_right hno]
  | false =>
    rw [unmapped_of_not_mapped hmapped, AppliesUnmapped, hmapped, or_iff_left (by simp)]

end IpRule

namespace RoutingPolicy

open IpRule

/-- The policy with every rule in IPv4 notation. -/
def unmapped (p : RoutingPolicy) : RoutingPolicy :=
  { p with ipRules := p.ipRules.map IpRule.unmapped }

/-- The two notations are one for a flow: the decision is that by the rules in
IPv4 notation, and no enabled rule for the address as presented is passed over
in its normalised form. -/
def NotationFree (p : RoutingPolicy) (a : IpAddress) (port : Option UInt16)
    (transport : Option Transport) : Prop :=
  p.evaluateAddress a port transport = p.unmapped.evaluateAddress a port transport ∧
    ∀ rule ∈ p.ipRules, rule.enabled = true → rule.range.contains a = true →
      rule.range.contains a.normalized = true

variable {p : RoutingPolicy} {a : IpAddress} {port : Option UInt16} {transport : Option Transport}

/-- In IPv4 notation the best of the rules that apply as they are and of those
that then apply too decides. -/
theorem evaluateAddress_unmapped {best : IpRule}
    (h : FirstBest (fun rule => rule.applies a.normalized port transport = true ∨
      rule.AppliesUnmapped a.normalized port transport) v4Rank p.ipRules best) :
    p.unmapped.evaluateAddress a port transport = decisionFrom best := by
  have hbest : FirstBest (fun rule => rule.unmapped.applies a.normalized port transport = true)
      (fun rule => rule.unmapped.rank) p.ipRules best :=
    h.of_iff fun rule _ => applies_unmapped_iff.symm
  have hmap := @FirstBest.map _ _ _ (fun rule : IpRule => rule.applies a.normalized port transport = true)
    rank _ IpRule.unmapped p.ipRules best hbest
  rw [(p.unmapped.evaluateAddress_decided a port transport).eq_of_firstBest hmap]
  rfl

theorem firstBest_v4Rank {best : IpRule} :
    FirstBest (fun rule => rule.applies a.normalized port transport = true) v4Rank p.ipRules best ↔
      FirstBest (fun rule => rule.applies a.normalized port transport = true) rank p.ipRules
        best := by
  have hrank (b c : IpRule) (hb : b.applies a.normalized port transport = true)
      (hc : c.applies a.normalized port transport = true) : b.v4Rank < c.v4Rank ↔ b.rank < c.rank := by
    rw [v4Rank_of_applies hb, v4Rank_of_applies hc]
  exact ⟨fun h => h.of_rank hrank, fun h => h.of_rank fun b c hb hc => (hrank b c hb hc).symm⟩

/-- No rule written in mapped addresses would apply: the notation is all the
same. -/
theorem evaluateAddress_of_none
    (hno : ∀ rule ∈ p.ipRules, ¬ rule.AppliesUnmapped a.normalized port transport) :
    p.evaluateAddress a port transport = p.unmapped.evaluateAddress a port transport := by
  rcases p.evaluateAddress_decided a port transport with ⟨best, hbest, heq⟩ | ⟨hnone, heq⟩
  · rw [heq]
    refine (evaluateAddress_unmapped ((firstBest_v4Rank.mpr hbest).of_iff fun rule hrule => ?_)).symm
    rw [or_iff_left (hno rule hrule)]
  · rw [heq]
    refine ((p.unmapped.evaluateAddress_decided a port transport).eq_default ?_).symm
    refine List.forall_mem_map.mpr fun rule hrule happ => ?_
    rcases applies_unmapped_iff.mp happ with happ | happ
    · exact hnone rule hrule happ
    · exact hno rule hrule happ

/-- Where one would apply, the best rule of the others must precede the best of
these, or decide as it does. -/
theorem evaluateAddress_unmapped_iff {m : IpRule}
    (hm : FirstBest (AppliesUnmapped a.normalized port transport) v4Rank p.ipRules m) :
    p.evaluateAddress a port transport = p.unmapped.evaluateAddress a port transport ↔
      ∃ u, FirstBest (fun rule => rule.applies a.normalized port transport = true) rank p.ipRules u ∧
        (Precedes v4Rank p.ipRules u m ∨ decisionFrom u = decisionFrom m) := by
  rcases p.evaluateAddress_decided a port transport with ⟨u, hu, heq⟩ | ⟨hnone, heq⟩
  · have hu' := firstBest_v4Rank.mpr hu
    have hunique : ∀ u', FirstBest (fun rule => rule.applies a.normalized port transport = true)
        rank p.ipRules u' → u' = u := fun u' h => h.unique hu
    rw [heq]
    by_cases hprec : Precedes v4Rank p.ipRules u m
    · rw [evaluateAddress_unmapped (hu'.or_of_precedes hm hprec)]
      exact iff_of_true rfl ⟨u, hu, Or.inl hprec⟩
    · have hprec' := (precedes_total v4Rank hu.mem hm.mem).resolve_left hprec
      have hbest := (hm.or_of_precedes hu' hprec').of_iff fun rule _ => or_comm
      rw [evaluateAddress_unmapped hbest]
      constructor
      · intro hsame
        exact ⟨u, hu, Or.inr hsame⟩
      · rintro ⟨u', hu'', hdecides⟩
        obtain rfl := hunique u' hu''
        exact hdecides.resolve_left hprec
  · have hbest : FirstBest (fun rule => rule.applies a.normalized port transport = true ∨
        rule.AppliesUnmapped a.normalized port transport) v4Rank p.ipRules m :=
      hm.of_iff fun rule hrule => (or_iff_right (hnone rule hrule)).symm
    rw [heq, evaluateAddress_unmapped hbest]
    refine iff_of_false (fun hdefault => ?_) ?_
    · have hkind : "" = "ip" := congrArg RouteDecision.matchedRuleKind hdefault
      exact absurd hkind (by decide)
    · rintro ⟨u, hu, -⟩
      exact hnone u hu.mem hu.app

/-- The two notations are one exactly if a mapped address is in the range of no
enabled rule, and of the rules that apply the best one precedes the best of
those written in mapped addresses, or decides as it does. -/
theorem notation_free_iff (p : RoutingPolicy) (a : IpAddress) (port : Option UInt16)
    (transport : Option Transport) :
    p.NotationFree a port transport ↔
      (a.isMapped = true →
        ∀ rule ∈ p.ipRules, rule.enabled = true → rule.range.contains a = false) ∧
      ∀ m, FirstBest (AppliesUnmapped a.normalized port transport) v4Rank p.ipRules m →
        ∃ u, FirstBest (fun rule => rule.applies a.normalized port transport = true) rank
          p.ipRules u ∧ (Precedes v4Rank p.ipRules u m ∨ decisionFrom u = decisionFrom m) := by
  have hskip : (∀ rule ∈ p.ipRules, rule.enabled = true → rule.range.contains a = true →
      rule.range.contains a.normalized = true) ↔ (a.isMapped = true →
        ∀ rule ∈ p.ipRules, rule.enabled = true → rule.range.contains a = false) := by
    cases ha : a.isMapped with
    | true =>
      -- the address changes its family, and no range has addresses of both
      rw [forall_prop_of_true rfl]
      refine forall₂_congr fun rule _ => imp_congr_right fun _ => ?_
      constructor
      · intro h
        refine Bool.eq_false_iff.mpr fun hcontains => ?_
        have hf := ((IpRange.contains_iff ..).mp hcontains).1
        have hf' := ((IpRange.contains_iff ..).mp (h hcontains)).1
        rw [← hf, IpAddress.family_normalized ha, IpAddress.family_of_mapped ha] at hf'
        cases hf'
      · intro h hcontains
        rw [h] at hcontains
        cases hcontains
    | false =>
      refine iff_of_true (fun rule _ _ hcontains => ?_) (fun h => by cases h)
      rwa [IpAddress.normalized_of_not_mapped ha]
  rw [NotationFree, hskip, and_comm]
  refine and_congr_right fun _ => ?_
  by_cases hsome : ∃ rule ∈ p.ipRules, rule.AppliesUnmapped a.normalized port transport
  · obtain ⟨rule, hrule, happ⟩ := hsome
    obtain ⟨m, hm⟩ := FirstBest.exists_of_mem v4Rank hrule happ
    rw [evaluateAddress_unmapped_iff hm]
    constructor
    · intro h m' hm'
      obtain rfl := hm.unique hm'
      exact h
    · intro h
      exact h m hm
  · have hno : ∀ rule ∈ p.ipRules, ¬ rule.AppliesUnmapped a.normalized port transport :=
      fun rule hrule happ => hsome ⟨rule, hrule, happ⟩
    exact iff_of_true (evaluateAddress_of_none hno) fun m hm => absurd hm.app (hno m hm.mem)

/-- `::ffff:10.0.0.0/104`, and a policy that sends it past the tunnel. -/
def lanPolicy : RoutingPolicy where
  ipRules := [{
    id := "lan"
    disposition := .direct
    range := ⟨⟨.ipv6, mappedPrefix ++ [10, 0, 0, 0], rfl⟩, 104, by decide, by decide⟩ }]

/-- The address that this is about goes to the tunnel. -/
theorem mapped_rule_is_dead : ¬ ∀ p a port transport, NotationFree p a port transport := by
  intro h
  have hsame := (h lanPolicy (IpAddress.fromV4 10 0 0 1) none none).1
  exact absurd hsame (by decide +kernel)

end RoutingPolicy

end NovaVpn.Routing
