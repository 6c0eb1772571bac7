import NovaVpn.Routing.DomainRules

/-!
# The evaluator returns the best rule

Which rule `evaluateAddress` and `evaluateDomain` decide by (`best_rule`). The
code ranks domain rules by the characters of their suffixes; of the rules that
match one host, the longer suffix has the more labels (`specificity_lt_iff`).
-/

namespace NovaVpn.Routing

open NovaVpn.Framework NovaVpn.Net
open NovaVpn.Profiles (Transport)

namespace DomainRule

/-- The labels of a name. -/
def labels (name : List Char) : Nat := (Str.split '.' name).length

/-- What domain rules should be compared by: the labels of the suffix, then the
priority. -/
def rank (rule : DomainRule) : IpRule.Rank := toLex (labels rule.suffix, rule.priority)

/-- What the loop compares by. -/
def lengthRank (rule : DomainRule) : IpRule.Rank := toLex (rule.specificity, rule.priority)

theorem lengthRank_lt {b rule : DomainRule} :
    b.lengthRank < rule.lengthRank ↔ b.specificity < rule.specificity ∨
      (b.specificity = rule.specificity ∧ b.priority < rule.priority) :=
  @Prod.Lex.toLex_lt_toLex ℕ ℤ _ _ (b.specificity, b.priority) (rule.specificity, rule.priority)

theorem rank_lt {b rule : DomainRule} :
    b.rank < rule.rank ↔ labels b.suffix < labels rule.suffix ∨
      (labels b.suffix = labels rule.suffix ∧ b.priority < rule.priority) :=
  @Prod.Lex.toLex_lt_toLex ℕ ℤ _ _ (labels b.suffix, b.priority) (labels rule.suffix, rule.priority)

theorem keepsBest (host : List Char) :
    KeepsBest (better host) (fun rule => rule.applies host) lengthRank where
  skip best rule h := by simp [better, h]
  first rule h := by simp [better, h]
  next b rule h := by
    have hlt : b.lengthRank < rule.lengthRank ↔ rule.specificity > b.specificity ∨
        (rule.specificity = b.specificity ∧ rule.priority > b.priority) := by
      rw [lengthRank_lt]
      exact or_congr_right (and_congr_left' eq_comm)
    simp only [better, h, Bool.not_true, Bool.false_eq_true, ite_false, hlt]

/-! ## Characters and labels -/

/-- More in front of a name, behind a dot, is more labels. -/
theorem labels_lt_append (front name : List Char) :
    labels name < labels (front ++ '.' :: name) := by
  unfold labels Str.split
  rw [List.splitOn_append_cons_self, List.length_append]
  have hpos := List.length_pos_of_ne_nil (List.splitOn_ne_nil '.' front)
  omega

/-- Of two names that one host ends with at a label, the longer has the more
labels. -/
theorem labels_lt_of_length_lt {c a b : List Char} (ha : c = a ∨ '.' :: a <:+ c)
    (hb : c = b ∨ '.' :: b <:+ c) (hlt : a.length < b.length) : labels a < labels b := by
  have hbc : b <:+ c := by
    rcases hb with rfl | hb
    · exact List.suffix_refl c
    · exact (List.suffix_cons '.' b).trans hb
  have hac : '.' :: a <:+ c := by
    rcases ha with rfl | ha
    · have := hbc.length_le
      omega
    · exact ha
  have hab : '.' :: a <:+ b := List.suffix_of_suffix_length_le hac hbc hlt
  obtain ⟨front, rfl⟩ := hab
  exact labels_lt_append front a

/-- Of two names that one host ends with, those of one length are the same. -/
theorem eq_of_length_eq {c a b : List Char} (ha : c = a ∨ '.' :: a <:+ c)
    (hb : c = b ∨ '.' :: b <:+ c) (heq : a.length = b.length) : a = b := by
  have hsuffix : ∀ s, c = s ∨ '.' :: s <:+ c → s <:+ c := by
    rintro s (rfl | hs)
    · exact List.suffix_refl c
    · exact (List.suffix_cons '.' s).trans hs
  exact (List.suffix_of_suffix_length_le (hsuffix a ha) (hsuffix b hb) (le_of_eq heq)).eq_of_length heq

variable {host : List Char} {a b : DomainRule}

theorem matches_of_applies (h : a.applies host = true) : a.matchesDomain host = true :=
  (Bool.and_eq_true_iff.mp h).2

/-- Of two rules that match one host, the one of the longer suffix is the one
of more labels. -/
theorem specificity_lt_iff (ha : a.applies host = true) (hb : b.applies host = true) :
    a.specificity < b.specificity ↔ labels a.suffix < labels b.suffix := by
  have hasuf := suffix_of_matches (matches_of_applies ha)
  have hbsuf := suffix_of_matches (matches_of_applies hb)
  constructor
  · exact labels_lt_of_length_lt hasuf hbsuf
  · intro hlt
    rcases Nat.lt_trichotomy a.specificity b.specificity with h | h | h
    · exact h
    · have heq := eq_of_length_eq hasuf hbsuf h
      rw [heq] at hlt
      exact absurd hlt (lt_irrefl _)
    · have hgt := labels_lt_of_length_lt hbsuf hasuf h
      omega

theorem lengthRank_lt_iff (ha : a.applies host = true) (hb : b.applies host = true) :
    a.lengthRank < b.lengthRank ↔ a.rank < b.rank := by
  have hab := specificity_lt_iff ha hb
  have hba := specificity_lt_iff hb ha
  rw [lengthRank_lt, rank_lt]
  omega

end DomainRule

/-! ## The decision -/

/-- The decision of the first of the best of the rules that apply, or the
default if none does. -/
def DecidedBy {α : Type} (applies : α → Prop) (rank : α → IpRule.Rank) (rules : List α)
    (decision : α → RouteDecision) (default d : RouteDecision) : Prop :=
  (∃ best, FirstBest applies rank rules best ∧ d = decision best) ∨
    (∀ rule ∈ rules, ¬ applies rule) ∧ d = default

namespace DecidedBy

variable {α : Type} {applies : α → Prop} {rank : α → IpRule.Rank} {rules rules' : List α}
  {decision : α → RouteDecision} {default d d' : RouteDecision}

theorem of_foldl {better : Option α → α → Option α} {applies : α → Bool}
    (h : KeepsBest better applies rank) (rules : List α) :
    DecidedBy (fun rule => applies rule = true) rank rules decision default
      ((rules.foldl better none).elim default decision) := by
  cases hbest : rules.foldl better none with
  | none => exact Or.inr ⟨fun rule hr => ne_true_of_eq_false (h.foldl_eq_none.mp hbest rule hr), rfl⟩
  | some best => exact Or.inl ⟨best, FirstBest.of_foldl h hbest, rfl⟩

theorem of_rank {rank' : α → IpRule.Rank} (h : DecidedBy applies rank rules decision default d)
    (hrank : ∀ a b, applies a → applies b → (rank a < rank b ↔ rank' a < rank' b)) :
    DecidedBy applies rank' rules decision default d := by
  rcases h with ⟨best, hbest, rfl⟩ | hnone
  · exact Or.inl ⟨best, hbest.of_rank hrank, rfl⟩
  · exact Or.inr hnone

/-- There is only one such decision. -/
theorem eq_of_firstBest (h : DecidedBy applies rank rules decision default d) {best : α}
    (hbest : FirstBest applies rank rules best) : d = decision best := by
  rcases h with ⟨best', hbest', rfl⟩ | ⟨hnone, -⟩
  · rw [hbest'.unique hbest]
  · exact absurd hbest.app (hnone best hbest.mem)

theorem eq_default (h : DecidedBy applies rank rules decision default d)
    (hnone : ∀ rule ∈ rules, ¬ applies rule) : d = default := by
  rcases h with ⟨best, hbest, -⟩ | ⟨-, rfl⟩
  · exact absurd hbest.app (hnone best hbest.mem)
  · rfl

/-- The default is the decision when no rule applies, if no rule decides as the
default does. -/
theorem eq_default_iff (h : DecidedBy applies rank rules decision default d)
    (hne : ∀ rule ∈ rules, decision rule ≠ default) :
    d = default ↔ ∀ rule ∈ rules, ¬ applies rule := by
  rcases h with ⟨best, hbest, rfl⟩ | ⟨hnone, rfl⟩
  · exact iff_of_false (hne best hbest.mem) fun hnone => hnone best hbest.mem hbest.app
  · exact iff_of_true rfl hnone

/-- A permutation that leaves the order of tied rules alone decides the same. -/
theorem eq_of_perm (h : DecidedBy applies rank rules decision default d)
    (h' : DecidedBy applies rank rules' decision default d') (hperm : rules.Perm rules')
    (hkept : ∀ a b, applies a → applies b → rank a = rank b → ¬ Reorders rules rules' a b) :
    d' = d := by
  rcases h with ⟨best, hbest, rfl⟩ | ⟨hnone, rfl⟩ <;>
    rcases h' with ⟨best', hbest', rfl⟩ | ⟨hnone', rfl⟩
  · rw [FirstBest.eq_of_perm hperm hkept hbest hbest']
  · exact absurd hbest.app (hnone' best (hperm.mem_iff.mp hbest.mem))
  · exact absurd hbest'.app (hnone best' (hperm.mem_iff.mpr hbest'.mem))
  · rfl

end DecidedBy

namespace RoutingPolicy

theorem evaluateAddress_decided (p : RoutingPolicy) (address : IpAddress) (port : Option UInt16)
    (transport : Option Transport) :
    DecidedBy (fun rule => rule.applies address.normalized port transport = true) IpRule.rank
      p.ipRules decisionFrom p.defaultDecision (p.evaluateAddress address port transport) := by
  have heval : p.evaluateAddress address port transport =
      (p.bestRule address.normalized port transport).elim p.defaultDecision decisionFrom := by
    unfold evaluateAddress
    cases p.bestRule address.normalized port transport <;> rfl
  rw [heval]
  exact DecidedBy.of_foldl (keepsBest address.normalized port transport) p.ipRules

end RoutingPolicy

namespace DomainPolicy

/-- No two rules have one id, and none has the empty one. -/
structure UniqueIds (p : DomainPolicy) : Prop where
  nodup : (p.ipRules.map IpRule.id ++ p.domainRules.map DomainRule.id).Nodup
  nonempty : ∀ id ∈ p.ipRules.map IpRule.id ++ p.domainRules.map DomainRule.id, id ≠ ""

/-- The same policy with its rules in another order. -/
structure Permuted (p p' : DomainPolicy) : Prop where
  ipRules : p.ipRules.Perm p'.ipRules
  domainRules : p.domainRules.Perm p'.domainRules
  default : p'.defaultDecision = p.defaultDecision

variable {p p' : DomainPolicy}

theorem evaluateDomain_decided (p : DomainPolicy) (host : List Char) :
    DecidedBy (fun rule => rule.applies host = true) DomainRule.rank p.domainRules
      DomainRule.decisionFrom p.defaultDecision (p.evaluateDomain host) := by
  have heval : p.evaluateDomain host =
      (p.bestDomain host).elim p.defaultDecision DomainRule.decisionFrom := by
    unfold evaluateDomain
    cases p.bestDomain host <;> rfl
  rw [heval]
  refine DecidedBy.of_rank ?_ fun a b ha hb => DomainRule.lengthRank_lt_iff ha hb
  exact DecidedBy.of_foldl (DomainRule.keepsBest host) p.domainRules

theorem decisionFrom_ne_default (h : p.UniqueIds) {rule : IpRule} (hr : rule ∈ p.ipRules) :
    decisionFrom rule ≠ p.defaultDecision := by
  intro heq
  have hid := h.nonempty rule.id (List.mem_append_left _ (List.mem_map_of_mem hr))
  exact hid (congrArg RouteDecision.matchedRuleId heq)

theorem domainDecision_ne_default (h : p.UniqueIds) {rule : DomainRule} (hr : rule ∈ p.domainRules) :
    rule.decisionFrom ≠ p.defaultDecision := by
  intro heq
  have hid := h.nonempty rule.id (List.mem_append_right _ (List.mem_map_of_mem hr))
  exact hid (congrArg RouteDecision.matchedRuleId heq)

/-- Both evaluations decide by the first of the best of the rules that match,
by the default exactly when none does, and do not depend on the order of the
rules but for those that tie. -/
theorem best_rule (p : DomainPolicy) (hids : p.UniqueIds) (address : IpAddress)
    (port : Option UInt16) (transport : Option Transport) (host : List Char) :
    DecidedBy (fun rule => rule.applies address.normalized port transport = true) IpRule.rank
      p.ipRules decisionFrom p.defaultDecision (p.evaluateAddress address port transport) ∧
    DecidedBy (fun rule => rule.applies host = true) DomainRule.rank p.domainRules
      DomainRule.decisionFrom p.defaultDecision (p.evaluateDomain host) ∧
    (p.evaluateAddress address port transport = p.defaultDecision ↔
      ∀ rule ∈ p.ipRules, ¬ rule.applies address.normalized port transport = true) ∧
    (p.evaluateDomain host = p.defaultDecision ↔
      ∀ rule ∈ p.domainRules, ¬ rule.applies host = true) ∧
    ∀ p', p.Permuted p' →
      ((∀ a b : IpRule, a.applies address.normalized port transport = true →
          b.applies address.normalized port transport = true → a.rank = b.rank →
          ¬ Reorders p.ipRules p'.ipRules a b) →
        p'.evaluateAddress address port transport = p.evaluateAddress address port transport) ∧
      ((∀ a b : DomainRule, a.applies host = true → b.applies host = true → a.rank = b.rank →
          ¬ Reorders p.domainRules p'.domainRules a b) →
        p'.evaluateDomain host = p.evaluateDomain host) := by
  have haddress := p.evaluateAddress_decided address port transport
  have hdomain := evaluateDomain_decided p host
  refine ⟨haddress, hdomain, haddress.eq_default_iff fun rule => decisionFrom_ne_default hids,
    hdomain.eq_default_iff fun rule => domainDecision_ne_default hids, fun p' hp => ⟨?_, ?_⟩⟩
  · intro hkept
    have haddress' := p'.evaluateAddress_decided address port transport
    rw [hp.default] at haddress'
    exact haddress.eq_of_perm haddress' hp.ipRules hkept
  · intro hkept
    have hdomain' := evaluateDomain_decided p' host
    rw [hp.default] at hdomain'
    exact hdomain.eq_of_perm hdomain' hp.domainRules hkept

/-- A policy of two rules for domains. -/
def corpPolicy : DomainPolicy where
  ipRules := []
  domainRules := [{ id := "1", pattern := "corp.com".toList },
    { id := "2", pattern := "*.mail.corp.com".toList, disposition := .direct }]

theorem best_rule_corp : corpPolicy.UniqueIds ∧
    corpPolicy.evaluateDomain "a.mail.corp.com".toList ≠ corpPolicy.defaultDecision := by
  have hids : corpPolicy.UniqueIds := ⟨by decide, by decide⟩
  refine ⟨hids, fun hdefault => ?_⟩
  have hnone := (best_rule corpPolicy hids IpAddress.anyV4 none none
    "a.mail.corp.com".toList).2.2.2.1.mp hdefault
  exact hnone { id := "1", pattern := "corp.com".toList } (by simp [corpPolicy]) (by decide +kernel)

end DomainPolicy

end NovaVpn.Routing
