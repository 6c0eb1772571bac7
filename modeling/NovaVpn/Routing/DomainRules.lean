import NovaVpn.Core.Text
import NovaVpn.Routing.RoutingRules

/-!
# Rules for domains

`matchesDomain` and `PolicyEvaluator::evaluateDomain` of `Routing/RoutingRules.cpp`,
and what `RoutingPolicy::validate` asks of a domain rule. A pattern matches on
label boundaries (`matches_on_labels`): it ends where the host does and begins
where one of its labels does.
-/

namespace NovaVpn.Routing

open NovaVpn.Framework

/-- `DomainRule`. -/
structure DomainRule where
  id : String
  name : String := ""
  enabled : Bool := true
  priority : Int := 0
  disposition : Disposition := .tunnel
  tunnelId : String := ""
  /-- With an optional leading `*.`, in lower case. -/
  pattern : List Char
  includeSubdomains : Bool := true
  deriving DecidableEq, Repr

/-- A policy with its rules for domains. -/
structure DomainPolicy extends RoutingPolicy where
  domainRules : List DomainRule

namespace DomainRule

/-- `checkBase` of `RoutingPolicy::validate`, with the ids seen so far. -/
def checkBase (rule : DomainRule) (seenIds tunnels : List String) : Status :=
  if rule.id.isEmpty then Err.invalidArgument "domain rule has no id"
  else if seenIds.contains rule.id then Err.alreadyExists ("duplicate rule id " ++ rule.id)
  else if rule.disposition = .tunnel && !rule.tunnelId.isEmpty &&
      !tunnels.contains rule.tunnelId then
    Err.notFound ("domain rule '" ++ rule.name ++ "' targets unknown tunnel " ++ rule.tunnelId)
  else .ok

/-- What `RoutingPolicy::validate` asks of a domain rule. -/
def validate (rule : DomainRule) (seenIds tunnels : List String) : Status :=
  if (rule.checkBase seenIds tunnels).isError then rule.checkBase seenIds tunnels
  else if rule.pattern.isEmpty then
    Err.invalidArgument ("domain rule '" ++ rule.name ++ "' has an empty pattern")
  else if rule.pattern = ['*'] || rule.pattern = ['*', '.'] then
    Err.invalidArgument ("domain rule '" ++ rule.name ++
      "' matches every host; change the default disposition instead")
  else .ok

/-- The host in lower case, without one trailing dot. -/
def candidate (host : List Char) : List Char :=
  let lowered := Str.toLower host
  if lowered.getLast? = some '.' then lowered.dropLast else lowered

/-- The candidate is longer than the suffix, ends with it, and has a dot before it. -/
def endsAtLabel (candidate suffix : List Char) : Bool :=
  candidate.length > suffix.length && suffix.isSuffixOf candidate &&
    candidate[candidate.length - suffix.length - 1]? == some '.'

/-- The pattern without a leading `*.`, if it has one. -/
def wildcard (rule : DomainRule) : Option (List Char) :=
  if ['*', '.'].isPrefixOf rule.pattern then some (rule.pattern.drop 2) else none

def matchesDomain (rule : DomainRule) (host : List Char) : Bool :=
  match rule.wildcard with
  | some suffix => endsAtLabel (candidate host) suffix
  | none =>
    if candidate host = rule.pattern then true
    else if rule.includeSubdomains then endsAtLabel (candidate host) rule.pattern
    else false

/-- What the pattern pins of a host. -/
def suffix (rule : DomainRule) : List Char := rule.wildcard.getD rule.pattern

/-- `domainSpecificity`. -/
def specificity (rule : DomainRule) : Nat := rule.suffix.length

/-- `decisionFrom`, of a rule for domains. -/
def decisionFrom (rule : DomainRule) : RouteDecision where
  disposition := rule.disposition
  tunnelId := rule.tunnelId
  matchedRuleId := rule.id
  matchedRuleKind := "domain"

/-- The rule takes part in the evaluation of the host. -/
def applies (rule : DomainRule) (host : List Char) : Bool := rule.enabled && rule.matchesDomain host

/-- One turn of the loop of `evaluateDomain`. -/
def better (host : List Char) (best : Option DomainRule) (rule : DomainRule) : Option DomainRule :=
  if !rule.applies host then best
  else
    match best with
    | none => some rule
    | some b =>
      if rule.specificity > b.specificity ∨
          (rule.specificity = b.specificity ∧ rule.priority > b.priority) then some rule
      else some b

end DomainRule

namespace DomainPolicy

def bestDomain (p : DomainPolicy) (host : List Char) : Option DomainRule :=
  p.domainRules.foldl (DomainRule.better host) none

/-- `PolicyEvaluator::evaluateDomain`. -/
def evaluateDomain (p : DomainPolicy) (host : List Char) : RouteDecision :=
  match p.bestDomain host with
  | some rule => rule.decisionFrom
  | none => p.defaultDecision

end DomainPolicy

/-! ## Label boundaries -/

namespace DomainRule

theorem endsAtLabel_iff {candidate suffix : List Char} :
    endsAtLabel candidate suffix = true ↔ '.' :: suffix <:+ candidate := by
  simp only [endsAtLabel, Bool.and_eq_true, decide_eq_true_eq, List.isSuffixOf_iff_suffix,
    beq_iff_eq, and_assoc]
  constructor
  · rintro ⟨hlen, ⟨front, rfl⟩, hdot⟩
    have hpos : 0 < front.length := by
      rw [List.length_append] at hlen
      omega
    rw [List.length_append, Nat.add_sub_cancel, List.getElem?_append_left (by omega)] at hdot
    have hlast : front.getLast? = some '.' := by rw [List.getLast?_eq_getElem?, hdot]
    obtain ⟨front, rfl⟩ := List.getLast?_eq_some_iff.mp hlast
    exact ⟨front, by simp⟩
  · rintro ⟨front, rfl⟩
    refine ⟨by simp; omega, ⟨front ++ ['.'], by simp⟩, ?_⟩
    have hindex : (front ++ '.' :: suffix).length - suffix.length - 1 = front.length := by
      simp only [List.length_append, List.length_cons]
      omega
    rw [hindex, List.getElem?_append_right (Nat.le_refl _), Nat.sub_self]
    rfl

theorem wildcard_eq_some {rule : DomainRule} {s : List Char} :
    rule.wildcard = some s ↔ rule.pattern = '*' :: '.' :: s := by
  unfold wildcard
  split
  next h =>
    obtain ⟨rest, hrest⟩ := List.isPrefixOf_iff_prefix.mp h
    rw [← hrest]
    simp
  next h =>
    refine iff_of_false (by simp) fun heq => h ?_
    rw [heq]
    exact List.isPrefixOf_iff_prefix.mpr ⟨s, rfl⟩

theorem wildcard_eq_none {rule : DomainRule} :
    rule.wildcard = none ↔ ∀ s, rule.pattern ≠ '*' :: '.' :: s := by
  rw [Option.eq_none_iff_forall_ne_some]
  exact forall_congr' fun s => not_congr wildcard_eq_some

variable {rule : DomainRule} {host : List Char}

theorem matchesDomain_wildcard {s : List Char} (h : rule.wildcard = some s) :
    rule.matchesDomain host = true ↔ '.' :: s <:+ candidate host := by
  rw [matchesDomain, h]
  exact endsAtLabel_iff

theorem matchesDomain_plain (h : rule.wildcard = none) : rule.matchesDomain host = true ↔
    candidate host = rule.pattern ∨
      rule.includeSubdomains = true ∧ '.' :: rule.pattern <:+ candidate host := by
  rw [matchesDomain, h]
  simp only
  by_cases heq : candidate host = rule.pattern
  · rw [if_pos heq]
    exact iff_of_true rfl (Or.inl heq)
  · rw [if_neg heq, or_iff_right heq]
    by_cases hsub : rule.includeSubdomains = true
    · rw [if_pos hsub, endsAtLabel_iff, and_iff_right hsub]
    · rw [if_neg hsub]
      exact iff_of_false (by decide) fun hand => hsub hand.1

/-- A host that matches is the suffix or ends with it behind a dot. -/
theorem suffix_of_matches (h : rule.matchesDomain host = true) :
    candidate host = rule.suffix ∨ '.' :: rule.suffix <:+ candidate host := by
  unfold suffix
  cases hw : rule.wildcard with
  | some s => exact Or.inr ((matchesDomain_wildcard hw).mp h)
  | none => exact ((matchesDomain_plain hw).mp h).imp_right And.right

/-- Only what is in front of a name tells whether it ends with a dot and that name. -/
theorem dot_suffix_append {front s : List Char} (h : '.' :: s <:+ front ++ s) :
    front.getLast? = some '.' := by
  obtain ⟨rest, hrest⟩ := h
  have heq : (rest ++ ['.']) ++ s = front ++ s := by
    rw [← hrest]
    simp
  rw [← List.append_cancel_right heq]
  simp

/-- A host without a trailing dot, spelt in another case or with a dot added. -/
theorem candidate_spelling {host' : List Char} (hdot : host.getLast? ≠ some '.')
    (h : Str.toLower host' = Str.toLower host ∨
      Str.toLower host' = Str.toLower host ++ ['.']) : candidate host' = candidate host := by
  have hlower : (Str.toLower host).getLast? ≠ some '.' := by
    intro hlast
    rw [Str.toLower, List.getLast?_map, Option.map_eq_some_iff] at hlast
    obtain ⟨c, hc, hlow⟩ := hlast
    rw [Str.eq_of_toLower hlow (by decide)] at hc
    exact hdot hc
  unfold candidate
  simp only
  rcases h with h | h
  · rw [h]
  · rw [h, if_pos (by simp), if_neg hlower, List.dropLast_concat]

/-- What a pattern matches, of a host in lower case without one trailing dot. -/
theorem matches_on_labels (rule : DomainRule) (host : List Char) :
    (∀ s, rule.pattern = '*' :: '.' :: s →
      (rule.matchesDomain host = true ↔ '.' :: s <:+ candidate host) ∧
      (rule.matchesDomain host = true → candidate host ≠ s ∧
        ∀ front, front.getLast? ≠ some '.' → candidate host ≠ front ++ s)) ∧
    ((∀ s, rule.pattern ≠ '*' :: '.' :: s) →
      (rule.matchesDomain host = true ↔ candidate host = rule.pattern ∨
        rule.includeSubdomains = true ∧ '.' :: rule.pattern <:+ candidate host)) ∧
    (host.getLast? ≠ some '.' → ∀ host', Str.toLower host' = Str.toLower host ∨
      Str.toLower host' = Str.toLower host ++ ['.'] →
        rule.matchesDomain host' = rule.matchesDomain host) := by
  refine ⟨fun s hs => ?_, fun hplain => matchesDomain_plain (wildcard_eq_none.mpr hplain),
    fun hdot host' hspelling => ?_⟩
  · have hmatch := @matchesDomain_wildcard rule host s (wildcard_eq_some.mpr hs)
    refine ⟨hmatch, fun h => ?_⟩
    have hends := hmatch.mp h
    constructor
    · intro heq
      rw [heq] at hends
      have := hends.length_le
      rw [List.length_cons] at this
      omega
    · intro front hfront heq
      rw [heq] at hends
      exact hfront (dot_suffix_append hends)
  · unfold matchesDomain
    rw [candidate_spelling hdot hspelling]

example : ({ id := "1", pattern := "*.corp.com".toList } : DomainRule).matchesDomain
    "Mail.Corp.COM.".toList = true := by decide +kernel
example : ({ id := "1", pattern := "*.corp.com".toList } : DomainRule).matchesDomain
    "evilcorp.com".toList = false := by decide +kernel

end DomainRule

end NovaVpn.Routing
