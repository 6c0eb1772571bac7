import NovaVpn.Core.Text
import NovaVpn.Routing.RoutingRules

/-!
# Rules for applications

`PolicyEvaluator::evaluateApplication`: of the enabled rules whose pattern
matches an image path the most specific decides, among those the one of the
highest priority, and among those the first. A path is a list of its bytes.
-/

namespace NovaVpn.Routing

open NovaVpn.Framework

/-- `ApplicationRule`. -/
structure ApplicationRule where
  id : String
  name : String := ""
  enabled : Bool := true
  priority : Int := 0
  disposition : Disposition := .tunnel
  tunnelId : String := ""
  executablePath : List Char
  includeChildren : Bool := true

/-- A policy with its rules for applications. -/
structure ApplicationPolicy extends RoutingPolicy where
  applicationRules : List ApplicationRule

namespace ApplicationRule

/-- `matchesApplication`. -/
def matchesApplication (rule : ApplicationRule) (executablePath : List Char) : Bool :=
  if rule.executablePath.isEmpty then false else Str.globMatch rule.executablePath executablePath

/-- `applicationSpecificity`: a path without wildcards is the most specific. -/
def specificity (rule : ApplicationRule) : Nat :=
  rule.executablePath.length +
    if rule.executablePath.any fun c => c == '*' || c == '?' then 0 else 4096

/-- `decisionFrom`, of a rule for applications. -/
def decisionFrom (rule : ApplicationRule) : RouteDecision where
  disposition := rule.disposition
  tunnelId := rule.tunnelId
  matchedRuleId := rule.id
  matchedRuleKind := "application"

/-- The rule takes part in the evaluation of the path. -/
def applies (rule : ApplicationRule) (path : List Char) : Bool :=
  rule.enabled && rule.matchesApplication path

def rank (rule : ApplicationRule) : IpRule.Rank := toLex (rule.specificity, rule.priority)

theorem rank_lt_rank {b rule : ApplicationRule} :
    b.rank < rule.rank ↔ b.specificity < rule.specificity ∨
      (b.specificity = rule.specificity ∧ b.priority < rule.priority) :=
  @Prod.Lex.toLex_lt_toLex ℕ ℤ _ _ (b.specificity, b.priority) (rule.specificity, rule.priority)

/-- One turn of the loop of `evaluateApplication`. -/
def better (path : List Char) (best : Option ApplicationRule) (rule : ApplicationRule) :
    Option ApplicationRule :=
  if !rule.applies path then best
  else
    match best with
    | none => some rule
    | some b =>
      if rule.specificity > b.specificity ∨
          (rule.specificity = b.specificity ∧ rule.priority > b.priority) then some rule
      else some b

theorem keepsBest (path : List Char) :
    KeepsBest (better path) (fun rule => rule.applies path) rank where
  skip best rule h := by simp [better, h]
  first rule h := by simp [better, h]
  next b rule h := by
    have hlt : b.rank < rule.rank ↔ rule.specificity > b.specificity ∨
        (rule.specificity = b.specificity ∧ rule.priority > b.priority) := by
      rw [rank_lt_rank]
      exact or_congr_right (and_congr_left' eq_comm)
    simp only [better, h, Bool.not_true, Bool.false_eq_true, ite_false, hlt]

end ApplicationRule

namespace ApplicationPolicy

def bestApplication (p : ApplicationPolicy) (path : List Char) : Option ApplicationRule :=
  p.applicationRules.foldl (ApplicationRule.better path) none

/-- `PolicyEvaluator::evaluateApplication`. -/
def evaluateApplication (p : ApplicationPolicy) (executablePath : List Char) : RouteDecision :=
  match p.bestApplication executablePath with
  | some rule => rule.decisionFrom
  | none => p.defaultDecision

theorem bestApplication_eq_argmax (p : ApplicationPolicy) (path : List Char) :
    p.bestApplication path =
      (p.applicationRules.filter fun rule => rule.applies path).argmax ApplicationRule.rank :=
  (ApplicationRule.keepsBest path).foldl_eq_argmax p.applicationRules

theorem bestApplication_eq_none {p : ApplicationPolicy} {path : List Char} :
    p.bestApplication path = none ↔ ∀ rule ∈ p.applicationRules, rule.applies path = false :=
  (ApplicationRule.keepsBest path).foldl_eq_none

theorem mem_of_bestApplication {p : ApplicationPolicy} {path : List Char} {rule : ApplicationRule}
    (h : p.bestApplication path = some rule) :
    rule ∈ p.applicationRules ∧ rule.applies path = true := by
  rw [bestApplication_eq_argmax] at h
  exact List.mem_filter.mp (List.argmax_mem h)

end ApplicationPolicy

end NovaVpn.Routing
