import Mathlib.Data.Prod.Lex
import NovaVpn.Framework.FirstBest
import NovaVpn.Routing.RouteManager

/-!
# The policy evaluator

`PolicyEvaluator::evaluateAddress`: of the enabled rules that match an address,
a port and a transport, the one of the longest prefix decides, among those of
equal prefix the one of the highest priority, and among those the first. The
loop keeps the best rule so far; `bestRule_eq_argmax` says what it comes to.
-/

namespace NovaVpn.Routing

open NovaVpn.Framework NovaVpn.Net
open NovaVpn.Profiles (Transport)

/-- `RouteDecision`. -/
structure RouteDecision where
  disposition : Disposition := .tunnel
  tunnelId : String := ""
  matchedRuleId : String := ""
  /-- Empty when the default applied. -/
  matchedRuleKind : String := ""
  deriving DecidableEq, Repr

/-- `decisionFrom`, of a rule for addresses. -/
def decisionFrom (rule : IpRule) : RouteDecision where
  disposition := rule.disposition
  tunnelId := rule.tunnelId
  matchedRuleId := rule.id
  matchedRuleKind := "ip"

namespace RoutingPolicy

def defaultDecision (p : RoutingPolicy) : RouteDecision where
  disposition := p.defaultDisposition
  tunnelId := p.defaultTunnelId

end RoutingPolicy

namespace IpRule

/-- The rule is enabled and its range contains the address. -/
def covers (rule : IpRule) (a : IpAddress) : Bool := rule.enabled && rule.range.contains a

/-- A restriction of a rule admits what a flow is known to have. -/
def admits {α : Type} [DecidableEq α] (restriction known : Option α) : Bool :=
  restriction.all fun x => known = some x

/-- The rule takes part in the evaluation of a flow to the address. -/
def applies (rule : IpRule) (a : IpAddress) (port : Option UInt16) (transport : Option Transport) :
    Bool :=
  rule.covers a && admits rule.port port && admits rule.transport transport

/-- What rules are compared by: the length of the prefix, then the priority. -/
def Rank := ℕ ×ₗ ℤ

instance : LinearOrder Rank :=
  @Prod.Lex.instLinearOrder ℕ ℤ Nat.instLinearOrder Int.instLinearOrder

def rank (rule : IpRule) : Rank := toLex (rule.range.prefixLength, rule.priority)

theorem rank_lt_rank {b rule : IpRule} :
    b.rank < rule.rank ↔ b.range.prefixLength < rule.range.prefixLength ∨
      (b.range.prefixLength = rule.range.prefixLength ∧ b.priority < rule.priority) :=
  @Prod.Lex.toLex_lt_toLex ℕ ℤ _ _ (b.range.prefixLength, b.priority)
    (rule.range.prefixLength, rule.priority)

/-- One turn of the loop of `evaluateAddress`. -/
def better (a : IpAddress) (port : Option UInt16) (transport : Option Transport)
    (best : Option IpRule) (rule : IpRule) : Option IpRule :=
  if !rule.applies a port transport then best
  else match best with
    | none => some rule
    | some b =>
      if rule.range.prefixLength > b.range.prefixLength ∨
          (rule.range.prefixLength = b.range.prefixLength ∧ rule.priority > b.priority) then some rule
      else some b

end IpRule

namespace RoutingPolicy

def bestRule (p : RoutingPolicy) (a : IpAddress) (port : Option UInt16)
    (transport : Option Transport) : Option IpRule :=
  p.ipRules.foldl (IpRule.better a port transport) none

/-- `PolicyEvaluator::evaluateAddress`. -/
def evaluateAddress (p : RoutingPolicy) (address : IpAddress) (port : Option UInt16 := none)
    (transport : Option Transport := none) : RouteDecision :=
  match p.bestRule address.normalized port transport with
  | some rule => decisionFrom rule
  | none => p.defaultDecision

theorem keepsBest (a : IpAddress) (port : Option UInt16) (transport : Option Transport) :
    KeepsBest (IpRule.better a port transport) (fun rule => rule.applies a port transport)
      IpRule.rank where
  skip best rule h := by simp [IpRule.better, h]
  first rule h := by simp [IpRule.better, h]
  next b rule h := by
    have hlt : b.rank < rule.rank ↔ rule.range.prefixLength > b.range.prefixLength ∨
        (rule.range.prefixLength = b.range.prefixLength ∧ rule.priority > b.priority) := by
      rw [IpRule.rank_lt_rank]
      exact or_congr_right (and_congr_left' eq_comm)
    simp only [IpRule.better, h, Bool.not_true, Bool.false_eq_true, ite_false, hlt]

/-- The loop finds the first of the rules that apply whose rank no other
exceeds. -/
theorem bestRule_eq_argmax (p : RoutingPolicy) (a : IpAddress) (port : Option UInt16)
    (transport : Option Transport) :
    p.bestRule a port transport =
      (p.ipRules.filter fun rule => rule.applies a port transport).argmax IpRule.rank :=
  (keepsBest a port transport).foldl_eq_argmax p.ipRules

end RoutingPolicy

end NovaVpn.Routing
