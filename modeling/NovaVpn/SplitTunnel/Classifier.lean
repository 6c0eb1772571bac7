import NovaVpn.Core.Numerals
import NovaVpn.Routing.ApplicationRules
import NovaVpn.Routing.Evaluator
import NovaVpn.SplitTunnel.ProcessRegistry

/-!
# The split-tunnel classifier

`SplitTunnelClassifier` makes a routing policy of its configuration: a rule for
each enabled binding, and a default that says which mode it is. A flow is
decided by the rules for its remote address, then by those for its application.
Whether a rule for the address has matched is read off the id in the decision,
so that one without an id is passed over (`classifies_in_order_iff`).
-/

namespace NovaVpn.SplitTunnel

open NovaVpn.Framework
open NovaVpn.Net (IpAddress)
open NovaVpn.Routing

inductive SplitMode where
  /-- `Include`: only the listed applications are tunnelled. -/
  | includeListed
  /-- `Exclude`: everything but them is. -/
  | excludeListed

structure AppBinding where
  imagePath : ImagePath
  displayName : String := ""
  enabled : Bool := true
  tunnelId : String := ""
  includeChildren : Bool := true

structure SplitTunnelConfig where
  mode : SplitMode := .includeListed
  applications : List AppBinding
  ipRules : List IpRule := []

/-- The loop of `rebuild` over the bindings. -/
def appRules (mode : SplitMode) : Nat → List AppBinding → List ApplicationRule
  | _, [] => []
  | order, app :: apps =>
    if !app.enabled || app.imagePath.isEmpty then appRules mode order apps
    else
      { id := "app-" ++ order.repr
        name := app.displayName
        executablePath := app.imagePath
        includeChildren := app.includeChildren
        priority := 0
        disposition :=
          match mode with
          | .includeListed => .tunnel
          | .excludeListed => .direct
        tunnelId := app.tunnelId } :: appRules mode (order + 1) apps

namespace SplitTunnelConfig

def rebuild (config : SplitTunnelConfig) : ApplicationPolicy where
  defaultDisposition :=
    match config.mode with
    | .includeListed => .direct
    | .excludeListed => .tunnel
  ipRules := config.ipRules
  applicationRules := appRules config.mode 0 config.applications

/-- The rules of the enabled bindings. -/
def rules (config : SplitTunnelConfig) : List ApplicationRule := config.rebuild.applicationRules

def classify (config : SplitTunnelConfig) (imagePath : ImagePath) (remote : Option IpAddress := none) :
    RouteDecision :=
  match remote with
  | none => config.rebuild.evaluateApplication imagePath
  | some address =>
    let ipDecision := config.rebuild.evaluateAddress address
    if ipDecision.matchedRuleId ≠ "" then ipDecision
    else config.rebuild.evaluateApplication imagePath

end SplitTunnelConfig

/-- Every enabled binding with a path has its rule, and no other. -/
theorem exists_of_mem_appRules {mode : SplitMode} {order : Nat} {apps : List AppBinding}
    {rule : ApplicationRule} (h : rule ∈ appRules mode order apps) :
    ∃ n, order ≤ n ∧ rule.id = "app-" ++ n.repr ∧ rule.enabled = true ∧
      ∃ app ∈ apps, app.enabled = true ∧ rule.executablePath = app.imagePath ∧
        rule.includeChildren = app.includeChildren ∧ rule.tunnelId = app.tunnelId := by
  induction apps generalizing order with
  | nil => cases h
  | cons app apps ih =>
    simp only [appRules] at h
    split at h
    next =>
      obtain ⟨n, hn, hid, henabled, b, hb, hrest⟩ := ih h
      exact ⟨n, hn, hid, henabled, b, List.mem_cons_of_mem _ hb, hrest⟩
    next hlisted =>
      rcases List.mem_cons.mp h with rfl | h
      · refine ⟨order, Nat.le_refl _, rfl, rfl, app, List.mem_cons_self, ?_, rfl, rfl, rfl⟩
        simp only [Bool.or_eq_true, Bool.not_eq_true', not_or, Bool.not_eq_false] at hlisted
        exact hlisted.1
      · obtain ⟨n, hn, hid, henabled, b, hb, hrest⟩ := ih h
        exact ⟨n, by omega, hid, henabled, b, List.mem_cons_of_mem _ hb, hrest⟩

/-- No two rules have the same id. -/
theorem eq_of_id_eq {mode : SplitMode} {order : Nat} {apps : List AppBinding}
    {rule other : ApplicationRule} (h : rule ∈ appRules mode order apps)
    (h' : other ∈ appRules mode order apps) (hid : rule.id = other.id) : rule = other := by
  induction apps generalizing order with
  | nil => cases h
  | cons app apps ih =>
    simp only [appRules] at h h'
    split at h
    next hskip =>
      rw [if_pos hskip] at h'
      exact ih h h'
    next hlisted =>
      rw [if_neg hlisted] at h'
      have hlater : ∀ later ∈ appRules mode (order + 1) apps, later.id ≠ "app-" ++ order.repr := by
        intro later hmem heq
        obtain ⟨n, hn, hlater, -⟩ := exists_of_mem_appRules hmem
        have hrepr := (String.append_right_inj _).mp (hlater.symm.trans heq)
        have hdigits := congrArg String.toList hrepr
        rw [Nat.toList_repr, Nat.toList_repr] at hdigits
        have hn' := (hdigits ▸ Str.decimal_toDigits n).functional (Str.decimal_toDigits order)
        omega
      rcases List.mem_cons.mp h with rfl | h <;> rcases List.mem_cons.mp h' with rfl | h'
      · rfl
      · exact absurd hid.symm (hlater other h')
      · exact absurd hid (hlater rule h)
      · exact ih h h'

theorem id_ne_empty {mode : SplitMode} {order : Nat} {apps : List AppBinding} {rule : ApplicationRule}
    (h : rule ∈ appRules mode order apps) : rule.id ≠ "" := by
  obtain ⟨n, -, hid, -⟩ := exists_of_mem_appRules h
  rw [hid]
  exact fun hempty => by simp at hempty

namespace SplitTunnelConfig

variable {config : SplitTunnelConfig} {path : ImagePath} {rule : ApplicationRule}

/-- A decision by a rule is that of the best one. -/
theorem best_of_classify (hrule : rule ∈ config.rules)
    (h : config.classify path = rule.decisionFrom) :
    config.rebuild.bestApplication path = some rule := by
  have hid : (config.rebuild.evaluateApplication path).matchedRuleId = rule.id :=
    congrArg RouteDecision.matchedRuleId h
  unfold ApplicationPolicy.evaluateApplication at hid
  split at hid
  next best hbest =>
    have hmem := (ApplicationPolicy.mem_of_bestApplication hbest).1
    rw [hbest, eq_of_id_eq hmem hrule hid]
  next => exact absurd hid.symm (id_ne_empty hrule)

theorem classify_of_best (h : config.rebuild.bestApplication path = some rule) :
    config.classify path = rule.decisionFrom := by
  show config.rebuild.evaluateApplication path = _
  rw [ApplicationPolicy.evaluateApplication, h]

/-- A path that no rule matches is not decided by one. -/
theorem classify_ne (hrule : rule ∈ config.rules)
    (h : ∀ r ∈ config.rules, r.applies path = false) : config.classify path ≠ rule.decisionFrom := by
  intro hclassify
  have hbest := best_of_classify hrule hclassify
  rw [ApplicationPolicy.bestApplication_eq_none.mpr h] at hbest
  cases hbest

end SplitTunnelConfig

/-! ## The order of the decisions -/

/-- Where the mode sends the applications that are listed. -/
def SplitMode.listed : SplitMode → Disposition
  | includeListed => .tunnel
  | excludeListed => .direct

/-- Where it sends the others. -/
def SplitMode.unlisted : SplitMode → Disposition
  | includeListed => .direct
  | excludeListed => .tunnel

/-- The binding is enabled, has a path and matches that of an image. -/
def AppBinding.Matches (app : AppBinding) (path : ImagePath) : Prop :=
  app.enabled = true ∧ app.imagePath ≠ [] ∧ Str.globMatch app.imagePath path = true

/-- The rule is enabled, restricted to no port and no transport, and contains
the address. -/
def Pins (address : IpAddress) (rule : IpRule) : Prop :=
  rule.enabled = true ∧ rule.port = none ∧ rule.transport = none ∧
    rule.range.contains address.normalized = true

/-- A flow of which only the address is known comes under such rules. -/
theorem applies_iff_pins {rule : IpRule} {address : IpAddress} :
    rule.applies address.normalized none none = true ↔ Pins address rule := by
  have hport : IpRule.admits rule.port none = true ↔ rule.port = none := by
    cases rule.port <;> simp [IpRule.admits]
  have htransport : IpRule.admits rule.transport none = true ↔ rule.transport = none := by
    cases rule.transport <;> simp [IpRule.admits]
  rw [IpRule.applies, IpRule.covers, Bool.and_eq_true, Bool.and_eq_true, Bool.and_eq_true, hport,
    htransport, Pins]
  tauto

/-- A rule that matches a path is that of a binding that matches it. -/
theorem matches_of_applies {mode : SplitMode} {order : Nat} {apps : List AppBinding}
    {rule : ApplicationRule} {path : ImagePath} (h : rule ∈ appRules mode order apps)
    (happ : rule.applies path = true) :
    rule.disposition = mode.listed ∧
      ∃ app ∈ apps, app.Matches path ∧ rule.tunnelId = app.tunnelId := by
  induction apps generalizing order with
  | nil => cases h
  | cons app apps ih =>
    simp only [appRules] at h
    split at h
    next =>
      obtain ⟨hdisposition, b, hb, hmatches⟩ := ih h
      exact ⟨hdisposition, b, List.mem_cons_of_mem _ hb, hmatches⟩
    next hlisted =>
      rcases List.mem_cons.mp h with rfl | h
      · simp only [Bool.or_eq_true, Bool.not_eq_true', not_or, Bool.not_eq_false] at hlisted
        have hmatch := (Bool.and_eq_true_iff.mp happ).2
        rw [ApplicationRule.matchesApplication, if_neg hlisted.2] at hmatch
        refine ⟨by cases mode <;> rfl, app, List.mem_cons_self, ⟨hlisted.1, ?_, hmatch⟩, rfl⟩
        exact fun hnil => hlisted.2 (List.isEmpty_iff.mpr hnil)
      · obtain ⟨hdisposition, b, hb, hmatches⟩ := ih h
        exact ⟨hdisposition, b, List.mem_cons_of_mem _ hb, hmatches⟩

/-- A binding that matches a path has a rule that does. -/
theorem applies_of_matches {mode : SplitMode} {order : Nat} {apps : List AppBinding}
    {app : AppBinding} {path : ImagePath} (h : app ∈ apps) (hmatches : app.Matches path) :
    ∃ rule ∈ appRules mode order apps, rule.applies path = true := by
  induction apps generalizing order with
  | nil => cases h
  | cons b apps ih =>
    simp only [appRules]
    rcases List.mem_cons.mp h with rfl | h
    · obtain ⟨henabled, hpath, hmatch⟩ := hmatches
      have hlisted : ¬ (!app.enabled || app.imagePath.isEmpty) = true := by
        simp [henabled, hpath]
      rw [if_neg hlisted]
      refine ⟨_, List.mem_cons_self, ?_⟩
      rw [ApplicationRule.applies, ApplicationRule.matchesApplication, Bool.true_and]
      rw [if_neg (fun hempty => hpath (List.isEmpty_iff.mp hempty))]
      exact hmatch
    · split
      · exact ih h
      · obtain ⟨rule, hrule, happ⟩ := @ih (order + 1) h
        exact ⟨rule, List.mem_cons_of_mem _ hrule, happ⟩

namespace SplitTunnelConfig

variable {config : SplitTunnelConfig} {path : ImagePath}

/-- What is decided of an application is by a binding that matches its path, or
by the mode if none does. -/
theorem evaluateApplication_cases (config : SplitTunnelConfig) (path : ImagePath) :
    ((∃ app ∈ config.applications, app.Matches path) →
      ∃ app ∈ config.applications, app.Matches path ∧
        (config.rebuild.evaluateApplication path).disposition = config.mode.listed ∧
        (config.rebuild.evaluateApplication path).tunnelId = app.tunnelId) ∧
    ((∀ app ∈ config.applications, ¬ app.Matches path) →
      (config.rebuild.evaluateApplication path).disposition = config.mode.unlisted) := by
  rw [ApplicationPolicy.evaluateApplication]
  cases hbest : config.rebuild.bestApplication path with
  | some rule =>
    obtain ⟨hrule, happ⟩ := ApplicationPolicy.mem_of_bestApplication hbest
    obtain ⟨hdisposition, app, hmem, hmatches, htunnel⟩ := matches_of_applies hrule happ
    exact ⟨fun _ => ⟨app, hmem, hmatches, hdisposition, htunnel⟩,
      fun hno => absurd hmatches (hno app hmem)⟩
  | none =>
    have hnone := ApplicationPolicy.bestApplication_eq_none.mp hbest
    constructor
    · rintro ⟨app, hmem, hmatches⟩
      obtain ⟨rule, hrule, happ⟩ := applies_of_matches hmem hmatches
      rw [hnone rule hrule] at happ
      cases happ
    · intro _
      show config.rebuild.defaultDisposition = _
      rw [rebuild]
      cases config.mode <;> rfl

theorem evaluateApplication_kind (config : SplitTunnelConfig) (path : ImagePath) :
    (config.rebuild.evaluateApplication path).matchedRuleKind ≠ "ip" := by
  rw [ApplicationPolicy.evaluateApplication]
  cases config.rebuild.bestApplication path with
  | some rule => exact show "application" ≠ "ip" by decide
  | none => exact show "" ≠ "ip" by decide

/-- What the rules for addresses say of the remote one. -/
theorem evaluateAddress_decided (config : SplitTunnelConfig) (address : IpAddress) :
    DecidedBy (Pins address) IpRule.rank config.ipRules decisionFrom config.rebuild.defaultDecision
      (config.rebuild.evaluateAddress address) := by
  have hpins : (fun rule : IpRule => rule.applies address.normalized none none = true) =
      Pins address := funext fun rule => propext applies_iff_pins
  have h := config.rebuild.evaluateAddress_decided address none none
  rwa [hpins] at h

/-- Without a rule for the address the application is decided on. -/
theorem classify_of_not_pinned {remote : Option IpAddress}
    (h : ∀ address ∈ remote, ∀ rule ∈ config.ipRules, ¬ Pins address rule) :
    config.classify path remote = config.rebuild.evaluateApplication path := by
  cases remote with
  | none => rfl
  | some address =>
    have hdefault := (config.evaluateAddress_decided address).eq_default (h address rfl)
    rw [classify, hdefault]
    exact if_neg (fun hid => hid rfl)

/-- With one the best of them decides, if it has an id. -/
theorem classify_of_pinned {address : IpAddress} {best : IpRule}
    (h : FirstBest (Pins address) IpRule.rank config.ipRules best) :
    config.classify path (some address) =
      if best.id ≠ "" then decisionFrom best else config.rebuild.evaluateApplication path := by
  rw [classify, (config.evaluateAddress_decided address).eq_of_firstBest h]
  rfl

/-- A rule for the remote address decides, the best one; else a binding that
matches the path; else the mode. -/
def ClassifiesInOrder (config : SplitTunnelConfig) (path : ImagePath) (remote : Option IpAddress) :
    Prop :=
  (∀ address ∈ remote, (∃ rule ∈ config.ipRules, Pins address rule) →
    ∃ best, FirstBest (Pins address) IpRule.rank config.ipRules best ∧
      config.classify path remote = decisionFrom best) ∧
  ((∀ address ∈ remote, ∀ rule ∈ config.ipRules, ¬ Pins address rule) →
    ((∃ app ∈ config.applications, app.Matches path) →
      ∃ app ∈ config.applications, app.Matches path ∧
        (config.classify path remote).disposition = config.mode.listed ∧
        (config.classify path remote).tunnelId = app.tunnelId) ∧
    ((∀ app ∈ config.applications, ¬ app.Matches path) →
      (config.classify path remote).disposition = config.mode.unlisted))

/-- That holds exactly if the best of the rules for the remote address has an
id. -/
theorem classifies_in_order_iff (config : SplitTunnelConfig) (path : ImagePath)
    (remote : Option IpAddress) :
    config.ClassifiesInOrder path remote ↔
      ∀ address ∈ remote, ∀ best, FirstBest (Pins address) IpRule.rank config.ipRules best →
        best.id ≠ "" := by
  have hrest : (∀ address ∈ remote, ∀ rule ∈ config.ipRules, ¬ Pins address rule) →
      ((∃ app ∈ config.applications, app.Matches path) →
        ∃ app ∈ config.applications, app.Matches path ∧
          (config.classify path remote).disposition = config.mode.listed ∧
          (config.classify path remote).tunnelId = app.tunnelId) ∧
      ((∀ app ∈ config.applications, ¬ app.Matches path) →
        (config.classify path remote).disposition = config.mode.unlisted) := by
    intro hno
    rw [classify_of_not_pinned hno]
    exact config.evaluateApplication_cases path
  rw [ClassifiesInOrder, and_iff_left hrest]
  refine forall₂_congr fun address haddress => ?_
  rw [Option.mem_def] at haddress
  subst haddress
  constructor
  · intro h best hbest hid
    obtain ⟨best', hbest', hdecides⟩ := h ⟨best, hbest.mem, hbest.app⟩
    obtain rfl := hbest'.unique hbest
    rw [classify_of_pinned hbest, if_neg (not_not_intro hid)] at hdecides
    exact config.evaluateApplication_kind path (congrArg RouteDecision.matchedRuleKind hdecides)
  · rintro h ⟨rule, hrule, hpins⟩
    obtain ⟨best, hbest⟩ := FirstBest.exists_of_mem IpRule.rank hrule hpins
    exact ⟨best, hbest, by rw [classify_of_pinned hbest, if_pos (h best hbest)]⟩

/-- One address is sent past the tunnel, by a rule without an id. -/
def pinnedDirect : SplitTunnelConfig where
  mode := .excludeListed
  applications := []
  ipRules := [{
    id := ""
    disposition := .direct
    range := ⟨IpAddress.fromV4 10 0 0 1, 32, by decide, by decide⟩ }]

/-- Flows to it go to the tunnel. -/
theorem nameless_rule_is_passed_over : ¬ ∀ config path remote, ClassifiesInOrder config path remote := by
  intro h
  let address := IpAddress.fromV4 10 0 0 1
  have hpins : ∃ rule ∈ pinnedDirect.ipRules, Pins address rule :=
    ⟨_, List.mem_singleton_self _, rfl, rfl, rfl, by decide⟩
  obtain ⟨best, hbest, hdecides⟩ := (h pinnedDirect [] (some address)).1 address rfl hpins
  rw [List.mem_singleton.mp hbest.mem] at hdecides
  exact absurd hdecides (by decide +kernel)

end SplitTunnelConfig

end NovaVpn.SplitTunnel
