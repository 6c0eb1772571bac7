import NovaVpn.Core.Glob
import NovaVpn.Routing.ApplicationRules

/-!
# Exact paths and globs

A rule whose path has no wildcards is for that path alone, and
`evaluateApplication` wants it to beat every glob: its length counts 4096 more.
A glob that is longer than the path by that much still wins. Which of the two
decides is a matter of how the best of the one kind ranks beside the best of the
other (`exact_decides_iff`).
-/

namespace NovaVpn.Routing

open NovaVpn.Framework

namespace ApplicationRule

variable {rule glob : ApplicationRule} {path : List Char}

/-- `find_first_of("*?")` finds something. -/
def hasWildcard (rule : ApplicationRule) : Bool :=
  rule.executablePath.any fun c => c == '*' || c == '?'

/-- The rule is enabled and for this path alone, up to the case of ASCII
letters. A rule without a path is for none. -/
def Exact (path : List Char) (rule : ApplicationRule) : Prop :=
  rule.enabled = true ∧ rule.executablePath ≠ [] ∧ rule.hasWildcard = false ∧
    Str.equalsIgnoreCase rule.executablePath path = true

/-- The rule is enabled, has wildcards and matches the path. -/
def Globs (path : List Char) (rule : ApplicationRule) : Prop :=
  rule.enabled = true ∧ rule.hasWildcard = true ∧ rule.matchesApplication path = true

/-- The longer pattern first, then the higher priority. -/
def byLength (rule : ApplicationRule) : IpRule.Rank :=
  toLex (rule.executablePath.length, rule.priority)

/-- The glob stays behind the rule for the path: it is shorter than the path and
4096 characters, or as long, and then of lower priority or behind in the list. -/
def Yields (rules : List ApplicationRule) (path : List Char) (glob rule : ApplicationRule) : Prop :=
  glob.executablePath.length < path.length + 4096 ∨
    (glob.executablePath.length = path.length + 4096 ∧
      (glob.priority < rule.priority ∨ (glob.priority = rule.priority ∧ Before rules rule glob)))

theorem not_wildcard (h : rule.hasWildcard = false) :
    ∀ c ∈ rule.executablePath, c ≠ '*' ∧ c ≠ '?' := by
  intro c hc
  have hno := List.any_eq_false.mp h c hc
  rw [Bool.or_eq_true, beq_iff_eq, beq_iff_eq, not_or] at hno
  exact hno

theorem specificity_of_plain (h : rule.hasWildcard = false) :
    rule.specificity = rule.executablePath.length + 4096 := by
  unfold specificity
  rw [show (rule.executablePath.any fun c => c == '*' || c == '?') = false from h]
  rfl

theorem specificity_of_wildcard (h : rule.hasWildcard = true) :
    rule.specificity = rule.executablePath.length := by
  unfold specificity
  rw [show (rule.executablePath.any fun c => c == '*' || c == '?') = true from h]
  rfl

/-- What applies is the rules for the path alone and the globs that match. -/
theorem applies_iff : rule.applies path = true ↔ rule.Exact path ∨ rule.Globs path := by
  cases hwild : rule.hasWildcard with
  | true => simp [applies, Exact, Globs, hwild]
  | false =>
    have hglob := Str.globMatch_plain (not_wildcard hwild) path
    simp [applies, Exact, Globs, hwild, matchesApplication, hglob]

theorem Exact.specificity (h : rule.Exact path) : rule.specificity = path.length + 4096 := by
  obtain ⟨-, -, hplain, heq⟩ := h
  rw [specificity_of_plain hplain]
  have hlower := congrArg List.length (of_decide_eq_true heq)
  rw [Str.toLower, Str.toLower, List.length_map, List.length_map] at hlower
  rw [hlower]

/-- Of a rule for the path and a glob the one that precedes in the order of the
loop. -/
theorem precedes_iff_yields (rules : List ApplicationRule) (h : rule.Exact path)
    (hglob : glob.Globs path) :
    Precedes rank rules rule glob ↔ Yields rules path glob rule := by
  have hrank : glob.rank = rule.rank ↔
      glob.specificity = rule.specificity ∧ glob.priority = rule.priority := by
    rw [← Prod.mk.injEq]
    exact toLex.injective.eq_iff
  rw [Precedes, rank_lt_rank, hrank, h.specificity, specificity_of_wildcard hglob.2.1, Yields]
  tauto

/-- Among globs the specificity is the length. -/
theorem firstBest_byLength {rules : List ApplicationRule} :
    FirstBest (Globs path) byLength rules glob ↔ FirstBest (Globs path) rank rules glob := by
  have hrank (a b : ApplicationRule) (ha : a.Globs path) (hb : b.Globs path) :
      a.byLength < b.byLength ↔ a.rank < b.rank := by
    rw [byLength, byLength, rank, rank, specificity_of_wildcard ha.2.1,
      specificity_of_wildcard hb.2.1]
  exact ⟨fun h => h.of_rank hrank, fun h => h.of_rank fun a b ha hb => (hrank a b ha hb).symm⟩

end ApplicationRule

namespace ApplicationPolicy

open ApplicationRule

/-- The best of the rules that apply decides. -/
theorem evaluateApplication_of_firstBest {p : ApplicationPolicy} {path : List Char}
    {rule : ApplicationRule}
    (h : FirstBest (fun rule => rule.applies path = true) rank p.applicationRules rule) :
    p.evaluateApplication path = rule.decisionFrom := by
  cases hbest : p.bestApplication path with
  | none =>
    have hnone := bestApplication_eq_none.mp hbest rule h.mem
    exact absurd h.app (Bool.eq_false_iff.mp hnone)
  | some best =>
    obtain rfl := (FirstBest.of_foldl (keepsBest path) hbest).unique h
    rw [evaluateApplication, hbest]

/-- An exact path beats every glob; where there is none, the longest glob
decides, then the one of the highest priority, then the first. -/
def ExactFirst (p : ApplicationPolicy) (path : List Char) : Prop :=
  ((∃ rule ∈ p.applicationRules, rule.Exact path) →
    ∃ rule ∈ p.applicationRules, rule.Exact path ∧
      p.evaluateApplication path = rule.decisionFrom) ∧
  ((∀ rule ∈ p.applicationRules, ¬ rule.Exact path) →
    ∀ rule ∈ p.applicationRules, rule.Globs path →
      ∃ glob, FirstBest (Globs path) byLength p.applicationRules glob ∧
        p.evaluateApplication path = glob.decisionFrom)

variable {p : ApplicationPolicy} {path : List Char}

/-- Without a rule for the path the best glob decides. -/
theorem evaluateApplication_of_globs {glob : ApplicationRule}
    (hno : ∀ rule ∈ p.applicationRules, ¬ rule.Exact path)
    (h : FirstBest (Globs path) rank p.applicationRules glob) :
    p.evaluateApplication path = glob.decisionFrom := by
  refine evaluateApplication_of_firstBest (h.of_iff fun rule hrule => ?_)
  rw [applies_iff, or_iff_right (hno rule hrule)]

/-- Where no glob matches, the best rule for the path decides. -/
theorem evaluateApplication_of_exact {rule : ApplicationRule}
    (hno : ∀ glob ∈ p.applicationRules, ¬ glob.Globs path)
    (h : FirstBest (Exact path) rank p.applicationRules rule) :
    p.evaluateApplication path = rule.decisionFrom := by
  refine evaluateApplication_of_firstBest (h.of_iff fun other hother => ?_)
  rw [applies_iff, or_iff_left (hno other hother)]

/-- Of the best rule for the path and the best glob the one that precedes
decides. -/
theorem evaluateApplication_of_precedes {rule glob : ApplicationRule}
    (h : FirstBest (Exact path) rank p.applicationRules rule)
    (hglob : FirstBest (Globs path) rank p.applicationRules glob) :
    (Precedes rank p.applicationRules rule glob →
        p.evaluateApplication path = rule.decisionFrom) ∧
      (Precedes rank p.applicationRules glob rule →
        p.evaluateApplication path = glob.decisionFrom) := by
  constructor
  · intro hprec
    refine evaluateApplication_of_firstBest ((h.or_of_precedes hglob hprec).of_iff fun a _ => ?_)
    rw [applies_iff]
  · intro hprec
    refine evaluateApplication_of_firstBest ((hglob.or_of_precedes h hprec).of_iff fun a _ => ?_)
    rw [applies_iff, or_comm]

/-- That holds exactly if the best of the globs that match stays behind a rule
for the path, where there is one, or decides as such a rule does. -/
theorem exact_decides_iff (p : ApplicationPolicy) (path : List Char) :
    p.ExactFirst path ↔
      ∀ glob, FirstBest (Globs path) byLength p.applicationRules glob →
        (∀ rule ∈ p.applicationRules, ¬ rule.Exact path) ∨
        ∃ rule ∈ p.applicationRules, rule.Exact path ∧
          (Yields p.applicationRules path glob rule ∨ rule.decisionFrom = glob.decisionFrom) := by
  by_cases hexact : ∃ rule ∈ p.applicationRules, rule.Exact path
  · obtain ⟨a, ha, haexact⟩ := hexact
    obtain ⟨best, hbest⟩ := FirstBest.exists_of_mem rank ha haexact
    have hno : ¬ ∀ rule ∈ p.applicationRules, ¬ rule.Exact path := fun hno => hno a ha haexact
    constructor
    · intro h glob hglob
      obtain ⟨rule, hrule, hruleexact, hdecides⟩ := h.1 ⟨a, ha, haexact⟩
      have hglob := firstBest_byLength.mp hglob
      have hdec := evaluateApplication_of_precedes hbest hglob
      right
      rcases precedes_total rank hbest.mem hglob.mem with hprec | hprec
      · exact ⟨best, hbest.mem, hbest.app,
          Or.inl ((precedes_iff_yields _ hbest.app hglob.app).mp hprec)⟩
      · exact ⟨rule, hrule, hruleexact, Or.inr (hdecides.symm.trans (hdec.2 hprec))⟩
    · intro h
      refine ⟨fun _ => ?_, fun hnone => absurd hnone hno⟩
      by_cases hglobs : ∃ glob ∈ p.applicationRules, glob.Globs path
      · obtain ⟨g, hg, hgglobs⟩ := hglobs
        obtain ⟨glob, hglob⟩ := FirstBest.exists_of_mem rank hg hgglobs
        have hdec := evaluateApplication_of_precedes hbest hglob
        obtain ⟨rule, hrule, hruleexact, hyields⟩ :=
          (h glob (firstBest_byLength.mpr hglob)).resolve_left hno
        rcases precedes_total rank hbest.mem hglob.mem with hprec | hprec
        · exact ⟨best, hbest.mem, hbest.app, hdec.1 hprec⟩
        · rcases hyields with hyields | hsame
          · have hprec' := (precedes_iff_yields _ hruleexact hglob.app).mpr hyields
            exact ⟨best, hbest.mem, hbest.app, hdec.1 (hbest.precedes hrule hruleexact hprec')⟩
          · exact ⟨rule, hrule, hruleexact, (hdec.2 hprec).trans hsame.symm⟩
      · have hnone : ∀ glob ∈ p.applicationRules, ¬ glob.Globs path :=
          fun glob hglob hmatch => hglobs ⟨glob, hglob, hmatch⟩
        exact ⟨best, hbest.mem, hbest.app, evaluateApplication_of_exact hnone hbest⟩
  · have hno : ∀ rule ∈ p.applicationRules, ¬ rule.Exact path :=
      fun rule hrule hruleexact => hexact ⟨rule, hrule, hruleexact⟩
    refine iff_of_true ⟨fun h => absurd h hexact, fun _ rule hrule hglobs => ?_⟩
      (fun _ _ => Or.inl hno)
    obtain ⟨glob, hglob⟩ := FirstBest.exists_of_mem rank hrule hglobs
    exact ⟨glob, firstBest_byLength.mpr hglob, evaluateApplication_of_globs hno hglob⟩

/-- Stars alone match every text that does not begin with one. -/
theorem globMatch_stars {text : List Char} {n : ℕ} (h : text.head? ≠ some '*') (hn : 0 < n) :
    Str.globMatch (List.replicate n '*') text = true := by
  obtain ⟨n, rfl⟩ := Nat.exists_eq_succ_of_ne_zero hn.ne'
  rw [Str.globMatch_iff, List.replicate_succ, ← List.append_nil text]
  refine .star text (by rwa [List.append_nil]) (Str.starGlob_nil.mpr ?_)
  simp

/-- A program goes to the tunnel, although a rule for its path sends it past:
the other rule is a glob that is longer than the path by 4097 stars. -/
theorem long_glob_beats_exact : ¬ ∀ p path, ExactFirst p path := by
  intro h
  let path := "C:\\a.exe".toList
  let exact' : ApplicationRule := { id := "exact", disposition := .direct, executablePath := path }
  let glob : ApplicationRule :=
    { id := "glob", executablePath := List.replicate (path.length + 4097) '*' }
  let p : ApplicationPolicy := { ipRules := [], applicationRules := [exact', glob] }
  have hexact : exact'.Exact path := ⟨rfl, by decide, by decide, by decide⟩
  have hwild : glob.hasWildcard = true := by
    simp [glob, hasWildcard]
  have hmatch : glob.matchesApplication path = true := by
    rw [matchesApplication, if_neg (by simp [glob])]
    exact globMatch_stars (by decide) (Nat.succ_pos _)
  have hglobs : glob.Globs path := ⟨rfl, hwild, hmatch⟩
  have hbest : FirstBest (fun rule => rule.applies path = true) rank p.applicationRules glob := by
    refine ⟨[exact'], [], rfl, applies_iff.mpr (Or.inr hglobs), fun a ha _ => ?_, by simp⟩
    rw [List.mem_singleton.mp ha, rank_lt_rank, hexact.specificity, specificity_of_wildcard hwild,
      List.length_replicate]
    exact Or.inl (Nat.lt_succ_self _)
  obtain ⟨rule, hrule, hruleexact, hdecides⟩ := (h p path).1 ⟨exact', by simp [p], hexact⟩
  rw [evaluateApplication_of_firstBest hbest] at hdecides
  rcases List.mem_cons.mp hrule with rfl | hrule
  · cases hdecides
  · rw [List.mem_singleton.mp hrule] at hruleexact
    rw [hruleexact.2.2.1] at hwild
    cases hwild

end ApplicationPolicy

end NovaVpn.Routing
