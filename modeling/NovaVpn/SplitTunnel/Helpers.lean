import NovaVpn.SplitTunnel.Classifier

/-!
# Helpers and their parents

Which rule a process comes under: `effectiveRuleTargetFor` of the registry
finds a path, and `SplitTunnelClassifier` decides on it. A binding with
`includeChildren` is to cover the processes that its application starts, and
one without it no other process.

The walk ends at the first path that can be read, which for most processes is
their own, and never asks whether a rule matches it; and the classifier does
not look at `includeChildren` (`helper_escapes`). `helpers_inherit_iff` says
for which processes the contract is met all the same.
-/

namespace NovaVpn.SplitTunnel

open NovaVpn.Framework
open NovaVpn.Net (IpAddress)
open NovaVpn.Routing

/-! ## The walk -/

/-- What the registry knows of the processes: their parents, and the paths that
`imagePathFor` gives for them. There is none for the id 0. -/
structure ProcessTree where
  parents : ProcessId → Option ProcessId
  imagePathFor : ProcessId → Option ImagePath
  idle : imagePathFor 0 = none

namespace ProcessTree

variable (tree : ProcessTree)

/-- The loop of `effectiveRuleTargetFor`, with the depth that is left. -/
def walk : Nat → ProcessId → Option ImagePath
  | 0, _ => none
  | depth + 1, current =>
    if current = 0 then none
    else
      match tree.imagePathFor current with
      | some path => some path
      | none =>
        match climb tree.parents current with
        | some parent => walk depth parent
        | none => none

theorem walk_succ {pid : ProcessId} (hpid : pid ≠ 0) (n : Nat) :
    tree.walk (n + 1) pid =
      (tree.imagePathFor pid).or ((climb tree.parents pid).bind (tree.walk n)) := by
  rw [walk, if_neg hpid]
  cases tree.imagePathFor pid with
  | some path => rfl
  | none => cases climb tree.parents pid <;> rfl

def effectiveRuleTargetFor (pid : ProcessId) : Option ImagePath := tree.walk 32 pid

/-- The ancestors of a process within so many steps, the parent first. -/
def ancestors : Nat → ProcessId → List ProcessId
  | 0, _ => []
  | n + 1, pid =>
    if pid = 0 then []
    else
      match tree.parents pid with
      | some parent => parent :: ancestors n parent
      | none => []

/-- A process that is its own parent has no path further up. -/
theorem findSome_ancestors_self {pid : ProcessId} (hparent : tree.parents pid = some pid)
    (hpath : tree.imagePathFor pid = none) (n : Nat) :
    (tree.ancestors n pid).findSome? tree.imagePathFor = none := by
  induction n with
  | zero => rfl
  | succ n ih =>
    rw [ancestors]
    split
    · rfl
    · rw [hparent]
      simp only
      rw [List.findSome?_cons, hpath, ih]

theorem ancestors_zero (n : Nat) : tree.ancestors n 0 = [] := by
  cases n <;> rfl

/-- The walk ends at the first path there is. -/
theorem walk_eq_findSome (n : Nat) (pid : ProcessId) :
    tree.walk (n + 1) pid = (pid :: tree.ancestors n pid).findSome? tree.imagePathFor := by
  induction n generalizing pid with
  | zero =>
    rw [walk, ancestors, List.findSome?_singleton]
    split
    next hzero => rw [hzero, tree.idle]
    next =>
      split
      next path hpath => exact hpath.symm
      next hpath =>
        rw [hpath]
        split <;> rfl
  | succ n ih =>
    rw [walk, List.findSome?_cons]
    by_cases hzero : pid = 0
    · rw [if_pos hzero, hzero, tree.idle, ancestors_zero]
      rfl
    · rw [if_neg hzero]
      cases hpath : tree.imagePathFor pid with
      | some path => rfl
      | none =>
        simp only [ancestors, if_neg hzero, climb]
        cases hparent : tree.parents pid with
        | none => rfl
        | some parent =>
          simp only
          by_cases hself : parent = pid
          · -- the chain stays where it is
            subst hself
            rw [if_pos (Or.inl rfl), List.findSome?_cons, hpath]
            exact (tree.findSome_ancestors_self hparent hpath n).symm
          · by_cases hidle : parent = 0
            · subst hidle
              rw [if_pos (Or.inr rfl), ancestors_zero, List.findSome?_singleton, tree.idle]
            · rw [if_neg (not_or.mpr ⟨hself, hidle⟩)]
              exact ih parent

theorem effectiveRuleTargetFor_eq (pid : ProcessId) :
    tree.effectiveRuleTargetFor pid =
      (pid :: tree.ancestors 31 pid).findSome? tree.imagePathFor :=
  tree.walk_eq_findSome 31 pid

theorem ancestors_prefix (n : Nat) (pid : ProcessId) :
    tree.ancestors n pid <+: tree.ancestors (n + 1) pid := by
  induction n generalizing pid with
  | zero => exact List.nil_prefix
  | succ n ih =>
    rw [ancestors, ancestors]
    split
    · exact List.prefix_refl _
    · split
      next parent _ => exact List.prefix_cons_inj parent |>.mpr (ih parent)
      next => exact List.prefix_refl _

end ProcessTree

namespace ProcessRegistry

/-- What `imagePathFor` returns while no process starts or exits, if those that
`opens` names can be opened. -/
def pathFor (s : ProcessRegistry) (opens : ProcessId → Bool) (pid : ProcessId) : Option ImagePath :=
  match s.pidToPath pid with
  | some path => some path
  | none =>
    let path := imagePathOf pid (s.owner pid) (opens pid)
    if path.isEmpty then none else some path

/-- The registry as a query sees it that nothing else disturbs. -/
def tree (s : ProcessRegistry) (opens : ProcessId → Bool) (parents : ProcessId → Option ProcessId)
    (hidle : s.pidToPath 0 = none) : ProcessTree where
  parents
  imagePathFor := s.pathFor opens
  idle := by
    rw [pathFor, hidle]
    rfl

section

variable {s : ProcessRegistry} {k : Nat} {q : Query} {opens : ProcessId → Bool}

theorem setQuery_setQuery (s : ProcessRegistry) (k : Nat) (q q' : Query) :
    (s.setQuery k q).setQuery k q' = s.setQuery k q' := by
  simp only [setQuery, Function.update_idem]

/-- An id that is not in the cache is looked up and read. -/
theorem run_look_read (hq : s.queries k = some q) (hphase : q.phase = .looking)
    (hmissed : s.pidToPath q.pid = none) (opens : Bool) :
    run step s [.look k, .read k opens] =
      some (s.setQuery k (q.resolve (imagePathOf q.pid (s.owner q.pid) opens))) := by
  have hlook : s.step (.look k) = some (s.setQuery k { q with phase := .missed }) := by
    simp only [step, hq, Option.bind_some, queryStep, hphase, hmissed]
  have hread : (s.setQuery k { q with phase := .missed }).step (.read k opens) =
      some (s.setQuery k (q.resolve (imagePathOf q.pid (s.owner q.pid) opens))) := by
    have hself : (s.setQuery k { q with phase := .missed }).queries k =
        some { q with phase := .missed } := Function.update_self ..
    simp only [step, hself, Option.bind_some, queryStep, setQuery_setQuery]
    rfl
  rw [run, hlook, Option.bind_some, run, hread]
  rfl

theorem step_climb (hq : s.queries k = some q) (hphase : q.phase = .returned none) {w : Walk}
    (hwalk : q.walk = some w) {parent : ProcessId} (hclimb : climb w.parents q.pid = some parent)
    (hdepth : w.depth + 1 < 32) :
    s.step (.climb k) =
      some (s.setQuery k (s.query parent (some { w with depth := w.depth + 1 }))) := by
  simp only [step, hq, Option.bind_some, queryStep, hphase, hwalk, hclimb, if_pos hdepth]

theorem run_store (hq : s.queries k = some q) {path : ImagePath} (hphase : q.phase = .resolved path) :
    ∃ s' q', run step s [.store k] = some s' ∧ s'.queries k = some q' ∧
      q'.phase = .returned (some path) := by
  have hstore : s.step (.store k) =
      some ({ s with pidToPath := Function.update s.pidToPath q.pid (some path) }.setQuery k
        { q with phase := .returned (some path) }) := by
    simp only [step, hq, Option.bind_some, queryStep, hphase]
  exact ⟨_, _, by rw [run, hstore]; rfl, Function.update_self .., rfl⟩

theorem run_of_pathFor_some (hq : s.queries k = some q) (hphase : q.phase = .looking)
    {path : ImagePath} (hpath : s.pathFor opens q.pid = some path) :
    ∃ acts s' q', run step s acts = some s' ∧ s'.queries k = some q' ∧
      q'.phase = .returned (some path) := by
  cases hcached : s.pidToPath q.pid with
  | some cached =>
    rw [pathFor, hcached] at hpath
    have hlook : s.step (.look k) = some (s.setQuery k { q with phase := .returned (some path) }) := by
      simp only [step, hq, Option.bind_some, queryStep, hphase, hcached, hpath]
    exact ⟨[.look k], _, _, by rw [run, hlook]; rfl, Function.update_self .., rfl⟩
  | none =>
    have hread := run_look_read hq hphase hcached (opens q.pid)
    simp only [pathFor, hcached] at hpath
    split at hpath
    next => cases hpath
    next hne =>
      cases hpath
      rw [Query.resolve, if_neg hne] at hread
      obtain ⟨s', q', hstore, hq', hphase'⟩ := run_store (s := s.setQuery k { q with
        phase := .resolved (imagePathOf q.pid (s.owner q.pid) (opens q.pid)) })
        (Function.update_self ..) rfl
      refine ⟨[.look k, .read k (opens q.pid)] ++ [.store k], s', q', ?_, hq', hphase'⟩
      rw [run_append, hread]
      exact hstore

theorem run_of_pathFor_none (hq : s.queries k = some q) (hphase : q.phase = .looking)
    (hpath : s.pathFor opens q.pid = none) :
    run step s [.look k, .read k (opens q.pid)] =
      some (s.setQuery k { q with phase := .returned none, unread := true }) := by
  cases hcached : s.pidToPath q.pid with
  | some cached =>
    rw [pathFor, hcached] at hpath
    cases hpath
  | none =>
    have hread := run_look_read hq hphase hcached (opens q.pid)
    simp only [pathFor, hcached] at hpath
    split at hpath
    next hempty => rwa [Query.resolve, if_pos hempty] at hread
    next => cases hpath

end

/-- A query that nothing else disturbs returns what the loop does. -/
theorem walk_alone {s : ProcessRegistry} {k : Nat} {q : Query} {w : Walk} (opens : ProcessId → Bool)
    (hidle : s.pidToPath 0 = none) (n : Nat) (hq : s.queries k = some q) (hphase : q.phase = .looking)
    (hwalk : q.walk = some w) (hpid : q.pid ≠ 0) (hdepth : w.depth + (n + 1) = 32) :
    ∃ acts s' q', run step s acts = some s' ∧ s'.queries k = some q' ∧
      q'.phase = .returned ((s.tree opens w.parents hidle).walk (n + 1) q.pid) := by
  rw [ProcessTree.walk_succ _ hpid]
  cases hpath : s.pathFor opens q.pid with
  | some path =>
    have hor : (s.tree opens w.parents hidle).imagePathFor q.pid = some path := hpath
    rw [hor, Option.some_or]
    exact run_of_pathFor_some hq hphase hpath
  | none =>
    have hor : (s.tree opens w.parents hidle).imagePathFor q.pid = none := hpath
    rw [hor, Option.none_or]
    have hread := run_of_pathFor_none hq hphase hpath
    have hends : ∀ result, result = none → ∃ acts s' q', run step s acts = some s' ∧
        s'.queries k = some q' ∧ q'.phase = .returned result := by
      rintro result rfl
      exact ⟨_, _, _, hread, Function.update_self .., rfl⟩
    cases hclimb : climb w.parents q.pid with
    | none =>
      refine hends _ ?_
      show (climb w.parents q.pid).bind _ = none
      rw [hclimb, Option.bind_none]
    | some parent =>
      cases n with
      | zero =>
        refine hends _ ?_
        show (climb w.parents q.pid).bind _ = none
        rw [hclimb]
        rfl
      | succ n =>
        have hclimbs :
            (s.setQuery k { q with phase := .returned none, unread := true }).step (.climb k) =
              some (s.setQuery k (s.query parent (some { w with depth := w.depth + 1 }))) := by
          rw [step_climb (q := { q with phase := .returned none, unread := true })
            (Function.update_self ..) rfl hwalk hclimb (by omega)]
          exact congrArg some (setQuery_setQuery ..)
        -- the walk goes on from the parent
        obtain ⟨acts, s', q', hrun, hq', hphase'⟩ :=
          walk_alone (s := s.setQuery k (s.query parent (some { w with depth := w.depth + 1 }))) opens
            hidle n (Function.update_self ..) rfl rfl (climb_ne_zero hclimb)
            (show w.depth + 1 + (n + 1) = 32 by omega)
        refine ⟨[.look k, .read k (opens q.pid)] ++ (.climb k :: acts), s', q', ?_, hq', ?_⟩
        · rw [run_append, hread, Option.bind_some, run, hclimbs]
          exact hrun
        · rw [hphase']
          show _ = QueryPhase.returned ((climb w.parents q.pid).bind _)
          rw [hclimb]
          rfl
termination_by n

end ProcessRegistry

/-! ## The contract -/

section

variable (config : SplitTunnelConfig) (tree : ProcessTree)

/-- A rule that includes children matches the path of the process. -/
def offers (pid : ProcessId) : Bool :=
  (tree.imagePathFor pid).any fun path =>
    config.rules.any fun rule => rule.includeChildren && rule.applies path

/-- The nearest ancestor within 32 steps that offers its rule. -/
def offering (pid : ProcessId) : Option ProcessId := (tree.ancestors 32 pid).find? (offers config tree)

/-- A process that no rule matches is decided by the rule that the nearest
ancestor offers, and a rule that does not include children decides only for
processes whose own path it matches. -/
structure HelpersInherit (pid : ProcessId) : Prop where
  inherits : (∀ own, tree.imagePathFor pid = some own → ∀ rule ∈ config.rules, rule.applies own = false) →
    ∀ ancestor, offering config tree pid = some ancestor →
      ∃ path, tree.effectiveRuleTargetFor pid = some path ∧
        ∃ rule ∈ config.rules, rule.includeChildren = true ∧
          (∃ p, tree.imagePathFor ancestor = some p ∧ rule.applies p = true) ∧
            config.classify path = rule.decisionFrom
  contained : ∀ path, tree.effectiveRuleTargetFor pid = some path →
    ∀ rule ∈ config.rules, rule.includeChildren = false → config.classify path = rule.decisionFrom →
      ∃ own, tree.imagePathFor pid = some own ∧ rule.applies own = true

/-- The most specific of the rules that match a path. -/
def mostSpecific (path : ImagePath) : Option ApplicationRule :=
  (config.rules.filter fun rule => rule.applies path).argmax ApplicationRule.rank

/-- The path of the process can be read, and a rule matches it; or the nearest
ancestor whose path can be read is matched by a rule, the most specific of
which includes children; or none matches there, and no ancestor offers one. -/
def Covered (pid : ProcessId) : Prop :=
  match tree.imagePathFor pid with
  | some own => (∃ rule ∈ config.rules, rule.applies own = true) ∨ offering config tree pid = none
  | none =>
    match (tree.ancestors 31 pid).findSome? tree.imagePathFor with
    | some path =>
      (∃ rule, mostSpecific config path = some rule ∧ rule.includeChildren = true) ∨
        (mostSpecific config path = none ∧ offering config tree pid = none)
    | none => offering config tree pid = none

end

section

variable {config : SplitTunnelConfig} {tree : ProcessTree} {pid : ProcessId}

theorem mostSpecific_eq_best (path : ImagePath) :
    mostSpecific config path = config.rebuild.bestApplication path :=
  (ApplicationPolicy.bestApplication_eq_argmax config.rebuild path).symm

theorem mostSpecific_eq_none {path : ImagePath} :
    mostSpecific config path = none ↔ ∀ rule ∈ config.rules, rule.applies path = false := by
  rw [mostSpecific_eq_best]
  exact ApplicationPolicy.bestApplication_eq_none

/-- A path that no rule matches inherits nothing. -/
theorem HelpersInherit.offering_eq_none (h : HelpersInherit config tree pid) {path : ImagePath}
    (hown : ∀ own, tree.imagePathFor pid = some own → ∀ rule ∈ config.rules, rule.applies own = false)
    (hpath : tree.effectiveRuleTargetFor pid = some path) (hnone : mostSpecific config path = none) :
    offering config tree pid = none := by
  by_contra hsome
  obtain ⟨ancestor, hancestor⟩ := Option.ne_none_iff_exists'.mp hsome
  obtain ⟨found, hfound, rule, hrule, -, -, hclassify⟩ := h.inherits hown ancestor hancestor
  rw [hpath, Option.some.injEq] at hfound
  subst hfound
  exact SplitTunnelConfig.classify_ne hrule (mostSpecific_eq_none.mp hnone) hclassify

/-- The nearest ancestor with a path offers a rule that includes children. -/
theorem offering_of_mostSpecific {path : ImagePath} {rule : ApplicationRule}
    (hpath : (tree.ancestors 31 pid).findSome? tree.imagePathFor = some path)
    (hbest : mostSpecific config path = some rule) (hchildren : rule.includeChildren = true) :
    ∃ ancestor, offering config tree pid = some ancestor ∧ tree.imagePathFor ancestor = some path := by
  have hmem : rule ∈ config.rules ∧ rule.applies path = true := by
    rw [mostSpecific_eq_best] at hbest
    exact ApplicationPolicy.mem_of_bestApplication hbest
  obtain ⟨before, ancestor, after, hchain, hancestor, hbefore⟩ := List.findSome?_eq_some_iff.mp hpath
  refine ⟨ancestor, ?_, hancestor⟩
  obtain ⟨rest, hrest⟩ := tree.ancestors_prefix 31 pid
  rw [offering, ← hrest, hchain, List.append_assoc, List.find?_append, List.cons_append,
    List.find?_cons_of_pos, List.find?_eq_none.mpr]
  · rfl
  · intro a ha
    simp [offers, hbefore a ha]
  · simp only [offers, hancestor, Option.any_some, List.any_eq_true, Bool.and_eq_true]
    exact ⟨rule, hmem.1, hchildren, hmem.2⟩

theorem covered_of_helpersInherit (h : HelpersInherit config tree pid) : Covered config tree pid := by
  have heffective := tree.effectiveRuleTargetFor_eq pid
  rw [List.findSome?_cons] at heffective
  unfold Covered
  cases hown : tree.imagePathFor pid with
  | some own =>
    rw [hown] at heffective
    by_cases hmatch : ∃ rule ∈ config.rules, rule.applies own = true
    · exact Or.inl hmatch
    · refine Or.inr (h.offering_eq_none (fun p hp rule hrule => ?_) heffective
        (mostSpecific_eq_none.mpr fun rule hrule => ?_))
      · rw [hown] at hp
        cases hp
        exact eq_false_of_ne_true fun happ => hmatch ⟨rule, hrule, happ⟩
      · exact eq_false_of_ne_true fun happ => hmatch ⟨rule, hrule, happ⟩
  | none =>
    rw [hown] at heffective
    have hunmatched : ∀ own, tree.imagePathFor pid = some own →
        ∀ rule ∈ config.rules, rule.applies own = false := fun own hsome => by
      rw [hown] at hsome
      cases hsome
    simp only
    cases hpath : (tree.ancestors 31 pid).findSome? tree.imagePathFor with
    | some path =>
      rw [hpath] at heffective
      simp only at heffective ⊢
      cases hbest : mostSpecific config path with
      | none => exact Or.inr ⟨rfl, h.offering_eq_none hunmatched heffective hbest⟩
      | some rule =>
        refine Or.inl ⟨rule, rfl, ?_⟩
        by_contra hchildren
        rw [mostSpecific_eq_best] at hbest
        have hmem := (ApplicationPolicy.mem_of_bestApplication hbest).1
        obtain ⟨own, hsome, -⟩ := h.contained path heffective rule hmem
          (eq_false_of_ne_true hchildren) (SplitTunnelConfig.classify_of_best hbest)
        rw [hown] at hsome
        cases hsome
    | none =>
      rw [hpath] at heffective
      simp only
      by_contra hsome
      obtain ⟨ancestor, hancestor⟩ := Option.ne_none_iff_exists'.mp hsome
      obtain ⟨found, hfound, -⟩ := h.inherits hunmatched ancestor hancestor
      rw [heffective] at hfound
      cases hfound

theorem inherits_of_covered (h : Covered config tree pid)
    (hunmatched : ∀ own, tree.imagePathFor pid = some own →
      ∀ rule ∈ config.rules, rule.applies own = false)
    {ancestor : ProcessId} (hancestor : offering config tree pid = some ancestor) :
    ∃ path, tree.effectiveRuleTargetFor pid = some path ∧
      ∃ rule ∈ config.rules, rule.includeChildren = true ∧
        (∃ p, tree.imagePathFor ancestor = some p ∧ rule.applies p = true) ∧
          config.classify path = rule.decisionFrom := by
  have hnot : offering config tree pid ≠ none := by
    rw [hancestor]
    exact Option.some_ne_none ancestor
  unfold Covered at h
  cases hown : tree.imagePathFor pid with
  | some own =>
    rw [hown] at h
    rcases h with ⟨rule, hrule, happ⟩ | hnone
    · rw [hunmatched own hown rule hrule] at happ
      cases happ
    · exact absurd hnone hnot
  | none =>
    rw [hown] at h
    simp only at h
    split at h
    next path hpath =>
      rcases h with ⟨rule, hbest, hchildren⟩ | ⟨-, hnone⟩
      · obtain ⟨found, hfound, hfoundPath⟩ := offering_of_mostSpecific hpath hbest hchildren
        rw [hancestor, Option.some.injEq] at hfound
        subst hfound
        rw [mostSpecific_eq_best] at hbest
        obtain ⟨hrule, happ⟩ := ApplicationPolicy.mem_of_bestApplication hbest
        refine ⟨path, ?_, rule, hrule, hchildren, ⟨path, hfoundPath, happ⟩,
          SplitTunnelConfig.classify_of_best hbest⟩
        rw [tree.effectiveRuleTargetFor_eq, List.findSome?_cons, hown]
        exact hpath
      · exact absurd hnone hnot
    next => exact absurd h hnot

theorem contained_of_covered (h : Covered config tree pid) {path : ImagePath}
    (hpath : tree.effectiveRuleTargetFor pid = some path) {rule : ApplicationRule}
    (hrule : rule ∈ config.rules) (hchildren : rule.includeChildren = false)
    (hclassify : config.classify path = rule.decisionFrom) :
    ∃ own, tree.imagePathFor pid = some own ∧ rule.applies own = true := by
  have hbest := SplitTunnelConfig.best_of_classify hrule hclassify
  rw [tree.effectiveRuleTargetFor_eq, List.findSome?_cons] at hpath
  cases hown : tree.imagePathFor pid with
  | some own =>
    rw [hown, Option.some.injEq] at hpath
    subst hpath
    exact ⟨own, rfl, (ApplicationPolicy.mem_of_bestApplication hbest).2⟩
  | none =>
    rw [hown] at hpath
    simp only at hpath
    unfold Covered at h
    simp only [hown, hpath, mostSpecific_eq_best, hbest] at h
    -- the rule that decides would include children
    rcases h with ⟨best, hsame, hbestChildren⟩ | ⟨hnone, -⟩
    · cases hsame
      rw [hchildren] at hbestChildren
      cases hbestChildren
    · cases hnone

/-- For every tree, configuration and process. -/
theorem helpers_inherit_iff : HelpersInherit config tree pid ↔ Covered config tree pid :=
  ⟨covered_of_helpersInherit, fun h =>
    ⟨fun hunmatched _ hancestor => inherits_of_covered h hunmatched hancestor,
      fun _ hpath _ hrule hchildren hclassify =>
        contained_of_covered h hpath hrule hchildren hclassify⟩⟩

end

/-- A browser that was bound with its children has started an updater. -/
def launcherTree : ProcessTree where
  parents pid := if pid = 8 then some 4 else none
  imagePathFor pid :=
    if pid = 8 then some "C:\\updater.exe".toList
    else if pid = 4 then some "C:\\chrome.exe".toList
    else none
  idle := rfl

def chromeBound : SplitTunnelConfig where
  applications := [{ imagePath := "C:\\chrome.exe".toList }]

/-- The updater goes by the default. -/
theorem helper_escapes : ¬ ∀ config tree pid, HelpersInherit config tree pid := by
  intro h
  have hcovered := covered_of_helpersInherit (h chromeBound launcherTree 8)
  have hown : launcherTree.imagePathFor 8 = some "C:\\updater.exe".toList := rfl
  have hunmatched : chromeBound.rules.all
      (fun rule => !rule.applies "C:\\updater.exe".toList) = true := by decide +kernel
  have hoffered : (offering chromeBound launcherTree 8).isSome = true := by decide +kernel
  unfold Covered at hcovered
  rw [hown] at hcovered
  rcases hcovered with ⟨rule, hrule, happ⟩ | hnone
  · have hnot := List.all_eq_true.mp hunmatched rule hrule
    rw [happ] at hnot
    cases hnot
  · rw [hnone] at hoffered
    cases hoffered

end NovaVpn.SplitTunnel
