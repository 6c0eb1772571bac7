import NovaVpn.SplitTunnel.Classifier

/-!
# The split-tunnel engine

`SplitTunnelEngine::apply` puts a configuration in the place of another and
reports the running processes that would need a restart. It names those that a
binding of the new configuration matches and does not look at the old one:
a program that goes another way since its binding is gone is not among them,
and one that goes the same way as before is. `names_rerouted_iff` says of which
processes this is right.
-/

namespace NovaVpn.SplitTunnel

open NovaVpn.Routing

/-- `ProcessInfo`. -/
structure ProcessInfo where
  pid : ProcessId
  imagePath : ImagePath

/-- What `runningProcesses` returns of a machine on which every path can be
read. The system lists a process once. -/
structure Snapshot where
  processes : List ProcessInfo
  nodup : (processes.map ProcessInfo.pid).Nodup
  readable : ∀ process ∈ processes, process.imagePath ≠ []

/-- `SplitTunnelEngine`, with the configuration of its classifier. -/
structure SplitTunnelEngine where
  config : SplitTunnelConfig := { applications := [] }

namespace SplitTunnelEngine

/-- The loop of `apply` over the running processes. -/
def affected (config : SplitTunnelConfig) : List ProcessInfo → List ProcessId
  | [] => []
  | process :: rest =>
    if process.imagePath.isEmpty then affected config rest
    else if (config.classify process.imagePath).matchedRuleId ≠ "" then
      process.pid :: affected config rest
    else affected config rest

/-- `apply`. There may be no registry, and it may fail to list the processes. -/
def apply (_ : SplitTunnelEngine) (config : SplitTunnelConfig)
    (processes : Option (Result (List ProcessInfo))) : SplitTunnelEngine × List ProcessId :=
  ({ config },
    match processes with
    | some (.ok processes) => affected config processes
    | _ => [])

end SplitTunnelEngine

/-! ## What is reported -/

/-- Where a program goes, and by which tunnel. -/
def SplitTunnelConfig.route (config : SplitTunnelConfig) (path : ImagePath) : Disposition × String :=
  ((config.classify path).disposition, (config.classify path).tunnelId)

/-- Some enabled binding matches the path. -/
def SplitTunnelConfig.Lists (config : SplitTunnelConfig) (path : ImagePath) : Prop :=
  ∃ app ∈ config.applications, app.Matches path

variable {config : SplitTunnelConfig} {path : ImagePath}

/-- A decision carries the id of a rule if a binding matches. -/
theorem matchedRuleId_ne_empty : (config.classify path).matchedRuleId ≠ "" ↔ config.Lists path := by
  show (config.rebuild.evaluateApplication path).matchedRuleId ≠ "" ↔ _
  rw [ApplicationPolicy.evaluateApplication]
  cases hbest : config.rebuild.bestApplication path with
  | some rule =>
    obtain ⟨hrule, happ⟩ := ApplicationPolicy.mem_of_bestApplication hbest
    obtain ⟨-, app, hmem, hmatches, -⟩ := matches_of_applies hrule happ
    exact iff_of_true (id_ne_empty hrule) ⟨app, hmem, hmatches⟩
  | none =>
    have hnone := ApplicationPolicy.bestApplication_eq_none.mp hbest
    refine iff_of_false (fun hid => hid rfl) ?_
    rintro ⟨app, hmem, hmatches⟩
    obtain ⟨rule, hrule, happ⟩ := applies_of_matches hmem hmatches
    rw [hnone rule hrule] at happ
    cases happ

/-- What no binding matches goes as the mode says. -/
theorem route_of_not_lists (h : ¬ config.Lists path) : config.route path = (config.mode.unlisted, "") := by
  have hbest : config.rebuild.bestApplication path = none := by
    refine ApplicationPolicy.bestApplication_eq_none.mpr fun rule hrule => ?_
    refine Bool.eq_false_iff.mpr fun happ => h ?_
    obtain ⟨-, app, hmem, hmatches, -⟩ := matches_of_applies hrule happ
    exact ⟨app, hmem, hmatches⟩
  have hclassify : config.classify path = config.rebuild.defaultDecision := by
    show config.rebuild.evaluateApplication path = _
    rw [ApplicationPolicy.evaluateApplication, hbest]
  rw [SplitTunnelConfig.route, hclassify, SplitTunnelConfig.rebuild]
  cases config.mode <;> rfl

open Classical in
/-- The loop names the processes that a binding matches. -/
theorem affected_eq (config : SplitTunnelConfig) {processes : List ProcessInfo}
    (hreadable : ∀ process ∈ processes, process.imagePath ≠ []) :
    SplitTunnelEngine.affected config processes =
      (processes.filter fun process => decide (config.Lists process.imagePath)).map
        ProcessInfo.pid := by
  induction processes with
  | nil => rfl
  | cons process rest ih =>
    obtain ⟨hpath, hrest⟩ := List.forall_mem_cons.mp hreadable
    rw [SplitTunnelEngine.affected, if_neg (fun h => hpath (List.isEmpty_iff.mp h)), ih hrest,
      List.filter_cons]
    by_cases hlists : config.Lists process.imagePath
    · rw [if_pos (matchedRuleId_ne_empty.mpr hlists), if_pos (decide_eq_true hlists), List.map_cons]
    · rw [if_neg (fun h => hlists (matchedRuleId_ne_empty.mp h)), if_neg (by simpa using hlists)]

/-- Two choices from a list of different values are the same only if they choose
alike. -/
theorem filter_map_eq_iff {α β : Type} {f : α → β} {l : List α} (h : (l.map f).Nodup)
    {p q : α → Bool} : (l.filter p).map f = (l.filter q).map f ↔ ∀ a ∈ l, p a = q a := by
  have hmem (r : α → Bool) {a : α} (ha : a ∈ l) : f a ∈ (l.filter r).map f ↔ r a = true := by
    constructor
    · intro hfa
      obtain ⟨b, hb, heq⟩ := List.mem_map.mp hfa
      obtain ⟨hbl, hrb⟩ := List.mem_filter.mp hb
      rwa [← List.inj_on_of_nodup_map h hbl ha heq]
    · intro hra
      exact List.mem_map_of_mem (List.mem_filter.mpr ⟨ha, hra⟩)
  constructor
  · intro heq a ha
    rw [Bool.eq_iff_iff, ← hmem p ha, heq, hmem q ha]
  · intro hall
    rw [List.filter_congr hall]

/-- What `apply` reports is the processes that go another way, or by another
tunnel, than under the configuration before. -/
def NamesRerouted (old new : SplitTunnelConfig) (snapshot : Snapshot) : Prop :=
  (SplitTunnelEngine.apply { config := old } new (some (.ok snapshot.processes))).2 =
    (snapshot.processes.filter fun process =>
      old.route process.imagePath ≠ new.route process.imagePath).map ProcessInfo.pid

/-- That holds exactly if the running programs that are listed now all went
another way before, and the others as those that are not listed go now. -/
theorem names_rerouted_iff (old new : SplitTunnelConfig) (snapshot : Snapshot) :
    NamesRerouted old new snapshot ↔
      ∀ process ∈ snapshot.processes,
        (new.Lists process.imagePath →
          old.route process.imagePath ≠ new.route process.imagePath) ∧
        (¬ new.Lists process.imagePath →
          old.route process.imagePath = (new.mode.unlisted, "")) := by
  classical
  show SplitTunnelEngine.affected new snapshot.processes = _ ↔ _
  rw [affected_eq new snapshot.readable, filter_map_eq_iff snapshot.nodup]
  refine forall₂_congr fun process _ => ?_
  rw [Bool.eq_iff_iff, decide_eq_true_eq, decide_eq_true_eq]
  by_cases hlists : new.Lists process.imagePath
  · simp only [hlists, true_iff, forall_true_left, not_true_eq_false, false_implies, and_true]
  · rw [route_of_not_lists hlists]
    simp only [hlists, false_iff, false_implies, true_and, not_false_eq_true, forall_true_left,
      ne_eq, not_not]

/-- A browser that is bound to the tunnel and runs. -/
def browser : ProcessInfo where
  pid := 7
  imagePath := "C:\\chrome.exe".toList

/-- Its binding is deleted, and it is not named. -/
theorem deleted_binding_not_named : ¬ ∀ old new snapshot, NamesRerouted old new snapshot := by
  intro h
  let old : SplitTunnelConfig := { applications := [{ imagePath := browser.imagePath }] }
  let new : SplitTunnelConfig := { applications := [] }
  have hnamed := h old new ⟨[browser], by decide, by simp [browser]⟩
  have hrerouted : old.route browser.imagePath ≠ new.route browser.imagePath := by decide +kernel
  have hnone : SplitTunnelEngine.affected new [browser] = [] := by decide +kernel
  rw [NamesRerouted, SplitTunnelEngine.apply, hnone, List.filter_cons,
    if_pos (decide_eq_true hrerouted)] at hnamed
  cases hnamed

end NovaVpn.SplitTunnel
