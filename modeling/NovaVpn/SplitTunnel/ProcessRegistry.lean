import Mathlib.Logic.Function.Basic
import NovaVpn.Framework.Machine

/-!
# The process registry

`SplitTunnel/ProcessRegistry.cpp` on a machine whose processes start and exit,
so that an id has one owner after another. Any number of threads query at the
same time; the lookup in the cache, the reading of the path and its store are
separate steps, as the mutex is held for the first and the last alone. Whether
a process can be opened is left open at each reading. A path is a list of its
bytes; one that cannot be read is empty.

Nothing ever leaves the cache, so that an id that comes into other hands keeps
the path of its earlier owner (`identity_outlives_process`). `identified` is
the condition: no id is taken over with another path once one is cached or
read for it, and no id is looked up there that nobody owns.
-/

namespace NovaVpn.SplitTunnel

open NovaVpn.Framework

abbrev ProcessId := UInt32

abbrev ImagePath := List Char

structure Process where
  imagePath : ImagePath
  parent : ProcessId := 0

/-- `imagePathOf`, of the owner of the id. -/
def imagePathOf (pid : ProcessId) (owner : Option Process) (opens : Bool) : ImagePath :=
  if pid = 0 then []
  else
    match owner with
    | some process => if opens then process.imagePath else []
    | none => []

theorem imagePathOf_ne_nil {pid : ProcessId} {owner : Option Process} {opens : Bool}
    (h : imagePathOf pid owner opens ≠ []) :
    ∃ process, owner = some process ∧ process.imagePath = imagePathOf pid owner opens := by
  unfold imagePathOf at h ⊢
  split at h
  next => exact absurd rfl h
  next hpid =>
    cases owner with
    | none => exact absurd rfl h
    | some process =>
      cases opens with
      | false => exact absurd rfl h
      | true => exact ⟨process, rfl, by rw [if_neg hpid]; rfl⟩

/-- Where the walk of `effectiveRuleTargetFor` goes from a process without a
path, if the loop does not end. -/
def climb (parents : ProcessId → Option ProcessId) (current : ProcessId) : Option ProcessId :=
  match parents current with
  | some parent => if parent = current ∨ parent = 0 then none else some parent
  | none => none

theorem climb_ne_zero {parents : ProcessId → Option ProcessId} {current parent : ProcessId}
    (h : climb parents current = some parent) : parent ≠ 0 := by
  unfold climb at h
  split at h
  next =>
    split at h
    next => cases h
    next hne =>
      cases h
      exact fun hzero => hne (Or.inr hzero)
  next => cases h

inductive QueryPhase where
  /-- Before the lookup in the cache. -/
  | looking
  /-- Before `imagePathOf`. -/
  | missed
  /-- Before the store. -/
  | resolved (path : ImagePath)
  | returned (path : Option ImagePath)

/-- The path that was returned. -/
def QueryPhase.path : QueryPhase → Option ImagePath
  | returned path => path
  | _ => none

theorem QueryPhase.returned_of_path {p : QueryPhase} {path : ImagePath} (h : p.path = some path) :
    p = .returned (some path) := by
  cases p with
  | returned found => exact congrArg returned h
  | _ => cases h

/-- The loop of `effectiveRuleTargetFor`. -/
structure Walk where
  parents : ProcessId → Option ProcessId
  depth : Nat := 0

/-- A call of `imagePathFor`, or the one that a walk is at. -/
structure Query where
  pid : ProcessId
  phase : QueryPhase := .looking
  walk : Option Walk := none
  /-- The processes that have owned the id since the call. -/
  owners : List Process
  /-- There was no path to be read. -/
  unread : Bool := false

def Query.ended (q : Query) : Bool :=
  match q.phase with
  | .returned _ => true
  | _ => false

/-- The path was read, or could not be. -/
def Query.resolve (q : Query) (path : ImagePath) : Query :=
  if path.isEmpty then { q with phase := .returned none, unread := true }
  else { q with phase := .resolved path }

/-- The id comes into the hands of a process. -/
def Query.sees (q : Query) (pid : ProcessId) (process : Process) : Query :=
  if q.pid = pid ∧ q.ended = false then { q with owners := process :: q.owners } else q

namespace Query

variable (q : Query) (pid : ProcessId) (process : Process)

@[simp] theorem sees_pid : (q.sees pid process).pid = q.pid := by
  unfold sees
  split <;> rfl

@[simp] theorem sees_phase : (q.sees pid process).phase = q.phase := by
  unfold sees
  split <;> rfl

@[simp] theorem sees_unread : (q.sees pid process).unread = q.unread := by
  unfold sees
  split <;> rfl

@[simp] theorem sees_ended : (q.sees pid process).ended = q.ended := by
  unfold ended
  rw [sees_phase]

theorem subset_sees : q.owners ⊆ (q.sees pid process).owners := by
  unfold sees
  split
  · exact List.subset_cons_self process q.owners
  · exact List.Subset.refl _

variable {q pid process}

theorem sees_of_ne (h : q.pid ≠ pid) : q.sees pid process = q := if_neg fun hq => h hq.1

theorem mem_sees (hpid : q.pid = pid) (hended : q.ended = false) :
    process ∈ (q.sees pid process).owners := by
  rw [sees, if_pos ⟨hpid, hended⟩]
  exact List.mem_cons_self

end Query

structure ProcessRegistry where
  owner : ProcessId → Option Process := fun _ => none
  pidToPath : ProcessId → Option ImagePath := fun _ => none
  pidToParent : ProcessId → Option ProcessId := fun _ => none
  queries : Nat → Option Query := fun _ => none
  /-- How many queries were made. -/
  count : Nat := 0

namespace ProcessRegistry

inductive RegistryAct where
  /-- A process starts, and one exits. -/
  | begins (pid : ProcessId) (process : Process)
  | exits (pid : ProcessId)
  /-- `refreshSnapshot` of `start`. -/
  | refresh
  | imagePathFor (pid : ProcessId)
  | effectiveRuleTargetFor (pid : ProcessId)
  /-- The steps of a query. -/
  | look (query : Nat)
  | read (query : Nat) (opens : Bool)
  | store (query : Nat)
  | climb (query : Nat)

def ask (s : ProcessRegistry) (q : Query) : ProcessRegistry :=
  { s with queries := Function.update s.queries s.count (some q), count := s.count + 1 }

def setQuery (s : ProcessRegistry) (k : Nat) (q : Query) : ProcessRegistry :=
  { s with queries := Function.update s.queries k (some q) }

/-- A query of an id, from now on. -/
def query (s : ProcessRegistry) (pid : ProcessId) (walk : Option Walk) : Query :=
  { pid, walk, owners := (s.owner pid).toList }

/-- A step of a query. -/
def queryStep (s : ProcessRegistry) (k : Nat) (q : Query) : RegistryAct → Option ProcessRegistry
  | .look _ =>
    match q.phase with
    | .looking =>
      some (s.setQuery k
        (match s.pidToPath q.pid with
        | some path => { q with phase := .returned (some path) }
        | none => { q with phase := .missed }))
    | _ => none
  | .read _ opens =>
    match q.phase with
    | .missed =>
      some (s.setQuery k (q.resolve (imagePathOf q.pid (s.owner q.pid) opens)))
    | _ => none
  | .store _ =>
    match q.phase with
    | .resolved path =>
      some ({ s with pidToPath := Function.update s.pidToPath q.pid (some path) }.setQuery k
        { q with phase := .returned (some path) })
    | _ => none
  | .climb _ =>
    match q.phase, q.walk with
    | .returned none, some walk =>
      match SplitTunnel.climb walk.parents q.pid with
      | some parent =>
        if walk.depth + 1 < 32 then
          some (s.setQuery k (s.query parent (some { walk with depth := walk.depth + 1 })))
        else none
      | none => none
    | _, _ => none
  | _ => none

def step (s : ProcessRegistry) (act : RegistryAct) : Option ProcessRegistry :=
  match act with
  | .begins pid process =>
    match s.owner pid with
    | some _ => none
    | none =>
      some { s with
        owner := Function.update s.owner pid (some process)
        queries := fun k => (s.queries k).map fun q => q.sees pid process }
  | .exits pid => some { s with owner := Function.update s.owner pid none }
  | .refresh => some { s with pidToParent := fun pid => (s.owner pid).map (·.parent) }
  | .imagePathFor pid => some (s.ask (s.query pid none))
  | .effectiveRuleTargetFor pid =>
    let q := s.query pid (some { parents := s.pidToParent })
    some (s.ask (if pid = 0 then { q with phase := .returned none, unread := true } else q))
  | .look k | .read k _ | .store k | .climb k => (s.queries k).bind fun q => s.queryStep k q act

/-- A path that is returned is that of a process that has owned the id since
the call, and no path only if there was none to be read. -/
structure Identified (s : ProcessRegistry) : Prop where
  path : ∀ k q path, s.queries k = some q → q.phase = .returned (some path) →
    ∃ process ∈ q.owners, process.imagePath = path
  none : ∀ k q, s.queries k = some q → q.phase = .returned none → q.unread = true

/-- The paths cached for an id, or read for it and not yet stored. -/
def pathsOf (s : ProcessRegistry) (pid : ProcessId) : List ImagePath :=
  (s.pidToPath pid).toList ++ (List.range s.count).flatMap fun k =>
    match s.queries k with
    | some q =>
      match q.phase with
      | .resolved path => if q.pid = pid then [path] else []
      | _ => []
    | none => []

/-- Who takes over an id has the path that was cached or read for it, and an id
is looked up in the cache only if somebody has owned it since the call. -/
def keepsPaths (s : ProcessRegistry) : RegistryAct → Bool
  | .begins pid process => (s.pathsOf pid).all fun path => path = process.imagePath
  | .look k =>
    match s.queries k with
    | some q => (s.pidToPath q.pid).isNone || !q.owners.isEmpty
    | none => true
  | _ => true

/-- The path is that of the owner, and of one of those that a query has seen. -/
structure Known (s : ProcessRegistry) (pid : ProcessId) (path : ImagePath) : Prop where
  owner : ∀ process, s.owner pid = some process → process.imagePath = path
  seen : ∀ k q, s.queries k = some q → q.pid = pid → q.ended = false → q.owners ≠ [] →
    ∃ process ∈ q.owners, process.imagePath = path

structure RegInv (s : ProcessRegistry) : Prop where
  count : ∀ k q, s.queries k = some q → k < s.count
  owners : ∀ k q process, s.queries k = some q → q.ended = false →
    s.owner q.pid = some process → process ∈ q.owners
  cached : ∀ pid path, s.pidToPath pid = some path → s.Known pid path
  resolved : ∀ k q path, s.queries k = some q → q.phase = .resolved path →
    s.Known q.pid path ∧ ∃ process ∈ q.owners, process.imagePath = path
  identified : s.Identified

theorem Known.update {s : ProcessRegistry} {pid : ProcessId} {path : ImagePath}
    (h : s.Known pid path) (k : Nat) (q : Query) (count : Nat)
    (hq : q.pid = pid → q.ended = false → q.owners ≠ [] →
      ∃ process ∈ q.owners, process.imagePath = path) :
    Known { s with queries := Function.update s.queries k (some q), count } pid path := by
  refine ⟨h.owner, fun j r hj hpid hended howners => ?_⟩
  rcases update_some_cases hj with ⟨-, rfl⟩ | ⟨-, hj⟩
  · exact hq hpid hended howners
  · exact h.seen j r hj hpid hended howners

namespace RegInv

variable {s s' : ProcessRegistry} {k : Nat} {q : Query}

/-- One query goes on, or is new. -/
theorem update (h : RegInv s) (q : Query) {count : Nat} (hk : k < count) (hcount : s.count ≤ count)
    (howners : ∀ process, q.ended = false → s.owner q.pid = some process → process ∈ q.owners)
    (hseen : ∀ path, s.Known q.pid path → q.ended = false → q.owners ≠ [] →
      ∃ process ∈ q.owners, process.imagePath = path)
    (hresolved : ∀ path, q.phase = .resolved path →
      s.Known q.pid path ∧ ∃ process ∈ q.owners, process.imagePath = path)
    (hpath : ∀ path, q.phase = .returned (some path) →
      ∃ process ∈ q.owners, process.imagePath = path)
    (hnone : q.phase = .returned none → q.unread = true) :
    RegInv { s with queries := Function.update s.queries k (some q), count } := by
  have hknown : ∀ pid path, s.Known pid path →
      Known { s with queries := Function.update s.queries k (some q), count } pid path := by
    intro pid path hpid
    refine hpid.update k q count fun heq => ?_
    subst heq
    exact hseen path hpid
  refine ⟨fun j r hj => ?_, fun j r process hj => ?_, fun pid path hpid => ?_, fun j r path hj hr => ?_,
    fun j r path hj hr => ?_, fun j r hj hr => ?_⟩
  · rcases update_some_cases hj with ⟨rfl, -⟩ | ⟨-, hj⟩
    · exact hk
    · exact Nat.lt_of_lt_of_le (h.count j r hj) hcount
  · rcases update_some_cases hj with ⟨-, rfl⟩ | ⟨-, hj⟩
    · exact howners process
    · exact h.owners j r process hj
  · exact hknown pid path (h.cached pid path hpid)
  · rcases update_some_cases hj with ⟨-, rfl⟩ | ⟨-, hj⟩
    · exact ⟨hknown _ path (hresolved path hr).1, (hresolved path hr).2⟩
    · obtain ⟨hrknown, hrowner⟩ := h.resolved j r path hj hr
      exact ⟨hknown _ path hrknown, hrowner⟩
  · rcases update_some_cases hj with ⟨-, rfl⟩ | ⟨-, hj⟩
    · exact hpath path hr
    · exact h.identified.path j r path hj hr
  · rcases update_some_cases hj with ⟨-, rfl⟩ | ⟨-, hj⟩
    · exact hnone hr
    · exact h.identified.none j r hj hr

/-- A query that has just been made has seen the owner of its id. -/
theorem query_owners (s : ProcessRegistry) (pid : ProcessId) (walk : Option Walk)
    {process : Process} (hprocess : s.owner pid = some process) :
    process ∈ (s.query pid walk).owners := by
  rw [query, hprocess]
  exact List.mem_singleton.mpr rfl

theorem query_seen {pid : ProcessId} {path : ImagePath} (hknown : s.Known pid path)
    (walk : Option Walk) (hne : (s.query pid walk).owners ≠ []) :
    ∃ process ∈ (s.query pid walk).owners, process.imagePath = path := by
  cases howner : s.owner pid with
  | none =>
    rw [query, howner] at hne
    exact absurd rfl hne
  | some process => exact ⟨process, query_owners s pid walk howner, hknown.owner process howner⟩

/-- A query starts at an id. -/
theorem asks (h : RegInv s) (pid : ProcessId) (walk : Option Walk) {count : Nat} (hk : k < count)
    (hcount : s.count ≤ count) :
    RegInv { s with queries := Function.update s.queries k (some (s.query pid walk)), count } :=
  h.update (s.query pid walk) hk hcount (fun _ _ hprocess => query_owners s pid walk hprocess)
    (fun _ hknown _ hne => query_seen hknown walk hne) (fun _ hr => by cases hr)
    (fun _ hr => by cases hr) fun hr => by cases hr

theorem mem_pathsOf_cached {pid : ProcessId} {path : ImagePath}
    (h : s.pidToPath pid = some path) : path ∈ s.pathsOf pid := by
  rw [pathsOf, h]
  exact List.mem_append_left _ (List.mem_singleton.mpr rfl)

theorem mem_pathsOf_resolved (hk : k < s.count) {path : ImagePath} (hq : s.queries k = some q)
    (hphase : q.phase = .resolved path) : path ∈ s.pathsOf q.pid := by
  refine List.mem_append_right _ (List.mem_flatMap.mpr ⟨k, List.mem_range.mpr hk, ?_⟩)
  simp only [hq, hphase, if_pos]
  exact List.mem_singleton.mpr rfl

theorem begins_known {pid pid' : ProcessId} {process : Process} {path : ImagePath}
    (h : s.Known pid' path) (hsame : pid' = pid → path = process.imagePath) :
    Known { s with
      owner := Function.update s.owner pid (some process)
      queries := fun k => (s.queries k).map fun q => q.sees pid process } pid' path := by
  refine ⟨fun other hother => ?_, fun k r hr hpid hended hne => ?_⟩
  · rcases update_some_cases hother with ⟨heq, rfl⟩ | ⟨-, hother⟩
    · exact (hsame heq).symm
    · exact h.owner other hother
  · obtain ⟨q, hq, rfl⟩ := Option.map_eq_some_iff.mp hr
    rw [Query.sees_pid] at hpid
    rw [Query.sees_ended] at hended
    by_cases heq : pid' = pid
    · exact ⟨process, Query.mem_sees (hpid.trans heq) hended, (hsame heq).symm⟩
    · rw [Query.sees_of_ne fun hq => heq (hpid.symm.trans hq)] at hne ⊢
      exact h.seen k q hq hpid hended hne

/-- An id comes into the hands of a process with the path that is known for it. -/
theorem begins (h : RegInv s) {pid : ProcessId} {process : Process}
    (hok : s.keepsPaths (.begins pid process) = true) :
    RegInv { s with
      owner := Function.update s.owner pid (some process)
      queries := fun k => (s.queries k).map fun q => q.sees pid process } := by
  have hsame : ∀ path ∈ s.pathsOf pid, path = process.imagePath := by
    simpa only [keepsPaths, List.all_eq_true, decide_eq_true_eq] using hok
  refine ⟨fun k r hr => ?_, fun k r other hr hended hother => ?_, fun pid' path hpath => ?_,
    fun k r path hr hphase => ?_, fun k r path hr hphase => ?_, fun k r hr hphase => ?_⟩
  · obtain ⟨q, hq, rfl⟩ := Option.map_eq_some_iff.mp hr
    exact h.count k q hq
  · obtain ⟨q, hq, rfl⟩ := Option.map_eq_some_iff.mp hr
    rw [Query.sees_ended] at hended
    rw [Query.sees_pid] at hother
    rcases update_some_cases hother with ⟨heq, rfl⟩ | ⟨-, hother⟩
    · exact Query.mem_sees heq hended
    · exact q.subset_sees pid process (h.owners k q other hq hended hother)
  · refine begins_known (h.cached pid' path hpath) fun heq => hsame path ?_
    rw [← heq]
    exact mem_pathsOf_cached hpath
  · obtain ⟨q, hq, rfl⟩ := Option.map_eq_some_iff.mp hr
    rw [Query.sees_phase] at hphase
    rw [Query.sees_pid]
    obtain ⟨hknown, before, hbefore, hpath⟩ := h.resolved k q path hq hphase
    refine ⟨begins_known hknown fun heq => hsame path ?_, before,
      q.subset_sees pid process hbefore, hpath⟩
    rw [← heq]
    exact mem_pathsOf_resolved (h.count k q hq) hq hphase
  · obtain ⟨q, hq, rfl⟩ := Option.map_eq_some_iff.mp hr
    rw [Query.sees_phase] at hphase
    obtain ⟨before, hbefore, hpath⟩ := h.identified.path k q path hq hphase
    exact ⟨before, q.subset_sees pid process hbefore, hpath⟩
  · obtain ⟨q, hq, rfl⟩ := Option.map_eq_some_iff.mp hr
    rw [Query.sees_phase] at hphase
    rw [Query.sees_unread]
    exact h.identified.none k q hq hphase

theorem exits (h : RegInv s) (pid : ProcessId) :
    RegInv { s with owner := Function.update s.owner pid none } := by
  have howner : ∀ pid' process, Function.update s.owner pid none pid' = some process →
      s.owner pid' = some process := fun _ _ hprocess => (update_none_cases hprocess).2
  have hknown : ∀ pid' path, s.Known pid' path →
      Known { s with owner := Function.update s.owner pid none } pid' path := fun pid' path hpath =>
    ⟨fun process hprocess => hpath.owner process (howner pid' process hprocess), hpath.seen⟩
  refine ⟨h.count, fun k q process hq hended hprocess => ?_, fun pid' path hpath => ?_,
    fun k q path hq hphase => ?_, ⟨h.identified.path, h.identified.none⟩⟩
  · exact h.owners k q process hq hended (howner q.pid process hprocess)
  · exact hknown pid' path (h.cached pid' path hpath)
  · exact ⟨hknown q.pid path (h.resolved k q path hq hphase).1, (h.resolved k q path hq hphase).2⟩

/-- What is read is known, as every query under way has seen the owner. -/
theorem known_of_owner (h : RegInv s) {pid : ProcessId} {process : Process}
    (hprocess : s.owner pid = some process) : s.Known pid process.imagePath := by
  refine ⟨fun other hother => ?_, fun k q hq hpid hended _ => ⟨process, ?_, rfl⟩⟩
  · rw [hprocess, Option.some.injEq] at hother
    rw [hother]
  · exact h.owners k q process hq hended (hpid ▸ hprocess)

/-- A query returns. -/
theorem returns (h : RegInv s) {q' : Query} {count : Nat} (hk : k < count) (hcount : s.count ≤ count)
    (hended : q'.ended = true)
    (hpath : ∀ path, q'.phase = .returned (some path) →
      ∃ process ∈ q'.owners, process.imagePath = path)
    (hnone : q'.phase = .returned none → q'.unread = true) :
    RegInv { s with queries := Function.update s.queries k (some q'), count } := by
  have hactive : ∀ P : Prop, q'.ended = false → P := fun P hnot => by
    rw [hended] at hnot
    cases hnot
  refine h.update q' hk hcount (fun _ => hactive _) (fun _ _ => hactive _)
    (fun path hphase => ?_) hpath hnone
  rw [Query.ended, hphase] at hended
  cases hended

theorem queryStep (h : RegInv s) (hq : s.queries k = some q) {act : RegistryAct}
    (hok : ∀ j, act = .look j → s.pidToPath q.pid = none ∨ q.owners ≠ [])
    (hs : s.queryStep k q act = some s') : RegInv s' := by
  have hcount := h.count k q hq
  cases act with
  | look j =>
    simp only [ProcessRegistry.queryStep] at hs
    split at hs
    next hphase =>
      cases hs
      have hended : q.ended = false := by rw [Query.ended, hphase]
      split
      next path hcached =>
        refine h.returns hcount (Nat.le_refl _) rfl (fun p hp => ?_) fun hp => by cases hp
        cases hp
        have howners : q.owners ≠ [] := (hok j rfl).resolve_left fun hnone => by
          rw [hcached] at hnone
          cases hnone
        exact (h.cached q.pid path hcached).seen k q hq rfl hended howners
      next =>
        exact h.update { q with phase := .missed } hcount (Nat.le_refl _)
          (fun process _ hprocess => h.owners k q process hq hended hprocess)
          (fun path hknown _ hne => hknown.seen k q hq rfl hended hne)
          (fun _ hp => by cases hp) (fun _ hp => by cases hp) fun hp => by cases hp
    next => cases hs
  | read j opens =>
    simp only [ProcessRegistry.queryStep] at hs
    split at hs
    next hphase =>
      cases hs
      have hended : q.ended = false := by rw [Query.ended, hphase]
      unfold Query.resolve
      split
      next => exact h.returns hcount (Nat.le_refl _) rfl (fun p hp => by cases hp) fun _ => rfl
      next hread =>
        rw [List.isEmpty_iff] at hread
        obtain ⟨process, hprocess, hpath⟩ := imagePathOf_ne_nil hread
        refine h.update { q with phase := .resolved (imagePathOf q.pid (s.owner q.pid) opens) } hcount
          (Nat.le_refl _) (fun process _ hprocess => h.owners k q process hq hended hprocess)
          (fun path hknown _ hne => hknown.seen k q hq rfl hended hne) (fun path hp => ?_)
          (fun _ hp => by cases hp) fun hp => by cases hp
        cases hp
        rw [← hpath]
        exact ⟨h.known_of_owner hprocess, process, h.owners k q process hq hended hprocess, rfl⟩
    next => cases hs
  | store j =>
    simp only [ProcessRegistry.queryStep] at hs
    split at hs
    next path hphase =>
      cases hs
      obtain ⟨hknown, howner⟩ := h.resolved k q path hq hphase
      have hstored : RegInv { s with pidToPath := Function.update s.pidToPath q.pid (some path) } := by
        have hsame : ∀ pid p, s.Known pid p →
            Known { s with pidToPath := Function.update s.pidToPath q.pid (some path) } pid p :=
          fun pid p hp => ⟨hp.owner, hp.seen⟩
        refine ⟨h.count, h.owners, fun pid p hp => ?_,
          fun j r p hj hp => ⟨hsame r.pid p (h.resolved j r p hj hp).1, (h.resolved j r p hj hp).2⟩,
          ⟨h.identified.path, h.identified.none⟩⟩
        rcases update_some_cases hp with ⟨rfl, rfl⟩ | ⟨-, hp⟩
        · exact hsame q.pid p hknown
        · exact hsame pid p (h.cached pid p hp)
      refine hstored.returns hcount (Nat.le_refl _) rfl (fun p hp => ?_) fun hp => by cases hp
      cases hp
      exact howner
    next => cases hs
  | climb j =>
    simp only [ProcessRegistry.queryStep] at hs
    split at hs
    next walk hphase hwalk =>
      split at hs
      next parent hparent =>
        split at hs
        next =>
          cases hs
          exact h.asks parent _ hcount (Nat.le_refl _)
        next => cases hs
      next => cases hs
    next => cases hs
  | _ => cases hs

theorem step (h : RegInv s) {act : RegistryAct} (hok : s.keepsPaths act = true)
    (hs : s.step act = some s') : RegInv s' := by
  cases act with
  | begins pid process =>
    simp only [ProcessRegistry.step] at hs
    split at hs
    next => cases hs
    next =>
      cases hs
      exact h.begins hok
  | exits pid =>
    cases hs
    exact h.exits pid
  | refresh =>
    cases hs
    have hknown : ∀ pid path, s.Known pid path →
        Known { s with pidToParent := fun pid => (s.owner pid).map (·.parent) } pid path :=
      fun pid path hpath => ⟨hpath.owner, hpath.seen⟩
    exact ⟨h.count, h.owners, fun pid path hpath => hknown pid path (h.cached pid path hpath),
      fun k q path hq hphase => ⟨hknown q.pid path (h.resolved k q path hq hphase).1,
        (h.resolved k q path hq hphase).2⟩, ⟨h.identified.path, h.identified.none⟩⟩
  | imagePathFor pid =>
    cases hs
    exact h.asks pid none (Nat.lt_succ_self _) (Nat.le_succ _)
  | effectiveRuleTargetFor pid =>
    cases hs
    split
    · exact h.returns (Nat.lt_succ_self _) (Nat.le_succ _) rfl (fun _ hp => by cases hp) fun _ => rfl
    · exact h.asks pid _ (Nat.lt_succ_self _) (Nat.le_succ _)
  | look k =>
    obtain ⟨q, hq, hs⟩ := Option.bind_eq_some_iff.mp hs
    simp only [keepsPaths, hq, Bool.or_eq_true, Option.isNone_iff_eq_none, Bool.not_eq_true',
      List.isEmpty_eq_false_iff] at hok
    exact h.queryStep hq (fun _ _ => hok) hs
  | read k opens =>
    obtain ⟨q, hq, hs⟩ := Option.bind_eq_some_iff.mp hs
    exact h.queryStep hq (fun _ hlook => by cases hlook) hs
  | store k =>
    obtain ⟨q, hq, hs⟩ := Option.bind_eq_some_iff.mp hs
    exact h.queryStep hq (fun _ hlook => by cases hlook) hs
  | climb k =>
    obtain ⟨q, hq, hs⟩ := Option.bind_eq_some_iff.mp hs
    exact h.queryStep hq (fun _ hlook => by cases hlook) hs

theorem init : RegInv {} :=
  ⟨fun _ _ hq => (by cases hq), fun _ _ _ hq => (by cases hq), fun _ _ hpath => (by cases hpath),
    fun _ _ _ hq => (by cases hq), ⟨fun _ _ _ hq => (by cases hq), fun _ _ hq => (by cases hq)⟩⟩

end RegInv

theorem identified {acts : List RegistryAct} {s : ProcessRegistry}
    (hok : RunMeets ProcessRegistry.step (fun s act => keepsPaths s act = true) {} acts)
    (hr : run ProcessRegistry.step {} acts = some s) : Identified s :=
  (run_invariant (I := RegInv) (fun _ _ _ h hok hs => h.step hok hs) .init hok hr).identified

/-- What a query has returned. -/
def answer (s : ProcessRegistry) (k : Nat) : Option ImagePath := (s.queries k).bind (·.phase.path)

/-- A process is queried, and asked for again from the cache. -/
def queriedTwice : List RegistryAct :=
  [.begins 8 { imagePath := ['a'] }, .imagePathFor 8, .look 0, .read 0 true, .store 0,
    .effectiveRuleTargetFor 8, .look 1]

theorem identified_cached : ∃ s, run ProcessRegistry.step {} queriedTwice = some s ∧
    s.answer 1 = some ['a'] ∧ Identified s := by
  have hok : RunMeets ProcessRegistry.step (fun s act => keepsPaths s act = true) {} queriedTwice := by
    decide +kernel
  have hrun : (run ProcessRegistry.step {} queriedTwice).map (fun s => s.answer 1) =
      some (some ['a']) := by decide +kernel
  obtain ⟨s, hs, hanswer⟩ := Option.map_eq_some_iff.mp hrun
  exact ⟨s, hs, hanswer, identified hok hs⟩

/-- The id of a process that was queried goes to another one. -/
def reused : List RegistryAct :=
  [.begins 8 { imagePath := ['a'] }, .imagePathFor 8, .look 0, .read 0 true, .store 0, .exits 8,
    .begins 8 { imagePath := ['b'] }, .imagePathFor 8, .look 1]

/-- It is answered with the path of the first. -/
theorem identity_outlives_process : ¬ ∀ acts s,
    run ProcessRegistry.step {} acts = some s → Identified s := by
  intro h
  have hrun : (run ProcessRegistry.step {} reused).map (fun s =>
      (s.queries 1).map fun q => (q.phase.path, q.owners.map (·.imagePath))) =
        some (some (some ['a'], [['b']])) := by decide +kernel
  obtain ⟨s, hs, heq⟩ := Option.map_eq_some_iff.mp hrun
  obtain ⟨q, hq, heq⟩ := Option.map_eq_some_iff.mp heq
  obtain ⟨hpath, howners⟩ := Prod.mk.inj heq
  obtain ⟨process, hprocess, heq⟩ := (h _ s hs).path 1 q ['a'] hq (QueryPhase.returned_of_path hpath)
  have hmem := List.mem_map_of_mem (f := Process.imagePath) hprocess
  rw [howners, heq] at hmem
  revert hmem
  decide

end ProcessRegistry

end NovaVpn.SplitTunnel
