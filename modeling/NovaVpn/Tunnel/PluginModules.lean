import NovaVpn.Tunnel.EngineRegistry

/-!
# The modules of the plugins

Over any run, with loads in progress at the same time: a module's code runs only while the
module is in the process, and a handle is open exactly as long as it has an owner
(`modules_owned`); where signatures are required, only signed code is in the process, if no
file is written between its check and its loading (`only_signed_code`); and the engine that
`create` makes is that of the first built-in of the id, or else of the last plugin that
named it (`create_from_history`).
-/

namespace NovaVpn.Plugins

open NovaVpn.Framework

namespace Registry

/-- The handles of the loads in progress. -/
def pending (s : Registry) : List Nat := s.loads.filterMap Load.handle

/-- A load, the registry or an engine has the handle. -/
def Owned (s : Registry) (handle : Nat) : Prop :=
  handle ∈ s.pending ∨ handle ∈ s.hold ∨ .plugin handle ∈ s.engines

end Registry

/-- Code runs only while it is in the process, the handles that are open are those with an
owner, and every plugin that `create` may turn to is still loaded. -/
structure ModulesOwned (s : Registry) : Prop where
  fault : s.fault = false
  owned : ∀ h, (s.handles h).isSome = true ↔ s.Owned h
  found : s.alive = true → ∀ key h, s.pluginEngines key = some h → h ∈ s.hold

/-! ## The invariant -/

structure RegistryInv (s : Registry) : Prop where
  modules : ModulesOwned s
  bound : ∀ h, (s.handles h).isSome = true → h < s.opened
  distinct : s.pending.Nodup
  apart : ∀ h ∈ s.pending, h ∉ s.hold ∧ .plugin h ∉ s.engines

namespace RegistryInv

variable {s s' : Registry}

theorem init (requireSigned : Bool) (files : String → File) :
    RegistryInv (registry requireSigned files) where
  modules := ⟨rfl, fun _ => ⟨nofun, fun h => by rcases h with h | h | h <;> cases h⟩, fun _ _ _ => nofun⟩
  bound _ := nofun
  distinct := List.nodup_nil
  apart _ h := nomatch h

/-- Only the history, the files and the like differ. -/
theorem congr (h : RegistryInv s) (hfault : s'.fault = s.fault) (hhandles : s'.handles = s.handles)
    (hopened : s'.opened = s.opened) (hpending : s'.pending.Perm s.pending) (hhold : s'.hold = s.hold)
    (hengines : ∀ k, .plugin k ∈ s'.engines ↔ .plugin k ∈ s.engines)
    (hfound : s'.alive = true → ∀ key k, s'.pluginEngines key = some k → k ∈ s.hold) :
    RegistryInv s' where
  modules := by
    refine ⟨hfault.trans h.modules.fault, fun k => ?_, by rwa [hhold]⟩
    rw [hhandles, h.modules.owned, Registry.Owned, Registry.Owned, hpending.mem_iff, hhold, hengines]
  bound := by rw [hhandles, hopened]; exact h.bound
  distinct := hpending.nodup_iff.mpr h.distinct
  apart k hk := by
    rw [hhold, hengines]
    exact h.apart k (hpending.mem_iff.mp hk)

theorem isSome_of_hold (h : RegistryInv s) {k : Nat} (hk : k ∈ s.hold) :
    (s.handles k).isSome = true := (h.modules.owned k).mpr (.inr (.inl hk))

theorem isSome_of_engine (h : RegistryInv s) {k : Nat} (hk : .plugin k ∈ s.engines) :
    (s.handles k).isSome = true := (h.modules.owned k).mpr (.inr (.inr hk))

theorem isSome_of_pending (h : RegistryInv s) {k : Nat} (hk : k ∈ s.pending) :
    (s.handles k).isSome = true := (h.modules.owned k).mpr (.inl hk)

/-- Code of a module that is open runs. -/
theorem runCode_eq {k : Nat} (hk : (s.handles k).isSome = true) : s.runCode k = s := by
  have hnone : (s.handles k).isNone = false := by rw [← Option.not_isSome, hk]; rfl
  rw [Registry.runCode, hnone, Bool.or_false]

theorem registerBuiltin (h : RegistryInv s) (engineId : String) (factory : Option Nat) :
    RegistryInv (s.registerBuiltin engineId factory).2 := by
  unfold Registry.registerBuiltin
  split
  · exact h
  · dsimp only
    split
    · exact h
    · split
      · exact h
      · exact h.congr rfl rfl rfl (.refl _) rfl (fun _ => Iff.rfl) h.modules.found

/-- An engine of a plugin that is held. -/
theorem addEngine (h : RegistryInv s) {handle : Nat} (hhold : handle ∈ s.hold) :
    RegistryInv { s with engines := .plugin handle :: s.engines } where
  modules := by
    refine ⟨h.modules.fault, fun k => (h.modules.owned k).trans ⟨?_, ?_⟩, h.modules.found⟩
    · rintro (hk | hk | hk)
      · exact .inl hk
      · exact .inr (.inl hk)
      · exact .inr (.inr (List.mem_cons_of_mem _ hk))
    · rintro (hk | hk | hk)
      · exact .inl hk
      · exact .inr (.inl hk)
      · rcases List.mem_cons.mp hk with heq | hk
        · cases heq
          exact .inr (.inl hhold)
        · exact .inr (.inr hk)
  bound := h.bound
  distinct := h.distinct
  apart k hk := by
    refine ⟨(h.apart k hk).1, fun hmem => ?_⟩
    rcases List.mem_cons.mp hmem with heq | hmem
    · rw [Source.plugin.inj heq] at hk
      exact (h.apart handle hk).1 hhold
    · exact (h.apart k hk).2 hmem

theorem create (h : RegistryInv s) (halive : s.alive = true) (engineId : String) (made : Bool) :
    RegistryInv (s.create engineId made).2 := by
  unfold Registry.create
  dsimp only
  split
  · split
    · refine h.congr rfl rfl rfl (.refl _) rfl (fun k => ?_) h.modules.found
      rw [List.mem_cons]
      exact or_iff_right nofun
    · exact h
  · split
    · next handle hhandle =>
      split
      · have hhold := h.modules.found halive _ _ hhandle
        rw [runCode_eq (h.isSome_of_hold hhold)]
        split
        · exact h.addEngine hhold
        · exact h
      · exact h
    · exact h

theorem dropEngine (h : RegistryInv s) {engine : Source} (hmem : engine ∈ s.engines) :
    RegistryInv (s.dropEngine engine) := by
  cases engine with
  | builtin factory =>
    refine h.congr rfl rfl rfl (.refl _) rfl (fun k => ?_) h.modules.found
    exact List.mem_erase_of_ne nofun
  | plugin handle =>
    have hopen := h.isSome_of_engine hmem
    have hother : ∀ k, k ≠ handle →
        (Source.plugin k ∈ s.engines.erase (.plugin handle) ↔ .plugin k ∈ s.engines) :=
      fun k hk => List.mem_erase_of_ne fun heq => hk (Source.plugin.inj heq)
    have hpending : handle ∉ s.pending := fun hp => (h.apart handle hp).2 hmem
    simp only [Registry.dropEngine, runCode_eq hopen]
    split
    · next hheld =>
      -- another owner is left
      refine ⟨⟨h.modules.fault, fun k => (h.modules.owned k).trans ?_, h.modules.found⟩, h.bound,
        h.distinct, fun k hk => ⟨(h.apart k hk).1, fun he => (h.apart k hk).2 (List.mem_of_mem_erase he)⟩⟩
      by_cases hkh : k = handle
      · subst hkh
        have hleft : k ∈ s.hold ∨ Source.plugin k ∈ s.engines.erase (.plugin k) := by
          simpa [Registry.held] using hheld
        exact ⟨fun _ => .inr hleft, fun _ => .inr (.inr hmem)⟩
      · exact or_congr_right (or_congr_right (hother k hkh).symm)
    · next hheld =>
      have hleft : handle ∉ s.hold ∧ Source.plugin handle ∉ s.engines.erase (.plugin handle) := by
        simpa [Registry.held] using hheld
      refine ⟨⟨h.modules.fault, fun k => ?_, h.modules.found⟩, fun k hk => ?_, h.distinct,
        fun k hk => ⟨(h.apart k hk).1, fun he => (h.apart k hk).2 (List.mem_of_mem_erase he)⟩⟩
      · show (Function.update s.handles handle none k).isSome = true ↔ _
        by_cases hkh : k = handle
        · subst hkh
          rw [Function.update_self]
          exact ⟨nofun, fun ho => (not_or.mpr ⟨hpending, not_or.mpr hleft⟩ ho).elim⟩
        · rw [Function.update_of_ne hkh, h.modules.owned]
          exact or_congr_right (or_congr_right (hother k hkh).symm)
      · change (Function.update s.handles handle none k).isSome = true at hk
        by_cases hkh : k = handle
        · rw [hkh, Function.update_self] at hk
          cases hk
        · rw [Function.update_of_ne hkh] at hk
          exact h.bound k hk

/-! ### Loads -/

theorem pending_erase_none {load : Load} (hl : load ∈ s.loads) (hnone : load.handle = none) :
    ((s.loads.erase load).filterMap Load.handle).Perm s.pending := by
  have hperm := (List.perm_cons_erase hl).filterMap Load.handle
  rw [List.filterMap_cons_none hnone] at hperm
  exact hperm.symm

theorem pending_erase_some {load : Load} {handle : Nat} (hl : load ∈ s.loads)
    (hsome : load.handle = some handle) :
    s.pending.Perm (handle :: (s.loads.erase load).filterMap Load.handle) := by
  have hperm := (List.perm_cons_erase hl).filterMap Load.handle
  rwa [List.filterMap_cons_some hsome] at hperm

/-- A load that ended with its handle closed. -/
theorem refused (h : RegistryInv s) {handle : Nat} (hl : .mapped handle ∈ s.loads) :
    RegistryInv ({ s with loads := s.loads.erase (.mapped handle) }.close handle) := by
  have hperm := pending_erase_some hl rfl
  have hdistinct := hperm.nodup_iff.mp h.distinct
  have hrest := (List.nodup_cons.mp hdistinct).1
  have hhandle : handle ∈ s.pending := hperm.mem_iff.mpr List.mem_cons_self
  have hmem : ∀ k, k ∈ (s.loads.erase (.mapped handle)).filterMap Load.handle → k ∈ s.pending :=
    fun k hk => hperm.mem_iff.mpr (List.mem_cons_of_mem _ hk)
  refine ⟨⟨h.modules.fault, fun k => ?_, h.modules.found⟩, fun k hk => ?_,
    (List.nodup_cons.mp hdistinct).2, fun k hk => h.apart k (hmem k hk)⟩
  · show (Function.update s.handles handle none k).isSome = true ↔ _
    by_cases hkh : k = handle
    · subst hkh
      rw [Function.update_self]
      exact ⟨nofun, fun ho => (not_or.mpr ⟨hrest, not_or.mpr (h.apart k hhandle)⟩ ho).elim⟩
    · rw [Function.update_of_ne hkh, h.modules.owned]
      refine or_congr_left ?_
      rw [hperm.mem_iff, List.mem_cons]
      exact or_iff_right hkh
  · change (Function.update s.handles handle none k).isSome = true at hk
    by_cases hkh : k = handle
    · rw [hkh, Function.update_self] at hk
      cases hk
    · rw [Function.update_of_ne hkh] at hk
      exact h.bound k hk

theorem mapFile (h : RegistryInv s) (path : String) : RegistryInv (s.mapFile path) := by
  have hnew : (s.handles s.opened).isSome ≠ true := fun hs => absurd (h.bound _ hs) (Nat.lt_irrefl _)
  have hfree : ¬ s.Owned s.opened := fun ho => hnew ((h.modules.owned _).mpr ho)
  obtain ⟨hpending, hhold, hengines⟩ := (not_or.mp hfree).imp_right not_or.mp
  refine ⟨⟨h.modules.fault, fun k => ?_, h.modules.found⟩, fun k hk => ?_,
    List.nodup_cons.mpr ⟨hpending, h.distinct⟩, fun k hk => ?_⟩
  · show (Function.update s.handles s.opened (some path) k).isSome = true ↔
      k ∈ s.opened :: s.pending ∨ _
    by_cases hk : k = s.opened
    · subst hk
      rw [Function.update_self]
      exact ⟨fun _ => .inl List.mem_cons_self, fun _ => rfl⟩
    · rw [Function.update_of_ne hk, h.modules.owned]
      refine or_congr_left ?_
      rw [List.mem_cons]
      exact (or_iff_right hk).symm
  · change (Function.update s.handles s.opened (some path) k).isSome = true at hk
    show k < s.opened + 1
    by_cases hko : k = s.opened
    · omega
    · rw [Function.update_of_ne hko] at hk
      have := h.bound k hk
      omega
  · rcases List.mem_cons.mp hk with rfl | hk
    · exact ⟨hhold, hengines⟩
    · exact h.apart k hk

theorem advertise_eq_some {handle k : Nat} {keys : List (List Char)} {key : List Char}
    (h : s.advertise handle keys key = some k) : k = handle ∨ s.pluginEngines key = some k := by
  have hfold : ∀ (keys : List (List Char)) (engines : List Char → Option Nat),
      keys.foldl (fun engines key =>
        if (s.builtins key).isSome then engines else Function.update engines key (some handle))
        engines key = some k → k = handle ∨ engines key = some k := by
    intro keys
    induction keys with
    | nil => exact fun engines h => .inr h
    | cons key' keys ih =>
      intro engines h
      rcases ih _ h with h | h
      · exact .inl h
      · dsimp only at h
        split at h
        · exact .inr h
        · rcases update_some_cases h with ⟨-, rfl⟩ | ⟨-, h⟩
          · exact .inl rfl
          · exact .inr h
  exact hfold keys s.pluginEngines h

/-- The registry takes a handle over from a load. -/
theorem register (h : RegistryInv s) {handle : Nat} {ids : List Char}
    (hl : .inspected handle ids ∈ s.loads) :
    RegistryInv ({ s with loads := s.loads.erase (.inspected handle ids) }.register handle ids) := by
  have hperm := pending_erase_some hl rfl
  have hdistinct := hperm.nodup_iff.mp h.distinct
  have hmem : ∀ k, k ∈ (s.loads.erase (.inspected handle ids)).filterMap Load.handle → k ∈ s.pending :=
    fun k hk => hperm.mem_iff.mpr (List.mem_cons_of_mem _ hk)
  refine ⟨⟨h.modules.fault, fun k => (h.modules.owned k).trans ?_, fun halive key k hk => ?_⟩,
    h.bound, (List.nodup_cons.mp hdistinct).2, fun k hk => ⟨fun hold => ?_, (h.apart k (hmem k hk)).2⟩⟩
  · show k ∈ s.pending ∨ _ ∨ _ ↔ k ∈ (s.loads.erase _).filterMap Load.handle ∨
      k ∈ s.hold ++ [handle] ∨ _
    rw [hperm.mem_iff, List.mem_cons, List.mem_append, List.mem_singleton]
    tauto
  · rcases advertise_eq_some hk with rfl | hk
    · exact List.mem_append_right _ List.mem_cons_self
    · exact List.mem_append_left _ (h.modules.found halive key k hk)
  · rcases List.mem_append.mp hold with hold | hold
    · exact (h.apart k (hmem k hk)).1 hold
    · obtain rfl := List.mem_singleton.mp hold
      exact (List.nodup_cons.mp hdistinct).1 hk

theorem destroy (h : RegistryInv s) (hloads : s.loads = []) : RegistryInv s.destroy := by
  have hpending : s.pending = [] := by rw [Registry.pending, hloads]; rfl
  refine ⟨⟨h.modules.fault, fun k => ?_, nofun⟩, fun k hk => ?_, ?_, fun k hk => ?_⟩
  · show (if k ∈ s.hold ∧ .plugin k ∉ s.engines then none else s.handles k).isSome = true ↔
      k ∈ s.pending ∨ k ∈ [] ∨ .plugin k ∈ s.engines
    have howned : (s.handles k).isSome = true ↔ k ∈ s.hold ∨ .plugin k ∈ s.engines := by
      rw [h.modules.owned, Registry.Owned, hpending]
      exact or_iff_right List.not_mem_nil
    rw [hpending, or_iff_right List.not_mem_nil, or_iff_right List.not_mem_nil]
    split
    · next hk => exact ⟨nofun, fun he => absurd he hk.2⟩
    · next hk =>
      rw [howned]
      exact ⟨fun ho => by_contra fun he => hk ⟨ho.resolve_right he, he⟩, .inr⟩
  · change (if k ∈ s.hold ∧ .plugin k ∉ s.engines then none else s.handles k).isSome = true at hk
    split at hk
    · cases hk
    · exact h.bound k hk
  · exact h.distinct
  · exact ⟨List.not_mem_nil, (h.apart k hk).2⟩

theorem step (h : RegistryInv s) {act : RegistryAct} (hs : s.step act = some s') :
    RegistryInv s' := by
  cases act with
  | registerBuiltin engineId factory =>
    simp only [Registry.step] at hs
    split at hs
    · cases hs
      exact h.registerBuiltin engineId factory
    · cases hs
  | create engineId made =>
    simp only [Registry.step] at hs
    split at hs
    · next halive =>
      cases hs
      exact h.create halive engineId made
    · cases hs
  | dropEngine engine =>
    simp only [Registry.step] at hs
    split at hs
    · next hmem =>
      cases hs
      exact h.dropEngine hmem
    · cases hs
  | check path =>
    simp only [Registry.step] at hs
    split at hs
    · split at hs
      · cases hs
        exact h
      · cases hs
        exact h.congr rfl rfl rfl (.refl _) rfl (fun _ => Iff.rfl) h.modules.found
    · cases hs
  | map path opens =>
    simp only [Registry.step] at hs
    split at hs
    · next hl =>
      cases hs
      have herased : RegistryInv { s with loads := s.loads.erase (.checked path) } :=
        h.congr rfl rfl rfl (pending_erase_none hl rfl) rfl (fun _ => Iff.rfl) h.modules.found
      split
      · exact herased.mapFile path
      · exact herased
    · cases hs
  | inspect handle =>
    simp only [Registry.step] at hs
    split at hs
    · next hl =>
      have hperm := pending_erase_some hl rfl
      have hopen := h.isSome_of_pending (hperm.mem_iff.mpr List.mem_cons_self)
      split at hs
      · next hnone =>
        rw [hnone] at hopen
        cases hopen
      · split at hs
        · cases hs
          exact h.refused hl
        · cases hs
          exact h.congr rfl rfl rfl hperm.symm rfl (fun _ => Iff.rfl) h.modules.found
    · cases hs
  | register handle ids =>
    simp only [Registry.step] at hs
    split at hs
    · next hl =>
      cases hs
      exact h.register hl
    · cases hs
  | replace path file =>
    cases hs
    exact h.congr rfl rfl rfl (.refl _) rfl (fun _ => Iff.rfl) h.modules.found
  | destroy =>
    simp only [Registry.step] at hs
    split at hs
    · next hidle =>
      cases hs
      rw [Bool.and_eq_true] at hidle
      exact h.destroy (List.isEmpty_iff.mp hidle.2)
    · cases hs

end RegistryInv

/-- After any run, with any loads in progress: no code ran that was not in the process, the
handles that are open are those of a load, the registry or an engine, and whatever plugin
`create` may turn to is loaded. -/
theorem modules_owned (requireSigned : Bool) (files : String → File) {acts : List RegistryAct}
    {s : Registry} (h : run Registry.step (registry requireSigned files) acts = some s) :
    ModulesOwned s :=
  (run_invariant' (fun _ _ _ h hs => RegistryInv.step h hs) (.init requireSigned files) h).modules

/-- A plugin for two engines. -/
def wireguard : String → File := fun _ => { ids := ['W', 'g', ',', ' ', 's', 's'] }

/-- Two loads of it at the same time, and an engine that outlives the registry. -/
def loadedTwice : List RegistryAct :=
  [.check "wg.dll", .map "wg.dll" true, .check "wg.dll", .inspect 0, .map "wg.dll" true,
    .register 0 ['W', 'g', ',', ' ', 's', 's'], .create "WG" true, .inspect 1,
    .register 1 ['W', 'g', ',', ' ', 's', 's'], .destroy]

theorem modules_owned_loadedTwice :
    ∃ s, run Registry.step (registry true wireguard) loadedTwice = some s ∧
      s.handles 0 = some "wg.dll" ∧ s.handles 1 = none ∧ ModulesOwned s :=
  ⟨_, rfl, rfl, rfl, @modules_owned true wireguard loadedTwice _ rfl⟩

/-! ## Signatures -/

/-- Signatures are required, and what was checked or is loaded has one. -/
structure SignedInv (s : Registry) : Prop where
  required : s.requireSigned = true
  checked : ∀ path, .checked path ∈ s.loads → (s.files path).signed = true
  image : ∀ h path, s.handles h = some path → (s.image path).signed = true

namespace SignedInv

variable {s s' : Registry}

/-- Handles are closed and loads go on. -/
theorem less (h : SignedInv s) (hrequire : s'.requireSigned = s.requireSigned)
    (hfiles : s'.files = s.files) (himage : s'.image = s.image)
    (hloads : ∀ path, .checked path ∈ s'.loads → .checked path ∈ s.loads)
    (hhandles : ∀ k path, s'.handles k = some path → s.handles k = some path) : SignedInv s' where
  required := hrequire.trans h.required
  checked path hpath := by
    rw [hfiles]
    exact h.checked path (hloads path hpath)
  image k path hk := by
    rw [himage]
    exact h.image k path (hhandles k path hk)

theorem close (h : SignedInv s) (handle : Nat) : SignedInv (s.close handle) :=
  h.less rfl rfl rfl (fun _ => id) fun _ _ hk => (update_none_cases hk).2

theorem mapFile (h : SignedInv s) {path : String} (hsigned : (s.files path).signed = true) :
    SignedInv (s.mapFile path) := by
  -- the file as it is in the process, now or from before
  have hpath : ((s.mapFile path).image path).signed = true := by
    show ((if s.inProcess path then s.image else _) path).signed = true
    split
    · next hin =>
      obtain ⟨k, -, hk⟩ := List.any_eq_true.mp hin
      exact h.image k path (of_decide_eq_true hk)
    · rw [Function.update_self]
      exact hsigned
  refine ⟨h.required, fun path' hp => ?_, fun k path' hk => ?_⟩
  · exact h.checked path' ((List.mem_cons.mp hp).resolve_left nofun)
  · by_cases heq : path' = path
    · rw [heq]
      exact hpath
    · rcases update_some_cases hk with ⟨-, rfl⟩ | ⟨-, hk⟩
      · exact absurd rfl heq
      · show ((if s.inProcess path then s.image else _) path').signed = true
        split
        · exact h.image k path' hk
        · rw [Function.update_of_ne heq]
          exact h.image k path' hk

theorem create (h : SignedInv s) {engineId : String} {made : Bool}
    (hs : s.step (.create engineId made) = some s') : SignedInv s' := by
  simp only [Registry.step] at hs
  split at hs
  · cases hs
    unfold Registry.create
    dsimp only
    split
    · split
      · exact ⟨h.required, h.checked, h.image⟩
      · exact ⟨h.required, h.checked, h.image⟩
    · split
      · split
        · split
          · exact ⟨h.required, h.checked, h.image⟩
          · exact ⟨h.required, h.checked, h.image⟩
        · exact ⟨h.required, h.checked, h.image⟩
      · exact ⟨h.required, h.checked, h.image⟩
  · cases hs

theorem dropEngine (h : SignedInv s) {engine : Source}
    (hs : s.step (.dropEngine engine) = some s') : SignedInv s' := by
  simp only [Registry.step] at hs
  split at hs
  · cases hs
    cases engine with
    | builtin factory => exact ⟨h.required, h.checked, h.image⟩
    | plugin handle =>
      simp only [Registry.dropEngine]
      split
      · exact ⟨h.required, h.checked, h.image⟩
      · have herased :
            SignedInv { s.runCode handle with engines := s.engines.erase (.plugin handle) } :=
          ⟨h.required, h.checked, h.image⟩
        exact herased.close handle
  · cases hs

/-- A file is only mapped after its signature was checked. -/
theorem check (h : SignedInv s) {path : String}
    (hs : s.step (.check path) = some s') : SignedInv s' := by
  simp only [Registry.step] at hs
  split at hs
  · split at hs
    · cases hs
      exact h
    · next hcheck =>
      cases hs
      refine ⟨h.required, fun path' hp => ?_, h.image⟩
      rcases List.mem_cons.mp hp with heq | hp
      · cases heq
        simpa [h.required] using hcheck
      · exact h.checked path' hp
  · cases hs

theorem map (h : SignedInv s) {path : String} {opens : Bool}
    (hs : s.step (.map path opens) = some s') : SignedInv s' := by
  simp only [Registry.step] at hs
  split at hs
  · next hl =>
    cases hs
    have herased : SignedInv { s with loads := s.loads.erase (.checked path) } :=
      h.less rfl rfl rfl (fun _ => List.mem_of_mem_erase) fun _ _ => id
    split
    · exact herased.mapFile (h.checked path hl)
    · exact herased
  · cases hs

/-- A module that is refused is closed again. -/
theorem inspect (h : SignedInv s) {handle : Nat}
    (hs : s.step (.inspect handle) = some s') : SignedInv s' := by
  simp only [Registry.step] at hs
  split at hs
  · split at hs
    · cases hs
      exact ⟨h.required, h.checked, h.image⟩
    · have herased : SignedInv { s with loads := s.loads.erase (.mapped handle) } :=
        h.less rfl rfl rfl (fun _ => List.mem_of_mem_erase) fun _ _ => id
      split at hs
      · cases hs
        exact herased.close handle
      · cases hs
        refine herased.less rfl rfl rfl (fun path hp => ?_) fun _ _ => id
        exact (List.mem_cons.mp hp).resolve_left nofun
  · cases hs

theorem destroy (h : SignedInv s) (hs : s.step .destroy = some s') : SignedInv s' := by
  simp only [Registry.step] at hs
  split at hs
  · cases hs
    refine h.less rfl rfl rfl (fun _ => id) fun k path hk => ?_
    change (if k ∈ s.hold ∧ .plugin k ∉ s.engines then none else s.handles k) = some path at hk
    split at hk
    · cases hk
    · exact hk
  · cases hs

theorem step (h : SignedInv s) {act : RegistryAct} (hok : s.Unswapped act)
    (hs : s.step act = some s') : SignedInv s' := by
  cases act with
  | registerBuiltin engineId factory =>
    simp only [Registry.step] at hs
    split at hs
    · cases hs
      unfold Registry.registerBuiltin
      split
      · exact ⟨h.required, h.checked, h.image⟩
      · dsimp only
        split
        · exact ⟨h.required, h.checked, h.image⟩
        · split
          · exact ⟨h.required, h.checked, h.image⟩
          · exact ⟨h.required, h.checked, h.image⟩
    · cases hs
  | create engineId made => exact h.create hs
  | dropEngine engine => exact h.dropEngine hs
  | check path => exact h.check hs
  | map path opens => exact h.map hs
  | inspect handle => exact h.inspect hs
  | register handle ids =>
    simp only [Registry.step] at hs
    split at hs
    · cases hs
      exact h.less rfl rfl rfl (fun _ => List.mem_of_mem_erase) fun _ _ => id
    · cases hs
  | replace path file =>
    cases hs
    have hfree : Load.checked path ∉ s.loads := of_decide_eq_true hok
    refine ⟨h.required, fun path' hp => ?_, h.image⟩
    have hne : path' ≠ path := fun heq => hfree (heq ▸ hp)
    exact (congrArg File.signed (Function.update_of_ne hne _ _)).trans (h.checked path' hp)
  | destroy => exact h.destroy hs

end SignedInv

/-- Where signatures are required and no file is written between its check and its loading,
all the code that is in the process was signed. -/
theorem only_signed_code {files : String → File} {acts : List RegistryAct} {s : Registry}
    (hok : RunMeets Registry.step Registry.Unswapped (registry true files) acts)
    (h : run Registry.step (registry true files) acts = some s) :
    ∀ handle path, s.handles handle = some path → (s.image path).signed = true := by
  have hinit : SignedInv (registry true files) := ⟨rfl, fun _ hp => (List.not_mem_nil hp).elim, fun _ _ => nofun⟩
  exact (run_invariant (fun _ _ _ h hok hs => SignedInv.step h hok hs) hinit hok h).image

theorem only_signed_code_loadedTwice :
    ∃ s, run Registry.step (registry true wireguard) loadedTwice = some s ∧
      ∀ handle path, s.handles handle = some path → (s.image path).signed = true :=
  ⟨_, rfl, @only_signed_code wireguard loadedTwice _ (by decide) rfl⟩

/-! ## Which engine -/

/-- The first built-in that was registered for the key. -/
def builtinOf (history : List Entry) (key : List Char) : Option Nat :=
  history.reverse.findSome? fun entry =>
    match entry with
    | .builtin k factory => if k = key then some factory else none
    | .plugin _ _ => none

/-- The last plugin that named the key. -/
def pluginOf (history : List Entry) (key : List Char) : Option Nat :=
  history.findSome? fun entry =>
    match entry with
    | .builtin _ _ => none
    | .plugin handle keys => if key ∈ keys then some handle else none

/-- Where the engine of a key comes from. -/
def sourceOf (history : List Entry) (key : List Char) : Option Source :=
  match builtinOf history key with
  | some factory => some (.builtin factory)
  | none => (pluginOf history key).map .plugin

/-- The maps give what the registrations say. -/
structure HistoryInv (s : Registry) : Prop where
  builtins : ∀ key, s.builtins key = builtinOf s.history key
  plugins : ∀ key, s.builtins key = none → s.pluginEngines key = pluginOf s.history key

namespace HistoryInv

variable {s s' : Registry}

theorem registerBuiltin (h : HistoryInv s) (engineId : String) (factory : Option Nat) :
    HistoryInv (s.registerBuiltin engineId factory).2 := by
  unfold Registry.registerBuiltin
  split
  · exact h
  next factory =>
  dsimp only
  split
  · exact h
  split
  · exact h
  next hnew =>
  have hnew := Option.not_isSome_iff_eq_none.mp hnew
  have hbuiltin : ∀ key', builtinOf (.builtin (Str.toLower engineId.toList) factory :: s.history) key' =
      (builtinOf s.history key').or
        (if Str.toLower engineId.toList = key' then some factory else none) := by
    intro key'
    simp only [builtinOf, List.reverse_cons, List.findSome?_append, List.findSome?_cons,
      List.findSome?_nil]
    split <;> simp_all
  have hold := (h.builtins _).symm.trans hnew
  refine ⟨fun key' => ?_, fun key' hkey' => ?_⟩
  · rw [hbuiltin]
    by_cases hk : Str.toLower engineId.toList = key'
    · subst hk
      rw [hold, if_pos rfl, Option.none_or]
      exact Function.update_self _ _ _
    · rw [if_neg hk, Option.or_none, ← h.builtins]
      exact Function.update_of_ne (Ne.symm hk) _ _
  · change Function.update s.builtins _ _ key' = none at hkey'
    by_cases hk : key' = Str.toLower engineId.toList
    · rw [hk, Function.update_self] at hkey'
      cases hkey'
    · rw [Function.update_of_ne hk] at hkey'
      exact h.plugins key' hkey'

/-- What the plugin is entered for, of the keys that no built-in has. -/
theorem advertise_apply {handle : Nat} {key : List Char} (hkey : s.builtins key = none)
    (keys : List (List Char)) :
    s.advertise handle keys key = if key ∈ keys then some handle else s.pluginEngines key := by
  have hfold : ∀ (keys : List (List Char)) (engines : List Char → Option Nat),
      keys.foldl (fun engines key =>
        if (s.builtins key).isSome then engines else Function.update engines key (some handle))
        engines key = if key ∈ keys then some handle else engines key := by
    intro keys
    induction keys with
    | nil => exact fun _ => rfl
    | cons key' keys ih =>
      intro engines
      rw [List.foldl_cons, ih]
      by_cases hk : key = key'
      · subst hk
        simp [hkey]
      · have hmem : key ∈ key' :: keys ↔ key ∈ keys := by simp [hk]
        simp only [hmem]
        congr 1
        split
        · rfl
        · exact Function.update_of_ne hk _ _
  exact hfold keys s.pluginEngines

theorem register (h : HistoryInv s) (handle : Nat) (ids : List Char) :
    HistoryInv (s.register handle ids) := by
  refine ⟨fun key => ?_, fun key hkey => ?_⟩
  · show s.builtins key = _
    rw [h.builtins, builtinOf, builtinOf]
    show _ = (Entry.plugin handle (keysOf ids) :: s.history).reverse.findSome? _
    rw [List.reverse_cons, List.findSome?_append]
    exact Option.or_none.symm
  · have hkey : s.builtins key = none := hkey
    show s.advertise handle (keysOf ids) key = pluginOf (.plugin handle (keysOf ids) :: s.history) key
    rw [advertise_apply hkey, h.plugins key hkey]
    simp only [pluginOf, List.findSome?_cons]
    split <;> simp_all

theorem step (h : HistoryInv s) {act : RegistryAct} (hs : s.step act = some s') : HistoryInv s' := by
  have hsame : ∀ s₁ : Registry, s₁.builtins = s.builtins → s₁.pluginEngines = s.pluginEngines →
      s₁.history = s.history → HistoryInv s₁ := fun s₁ hb hp hh =>
    ⟨by rw [hb, hh]; exact h.builtins, by rw [hb, hp, hh]; exact h.plugins⟩
  cases act with
  | registerBuiltin engineId factory =>
    simp only [Registry.step] at hs
    split at hs
    · cases hs
      exact h.registerBuiltin engineId factory
    · cases hs
  | create engineId made =>
    simp only [Registry.step] at hs
    split at hs
    · cases hs
      unfold Registry.create
      dsimp only
      split
      · split <;> exact hsame _ rfl rfl rfl
      · split
        · split
          · split <;> exact hsame _ rfl rfl rfl
          · exact h
        · exact h
    · cases hs
  | dropEngine engine =>
    simp only [Registry.step] at hs
    split at hs
    · cases hs
      cases engine with
      | builtin factory => exact hsame _ rfl rfl rfl
      | plugin handle =>
        simp only [Registry.dropEngine]
        split <;> exact hsame _ rfl rfl rfl
    · cases hs
  | check path =>
    simp only [Registry.step] at hs
    split at hs
    · split at hs <;> cases hs <;> exact hsame _ rfl rfl rfl
    · cases hs
  | map path opens =>
    simp only [Registry.step] at hs
    split at hs
    · cases hs
      split <;> exact hsame _ rfl rfl rfl
    · cases hs
  | inspect handle =>
    simp only [Registry.step] at hs
    split at hs
    · split at hs
      · cases hs
        exact hsame _ rfl rfl rfl
      · split at hs <;> cases hs <;> exact hsame _ rfl rfl rfl
    · cases hs
  | register handle ids =>
    simp only [Registry.step] at hs
    split at hs
    · cases hs
      exact (hsame { s with loads := s.loads.erase (.inspected handle ids) } rfl rfl rfl).register
        handle ids
    · cases hs
  | replace path file =>
    cases hs
    exact hsame _ rfl rfl rfl
  | destroy =>
    simp only [Registry.step] at hs
    split at hs
    · cases hs
      exact hsame _ rfl rfl rfl
    · cases hs

end HistoryInv

/-- After any run, `create` makes the engine of the first built-in that was registered for
the id, and if there is none that of the last plugin that named it. -/
theorem create_from_history (requireSigned : Bool) (files : String → File)
    {acts : List RegistryAct} {s : Registry}
    (h : run Registry.step (registry requireSigned files) acts = some s) (halive : s.alive = true)
    (engineId : String) :
    (s.create engineId true).1 =
      match sourceOf s.history (Str.toLower engineId.toList) with
      | some source => .ok source
      | none => .error (Err.make .notFound ("no engine registered for '" ++ engineId ++ "'")) := by
  have hmodules := (run_invariant' (fun _ _ _ h hs => RegistryInv.step h hs)
    (RegistryInv.init requireSigned files) h).modules
  have hhistory : HistoryInv s :=
    run_invariant' (fun _ _ _ h hs => HistoryInv.step h hs) ⟨fun _ => rfl, fun _ _ => rfl⟩ h
  unfold Registry.create sourceOf
  dsimp only
  rw [← hhistory.builtins]
  cases hb : s.builtins (Str.toLower engineId.toList) with
  | some factory => rfl
  | none =>
    simp only [← hhistory.plugins _ hb]
    cases hp : s.pluginEngines (Str.toLower engineId.toList) with
    | none => rfl
    | some handle =>
      have hheld : s.held handle = true := by
        simp [Registry.held, hmodules.found halive _ _ hp]
      simp only [hheld, if_true]
      rfl

/-- Two plugins for the same engines, and a built-in that comes after them. -/
def builtinLast : List RegistryAct :=
  [.check "a.dll", .map "a.dll" true, .check "b.dll", .map "b.dll" true, .inspect 1, .inspect 0,
    .register 1 ['W', 'g', ',', ' ', 's', 's'], .register 0 ['W', 'g', ',', ' ', 's', 's'],
    .registerBuiltin "SS" (some 5)]

theorem create_from_history_builtinLast :
    ∃ s, run Registry.step (registry false wireguard) builtinLast = some s ∧
      (s.create "wg" true).1 = .ok (.plugin 0) ∧ (s.create "ss" true).1 = .ok (.builtin 5) :=
  ⟨_, rfl, @create_from_history false wireguard builtinLast _ rfl rfl "wg",
    @create_from_history false wireguard builtinLast _ rfl rfl "ss"⟩

end NovaVpn.Plugins
