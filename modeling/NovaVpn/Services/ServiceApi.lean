import NovaVpn.Core.Config
import NovaVpn.Services.IpcServer

/-!
# The handlers of the service

`Services/ServiceApi.cpp`, seen from callers that are not administrators: the
requests of any connections, one after another, go through `dispatch` to the
handlers `registerServiceApi` installs. The two handlers that hold the
settings store are modelled; the others capture other subsystems only, and
are a parameter on the state of those.

The machine's policy is four sections of the settings. SetSettings is not
gated and merges whatever it is given, so a request that names a section can
change it (`policy_changed_by_user`). `policy_kept`: the sections stay in
every run in which each SetSettings that reaches the store restates what the
sections hold, or does not name them. A save that fails may take the file with
it, whatever is saved (`FileUtil.writeAtomicBytes_leaves`); the next service
then starts from the defaults.
-/

namespace NovaVpn.ServiceApi

open NovaVpn.Framework NovaVpn.Ipc

/-- Which of the subsystems the handlers ask for are there. -/
structure ServiceApiDeps where
  profiles : Bool := false
  tunnels : Bool := false
  credentials : Bool := false
  settings : Bool := false
  processes : Bool := false
  leakTester : Bool := false
  logRing : Bool := false

/-- The methods with a handler. -/
def registered : List Method :=
  [.listProfiles, .getProfile, .importOvpn, .deleteProfile, .setProfileFavorite,
    .setProfileCredentials, .renameProfile, .connect, .disconnect, .disconnectAll, .getTunnels,
    .reconnect, .getSettings, .setSettings, .listInstalledApps, .listProcesses, .runLeakTest,
    .getLogs, .getServiceInfo]

/-- The subsystems a handler is guarded by. -/
def ServiceApiDeps.available (deps : ServiceApiDeps) : Method → Bool
  | .listProfiles | .getProfile | .importOvpn | .deleteProfile | .setProfileFavorite
  | .renameProfile => deps.profiles
  | .setProfileCredentials => deps.profiles && deps.credentials
  | .connect => deps.tunnels && deps.profiles
  | .disconnect | .disconnectAll | .getTunnels | .reconnect => deps.tunnels
  | .getSettings | .setSettings => deps.settings
  | .listInstalledApps | .listProcesses => deps.processes
  | .runLeakTest => deps.leakTester
  | .getLogs => deps.logRing
  | _ => true

structure RequestContext where
  request : Request
  callerIsAdministrator : Bool
  connectionId : Nat

/-- The settings store, the file it saves to, and the other subsystems. -/
structure Service (σ : Type) where
  settings : ConfigStore
  file : Option Doc := none
  others : σ

variable {σ : Type}

/-- A handler; one that throws ends the process. -/
abbrev Handler (σ : Type) := RequestContext → Service σ → Json.Throws (Response × Service σ)

def guarded (available : Bool) (fn : Handler σ) : Handler σ := fun ctx s =>
  if available then fn ctx s
  else .ok (makeError ctx.request.id (Err.make .unavailable "subsystem not available"), s)

def getSettings : Handler σ := fun ctx s =>
  .ok (makeSuccess ctx.request.id s.settings.snapshot.value, s)

/-- What a save does to the file. -/
inductive FileSave where
  | written
  /-- It fails, and the file is as it was. -/
  | kept
  /-- It fails, and there is no file any more. -/
  | lost
  deriving DecidableEq

def FileSave.file (old : Option Doc) (delta : Doc) : FileSave → Option Doc
  | .written => some delta
  | .kept => old
  | .lost => none

/-- The status of the save is not looked at. -/
def setSettings (save : FileSave) : Handler σ := fun ctx s => do
  match ← s.settings.apply ctx.request.params with
  | .error applied => .ok (makeError ctx.request.id applied, s)
  | .ok (settings, _) =>
    .ok (makeSuccess ctx.request.id settings.snapshot.value,
      { s with settings, file := save.file s.file settings.delta })

/-- The handlers that do not hold the settings store. -/
abbrev Others (σ : Type) := Method → RequestContext → σ → Json.Throws (Response × σ)

def handler (deps : ServiceApiDeps) (others : Others σ) (save : FileSave) (method : Method) :
    Handler σ :=
  guarded (deps.available method) <|
    match method with
    | .getSettings => getSettings
    | .setSettings => setSettings save
    | method => fun ctx s => do
      let (response, o) ← others method ctx s.others
      .ok (response, { s with others := o })

/-! ## Requests of users -/

/-- The service with the hello flags of the connections. -/
structure Host (σ : Type) where
  service : Service σ
  helloDone : Nat → Bool := fun _ => false
  terminated : Bool := false

/-- One request; the caller is not an administrator. -/
structure UserRequest where
  connectionId : Nat
  request : Request
  uptimeSeconds : Int := 0
  save : FileSave := .written

def step (deps : ServiceApiDeps) (version : String) (others : Others σ) (s : Host σ)
    (r : UserRequest) : Option (Host σ) :=
  if s.terminated then none
  else
    match dispatch registered version r.uptimeSeconds false (s.helloDone r.connectionId)
        r.request with
    | .respond _ done =>
      some { s with helloDone := Function.update s.helloDone r.connectionId done }
    | .invoke =>
      let ctx := { request := r.request
                   callerIsAdministrator := false
                   connectionId := r.connectionId }
      match handler deps others r.save r.request.method ctx s.service with
      | .error _ => some { s with terminated := true }
      | .ok (_, service) => some { s with service }

/-- The sections of the settings that are machine policy. -/
def policySections : List String := ["firewall", "dns", "splitTunnel", "update"]

/-- The file is as it was, or was saved with these sections; or, if a save may
have lost it, it is gone. -/
def FileKept (lost : Prop) (s s' : Service σ) : Prop :=
  s'.file = s.file ∨
    (∃ saved, s'.file = some saved ∧
      ∀ key ∈ policySections, saved.field key = s.settings.delta.field key) ∨
    (lost ∧ s'.file = none)

/-- The sections are the same, in the snapshot, in the delta the store would
save and in the file. -/
structure PolicyKept (lost : Prop) (s s' : Service σ) : Prop where
  snapshot : ∀ key ∈ policySections,
    s'.settings.snapshot.field key = s.settings.snapshot.field key
  delta : ∀ key ∈ policySections, s'.settings.delta.field key = s.settings.delta.field key
  file : FileKept lost s s'

/-- A request changes no section: a SetSettings that reaches the store
restates the sections it names. -/
def Harmless (deps : ServiceApiDeps) (s : Host σ) (r : UserRequest) : Prop :=
  r.request.method = .setSettings → s.helloDone r.connectionId = true → deps.settings = true →
  (ConfigStore.changedPointers s.service.settings.effective.value
    r.request.params.value.fields).isOk = true →
  ∀ key ∈ policySections,
    s.service.settings.effective.value.Restates r.request.params.value key

/-! ## The sections along a run -/

/-- The sections of `s` are those of `s₀`, where the run began. -/
structure SectionsInv (lost : Prop) (s₀ s : Service σ) : Prop where
  defaults : s.settings.defaults = s₀.settings.defaults
  sections : ∀ key ∈ policySections, s.settings.effective.field key = s₀.settings.effective.field key
  file : FileKept lost s₀ s

section Steps

variable {lost : Prop} {s₀ s s' : Service σ} {ctx : RequestContext} {response : Response}

theorem SectionsInv.delta (h : SectionsInv lost s₀ s) {key : String} (hkey : key ∈ policySections) :
    s.settings.delta.field key = s₀.settings.delta.field key :=
  ConfigStore.delta_field_congr h.defaults (h.sections key hkey)

theorem SectionsInv.kept (h : SectionsInv lost s₀ s) : PolicyKept lost s₀ s where
  snapshot := h.sections
  delta _ hkey := h.delta hkey
  file := h.file

theorem SectionsInv.congr (h : SectionsInv lost s₀ s) (hs : s'.settings = s.settings)
    (hf : s'.file = s.file) : SectionsInv lost s₀ s' where
  defaults := by rw [hs, h.defaults]
  sections key hkey := by rw [hs, h.sections key hkey]
  file := by
    rw [FileKept, hf]
    exact h.file

/-- What SetSettings comes to: nothing changes, or the params are merged and
the store is saved. -/
theorem setSettings_cases {save : FileSave} (hs : setSettings save ctx s = .ok (response, s')) :
    s' = s ∨ ∃ settings changed, s.settings.apply ctx.request.params = .ok (.ok (settings, changed)) ∧
      s' = { s with settings, file := save.file s.file settings.delta } := by
  unfold setSettings at hs
  cases ha : s.settings.apply ctx.request.params with
  | error e =>
    rw [ha] at hs
    cases hs
  | ok result =>
    rw [ha] at hs
    cases result with
    | error status =>
      cases hs
      exact .inl rfl
    | ok result =>
      cases hs
      exact .inr ⟨result.1, result.2, rfl, rfl⟩

/-- SetSettings throws exactly where the loop over the keys of the params does. -/
theorem setSettings_throws_iff {save : FileSave} :
    setSettings save ctx s = .error () ↔ ctx.request.params.value.isObject = true ∧
      ConfigStore.changedPointers s.settings.effective.value ctx.request.params.value.fields =
        .error () := by
  unfold setSettings ConfigStore.apply
  by_cases hobj : ctx.request.params.value.isObject = true
  · cases hc : ConfigStore.changedPointers s.settings.effective.value
        ctx.request.params.value.fields with
    | error e => exact iff_of_true (by simp [hobj]; rfl) ⟨hobj, rfl⟩
    | ok changed => exact iff_of_false (by simp [hobj]; nofun) nofun
  · exact iff_of_false (by simp [hobj]; nofun) fun h => hobj h.1

theorem SectionsInv.setSettings (h : SectionsInv lost s₀ s) {save : FileSave} (hl : save = .lost → lost)
    (hok : ∀ changed, ConfigStore.changedPointers s.settings.effective.value
        ctx.request.params.value.fields = .ok changed →
      ∀ key ∈ policySections,
        s.settings.effective.value.Restates ctx.request.params.value key)
    (hs : setSettings save ctx s = .ok (response, s')) : SectionsInv lost s₀ s' := by
  obtain rfl | ⟨settings, changed, ha, rfl⟩ := setSettings_cases hs
  · exact h
  obtain ⟨hobj, hchanged, rfl⟩ := ConfigStore.apply_eq_ok ha
  have hsections : ∀ key ∈ policySections,
      (s.settings.effective.merge ctx.request.params).field key =
        s₀.settings.effective.field key := by
    intro key hkey
    have hm := (Json.field_merge_eq_iff ctx.request.params.ordered hobj key).mpr
      (hok changed hchanged key hkey)
    exact Eq.trans hm (h.sections key hkey)
  refine ⟨h.defaults, hsections, ?_⟩
  cases save with
  | kept => exact h.file
  | lost => exact .inr (.inr ⟨hl rfl, rfl⟩)
  | written =>
    refine .inr (.inl ⟨_, rfl, fun key hkey => ?_⟩)
    exact ConfigStore.delta_field_congr
      (a := { s.settings with effective := s.settings.effective.merge ctx.request.params })
      h.defaults (hsections key hkey)

/-- Only SetSettings touches the store and its file. -/
theorem handler_settings {deps : ServiceApiDeps} {others : Others σ} {save : FileSave}
    {method : Method} (hm : method ≠ .setSettings)
    (hs : handler deps others save method ctx s = .ok (response, s')) :
    s'.settings = s.settings ∧ s'.file = s.file := by
  unfold handler guarded at hs
  split at hs
  · split at hs
    · cases hs
      exact ⟨rfl, rfl⟩
    · exact absurd rfl hm
    · dsimp only at hs
      cases ho : others method ctx s.others with
      | error e =>
        rw [ho] at hs
        cases hs
      | ok result =>
        rw [ho] at hs
        cases hs
        exact ⟨rfl, rfl⟩
  · cases hs
    exact ⟨rfl, rfl⟩

theorem SectionsInv.step {deps : ServiceApiDeps} {version : String} {others : Others σ}
    {h h' : Host σ} {r : UserRequest} (hi : SectionsInv lost s₀ h.service) (hl : r.save = .lost → lost)
    (hok : Harmless deps h r) (hs : ServiceApi.step deps version others h r = some h') :
    SectionsInv lost s₀ h'.service := by
  unfold ServiceApi.step at hs
  split at hs
  · cases hs
  · split at hs
    · cases hs
      exact hi
    · next hdisp =>
      have hdone : h.helloDone r.connectionId = true := (dispatch_invoke hdisp).1
      dsimp only at hs
      split at hs
      · cases hs
        exact hi
      · next response service hh =>
        cases hs
        by_cases hm : r.request.method = .setSettings
        · rw [hm, handler] at hh
          unfold guarded at hh
          split at hh
          · next havail =>
            refine hi.setSettings hl (fun changed hc => ?_) hh
            exact hok hm hdone havail (by rw [hc]; rfl)
          · cases hh
            exact hi
        · obtain ⟨hset, hfile⟩ := handler_settings hm hh
          exact hi.congr hset hfile

end Steps

/-- The sections stay as they are in every run of harmless requests; the file is
gone at most if one of its saves lost it. -/
theorem policy_kept {deps : ServiceApiDeps} {version : String} {others : Others σ}
    {requests : List UserRequest} {h h' : Host σ}
    (hok : RunMeets (step deps version others) (Harmless deps) h requests)
    (hr : run (step deps version others) h requests = some h') :
    PolicyKept (∃ r ∈ requests, r.save = .lost) h.service h'.service := by
  have hinit : SectionsInv (∃ r ∈ requests, r.save = .lost) h.service h.service :=
    ⟨rfl, fun _ _ => rfl, .inl rfl⟩
  have hinv : SectionsInv (∃ r ∈ requests, r.save = .lost) h.service h'.service :=
    run_invariant (I := fun g => SectionsInv (∃ r ∈ requests, r.save = .lost) h.service g.service)
      (fun _ r _ hi hok hs => hi.step (fun hlost => ⟨r, hok.1, hlost⟩) hok.2 hs) hinit
      (runMeets_mem hok) hr
  exact hinv.kept

/-- A request that is not harmless changes a section at once. -/
theorem policy_changed_of_not_harmless {deps : ServiceApiDeps} {version : String}
    {others : Others σ} {h h' : Host σ} {r : UserRequest} (hbad : ¬ Harmless deps h r)
    (hs : step deps version others h r = some h') :
    ¬ PolicyKept (r.save = .lost) h.service h'.service := by
  simp only [Harmless, not_forall] at hbad
  obtain ⟨hm, hdone, havail, hchanged, key, hkey, hrest⟩ := hbad
  have hdisp : dispatch registered version r.uptimeSeconds false (h.helloDone r.connectionId)
      r.request = .invoke := by
    rw [dispatch, hdone, hm]
    rfl
  have hobj := Json.isObject_of_not_restates hrest
  cases hc : ConfigStore.changedPointers h.service.settings.effective.value
      r.request.params.value.fields with
  | error e =>
    rw [hc] at hchanged
    cases hchanged
  | ok changed =>
    have happly := ConfigStore.apply_of_object hobj hc
    rw [step, hdisp] at hs
    split at hs
    · cases hs
    · simp only [hm, handler, guarded, ServiceApiDeps.available, havail, if_true, setSettings,
        happly] at hs
      cases hs
      intro hkept
      exact hrest ((Json.field_merge_eq_iff r.request.params.ordered hobj key).mp
        (hkept.snapshot key hkey))

/-- The service after its installation. -/
def freshHost : Host Unit where
  service := { settings := { defaults := serviceConfigDefaults }, others := () }

/-- No subsystem but the settings. -/
def settingsOnly : ServiceApiDeps := { settings := true }

def noOthers : Others Unit := fun _ ctx s => .ok (makeError ctx.request.id {}, s)

def helloRequest : UserRequest := { connectionId := 1, request := { id := 1 } }

/-- A SetSettings on the same connection. -/
def settingsRequest (params : Doc) : UserRequest where
  connectionId := 1
  request := { id := 2, method := .setSettings, params }

-- A key that is no pointer ends the service.
example : setSettings .written ⟨(settingsRequest (.ofFields [("~", .int 1)])).request, false, 1⟩
    freshHost.service = .error () := rfl

/-- A settings page saved: a new log level, and the kill switch as it is. -/
def savePage : UserRequest := settingsRequest <| .ofFields
  [("firewall", .ofFields [("killSwitch", .str "soft")]),
    ("service", .ofFields [("logLevel", .str "debug")])]

theorem savePage_harmless {h : Host Unit} (hs : h.service = freshHost.service) :
    Harmless settingsOnly h savePage := by
  intro _ _ _ _ key hkey value hv
  rw [hs]
  simp only [policySections, List.mem_cons, List.not_mem_nil, or_false] at hkey
  rcases hkey with rfl | rfl | rfl | rfl
  · cases hv
    exact ⟨_, rfl, rfl⟩
  all_goals cases hv

theorem policy_kept_savePage : ∃ h', run (step settingsOnly "1.0.0" noOthers) freshHost
    [helloRequest, savePage] = some h' ∧
      PolicyKept (∃ r ∈ [helloRequest, savePage], r.save = .lost) freshHost.service h'.service := by
  have hok : RunMeets (step settingsOnly "1.0.0" noOthers) (Harmless settingsOnly) freshHost
      [helloRequest, savePage] := by
    refine ⟨nofun, fun h hs => ⟨savePage_harmless ?_, fun _ _ => trivial⟩⟩
    cases hs
    rfl
  exact ⟨_, rfl, policy_kept hok rfl⟩

/-- A user's request that turns the kill switch off. -/
def killSwitchOff : UserRequest := settingsRequest <| .ofFields
  [("firewall", .ofFields [("killSwitch", .str "off")])]

/-- It changes the section. -/
theorem policy_changed_by_user : ¬ ∀ requests h',
    run (step settingsOnly "1.0.0" noOthers) freshHost requests = some h' →
      PolicyKept (∃ r ∈ requests, r.save = .lost) freshHost.service h'.service := by
  intro h
  have hkept := h [helloRequest, killSwitchOff] _ rfl
  have hsection := hkept.snapshot "firewall" (by decide)
  have hswitch := congrArg (Option.map fun j => j.get "/killSwitch" Json.asString "") hsection
  exact absurd hswitch (by decide)

end NovaVpn.ServiceApi
