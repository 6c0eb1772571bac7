import NovaVpn.Core.Json

/-!
# The configuration store

`Core/Config.cpp`. A store holds the compiled-in defaults and the effective
document, which a file and overlays change by `json::merge`; what it saves is
the delta of the two.

Merging and the delta both work field by field: `field_merge_eq_iff` says
when an overlay leaves a field of the document as it is, and
`field_computeDelta` that a field of the delta depends on that field of the
document only.
-/

namespace NovaVpn

namespace Json

/-! ## The delta -/

mutual

/-- `computeDelta`. -/
def computeDelta (defaults effective : Json) : Json :=
  match effective with
  | .obj es =>
    match defaults with
    | .obj ds => .obj (deltaFields ds es [])
    | _ => .obj es
  | other => other
termination_by structural effective

/-- The loop over the fields of the effective document. -/
def deltaFields (defaults effective delta : List (String × Json)) : List (String × Json) :=
  match effective with
  | [] => delta
  | f :: fs =>
    match deltaField defaults f with
    | some value => deltaFields defaults fs (insertField f.1 value delta)
    | none => deltaFields defaults fs delta
termination_by structural effective

/-- What the delta holds for one field, if anything. -/
def deltaField (defaults : List (String × Json)) (f : String × Json) : Option Json :=
  match f with
  | (key, value) =>
    match defaults.lookup key with
    | none => some value
    | some base =>
      if value.isObject && base.isObject then
        if (computeDelta base value).isEmpty then none else some (computeDelta base value)
      else if value.equals base then none
      else some value
termination_by structural f

end

/-- One round of the loop. -/
theorem deltaFields_cons (defaults : List (String × Json)) (key : String) (value : Json)
    (fs delta : List (String × Json)) :
    deltaFields defaults ((key, value) :: fs) delta = deltaFields defaults fs
      (match deltaField defaults (key, value) with
        | some d => insertField key d delta
        | none => delta) := by
  rw [deltaFields]
  cases deltaField defaults (key, value) <;> rfl

theorem lookup_deltaFields_of_notMem {key : String}
    {defaults effective delta : List (String × Json)} (h : key ∉ effective.map (·.1)) :
    (deltaFields defaults effective delta).lookup key = delta.lookup key := by
  induction effective generalizing delta with
  | nil => rw [deltaFields]
  | cons f fs ih =>
    obtain ⟨k, v⟩ := f
    rw [List.map_cons, List.mem_cons, not_or] at h
    rw [deltaFields_cons, ih h.2]
    cases deltaField defaults (k, v) with
    | none => rfl
    | some d => exact lookup_insertField_ne h.1 d delta

theorem lookup_deltaFields {key : String} {defaults effective delta : List (String × Json)}
    (h : (effective.map (·.1)).Nodup) (hd : delta.lookup key = none) :
    (deltaFields defaults effective delta).lookup key =
      (effective.lookup key).bind fun value => deltaField defaults (key, value) := by
  induction effective generalizing delta with
  | nil => rwa [deltaFields]
  | cons f fs ih =>
    obtain ⟨k, v⟩ := f
    rw [List.map_cons, List.nodup_cons] at h
    rw [deltaFields_cons, List.lookup_cons]
    by_cases hk : key = k
    · subst hk
      rw [lookup_deltaFields_of_notMem h.1, beq_self_eq_true, Option.bind_some]
      cases deltaField defaults (key, v) with
      | none => exact hd
      | some d => exact lookup_insertField_self key d delta
    · rw [beq_eq_false_iff_ne.mpr hk]
      refine ih h.2 ?_
      cases deltaField defaults (k, v) with
      | none => exact hd
      | some d => exact (lookup_insertField_ne hk d delta).trans hd

/-- A field of the delta, from that field of the document. -/
theorem field_computeDelta (defaults : Json) {effective : Json} (h : Ordered effective)
    (key : String) :
    (computeDelta defaults effective).field key = (effective.field key).bind fun value =>
      if defaults.isObject then deltaField defaults.fields (key, value) else some value := by
  cases effective with
  | obj es =>
    cases defaults with
    | obj ds =>
      rw [computeDelta]
      exact lookup_deltaFields h.fields.nodup rfl
    | _ => exact (Option.bind_fun_some _).symm
  | _ => rfl

theorem field_merge {base overlay : Json} (ho : Ordered overlay) (h : overlay.isObject = true)
    (key : String) :
    (merge base overlay).field key =
      match overlay.field key with
      | some value => some (mergedField (base.field key) value)
      | none => base.field key := by
  cases overlay with
  | obj os =>
    cases base with
    | obj bs =>
      rw [merge]
      exact lookup_mergeFields ho.fields.nodup key
    | _ =>
      show os.lookup key = _
      cases hl : os.lookup key <;> simp only [field, fields, hl] <;> rfl
  | _ => cases h

/-- An overlay lacks the key, or what it has under it is there already. -/
def Restates (base overlay : Json) (key : String) : Prop :=
  ∀ value, overlay.field key = some value →
    ∃ current, base.field key = some current ∧ merge current value = current

/-- Merging leaves a field as it is if, and only if, the overlay restates
it. -/
theorem field_merge_eq_iff {base overlay : Json} (ho : Ordered overlay)
    (h : overlay.isObject = true) (key : String) :
    (merge base overlay).field key = base.field key ↔ Restates base overlay key := by
  rw [field_merge ho h]
  unfold Restates
  cases overlay.field key with
  | none => simp
  | some value =>
    cases base.field key with
    | none => simp
    | some current => simp [mergedField]

/-- What does not restate a field is an object, with that field. -/
theorem isObject_of_not_restates {base overlay : Json} {key : String}
    (h : ¬ Restates base overlay key) : overlay.isObject = true := by
  cases overlay with
  | obj os => rfl
  | _ => exact absurd (fun _ hv => by cases hv) h

mutual

theorem Ordered.computeDelta (effective : Json) (defaults : Json) (he : Ordered effective) :
    Ordered (Json.computeDelta defaults effective) := by
  match effective with
  | .obj es =>
    cases defaults with
    | obj ds =>
      have h := OrderedFields.deltaFields es ds he.fields .nil
      rw [Json.computeDelta]
      exact .obj h.keys h.values
    | _ => exact he
  | .null => exact he
  | .bool _ => exact he
  | .int _ => exact he
  | .float _ => exact he
  | .str _ => exact he
  | .arr _ => exact he
termination_by structural effective

theorem OrderedFields.deltaFields (effective : List (String × Json))
    (defaults : List (String × Json)) {delta : List (String × Json)}
    (he : OrderedFields effective) (hd : OrderedFields delta) :
    OrderedFields (Json.deltaFields defaults effective delta) := by
  match effective with
  | [] => exact hd
  | f :: fs =>
    have hfs : OrderedFields fs :=
      ⟨he.keys.tail, fun g hg => he.values g (List.mem_cons_of_mem _ hg)⟩
    have hf := OrderedFields.deltaField f defaults (he.values f List.mem_cons_self)
    rw [Json.deltaFields]
    cases hv : Json.deltaField defaults f with
    | none => exact OrderedFields.deltaFields fs defaults hfs hd
    | some value =>
      exact OrderedFields.deltaFields fs defaults hfs (hd.insertField f.1 (hf value hv))
termination_by structural effective

theorem OrderedFields.deltaField (f : String × Json) (defaults : List (String × Json))
    (hf : Ordered f.2) (value : Json) (hv : Json.deltaField defaults f = some value) :
    Ordered value := by
  match f with
  | (key, v) =>
    have hnested := fun base => Ordered.computeDelta v base hf
    rw [Json.deltaField] at hv
    split at hv
    · cases hv
      exact hf
    · split at hv
      · split at hv
        · cases hv
        · cases hv
          exact hnested _
      · split at hv
        · cases hv
        · cases hv
          exact hf
termination_by structural f

end

end Json

namespace Doc

def computeDelta (defaults effective : Doc) : Doc :=
  ⟨defaults.value.computeDelta effective.value, .computeDelta _ _ effective.ordered⟩

end Doc

/-! ## The store -/

structure ConfigStore where
  defaults : Doc
  effective : Doc := defaults

namespace ConfigStore

/-- `load`, of what the file comes to: nothing if there is none. -/
def load (store : ConfigStore) : Option (Result Doc) → Status × ConfigStore
  | none => (.ok, { store with effective := store.defaults })
  | some (.error status) =>
    (status.withContext "configuration reset to defaults",
      { store with effective := store.defaults })
  | some (.ok parsed) => (.ok, { store with effective := store.defaults.merge parsed })

/-- What `save` writes. -/
def delta (store : ConfigStore) : Doc := store.defaults.computeDelta store.effective

def snapshot (store : ConfigStore) : Doc := store.effective

/-- The loop of `apply` over the keys of the overlay: the pointers to notify.
A key is made into a pointer unescaped, so one with a `/` or a `~` in it
points elsewhere or throws. -/
def changedPointers (effective : Json) : List (String × Json) → Json.Throws (List String)
  | [] => .ok []
  | (key, value) :: rest =>
    match Json.parsePointer ("/" ++ key) with
    | none => .error ()
    | some tokens => do
      let changed :=
        match ← Json.find tokens effective with
        | none => true
        | some current => !(current.merge value).equals current
      let others ← changedPointers effective rest
      .ok (if changed then ("/" ++ key) :: others else others)

/-- `apply`: the store and the pointers notified. Nothing is merged if the
loop throws. -/
def apply (store : ConfigStore) (overlay : Doc) : Json.Throws (Result (ConfigStore × List String)) :=
  if !overlay.value.isObject then
    .ok (.error (Err.invalidArgument "configuration overlay must be a JSON object"))
  else do
    let changed ← changedPointers store.effective.value overlay.value.fields
    .ok (.ok ({ store with effective := store.effective.merge overlay }, changed))

/-- `set`: the status, the store and the pointers notified. -/
def set (store : ConfigStore) (pointer : String) (value : Doc) (what : String) :
    Status × ConfigStore × List String :=
  let set := store.effective.value.set pointer value.value what
  let effective := ⟨set.1, .set value.ordered store.effective.ordered pointer what⟩
  (set.2, { store with effective }, if set.2.isOk then [pointer] else [])

/-- `reset`: the store, and the status and the pointers notified unless it
throws. The assignment may throw half way. -/
def reset (store : ConfigStore) (pointer : String) :
    ConfigStore × Json.Throws (Status × List String) :=
  match Json.parsePointer pointer with
  | none => (store, .error ())
  | some tokens =>
    match hf : Json.find tokens store.defaults.value with
    | .error () => (store, .error ())
    | .ok none => (store, .ok (Err.notFound ("no default exists for " ++ pointer), []))
    | .ok (some value) =>
      let value : Doc := ⟨value, store.defaults.ordered.find hf⟩
      ({ store with effective := .place tokens value store.effective },
        if (Json.place tokens value.value store.effective.value).2 then .ok (.ok, [pointer])
        else .error ())

theorem apply_eq_ok {store store' : ConfigStore} {overlay : Doc} {changed : List String}
    (h : store.apply overlay = .ok (.ok (store', changed))) :
    overlay.value.isObject = true ∧
      changedPointers store.effective.value overlay.value.fields = .ok changed ∧
      store' = { store with effective := store.effective.merge overlay } := by
  unfold apply at h
  split at h
  · cases h
  · next hobj =>
    cases hc : changedPointers store.effective.value overlay.value.fields with
    | error e =>
      rw [hc] at h
      cases h
    | ok pointers =>
      rw [hc] at h
      cases h
      exact ⟨by simpa using hobj, rfl, rfl⟩

theorem apply_of_object {store : ConfigStore} {overlay : Doc} (hobj : overlay.value.isObject = true)
    {changed : List String}
    (hc : changedPointers store.effective.value overlay.value.fields = .ok changed) :
    store.apply overlay =
      .ok (.ok ({ store with effective := store.effective.merge overlay }, changed)) := by
  rw [apply, hobj, hc]
  rfl

/-! ## Calls -/

/-- A call that changes the document, with what it gets from outside: what
the file comes to, the text of an exception. -/
inductive Call where
  | load (file : Option (Result Doc))
  | set (pointer : String) (value : Doc) (what : String)
  | apply (overlay : Doc)
  | reset (pointer : String)

/-- The store after a call. -/
def call (store : ConfigStore) : Call → ConfigStore
  | .load file => (store.load file).2
  | .set pointer value what => (store.set pointer value what).2.1
  | .apply overlay =>
    match store.apply overlay with
    | .ok (.ok (store', _)) => store'
    | _ => store
  | .reset pointer => (store.reset pointer).1

/-- The store after a sequence of calls. -/
def calls (store : ConfigStore) (cs : List Call) : ConfigStore := cs.foldl call store

theorem call_defaults (store : ConfigStore) (c : Call) : (store.call c).defaults = store.defaults := by
  cases c with
  | load file =>
    cases file with
    | none => rfl
    | some r => cases r <;> rfl
  | set pointer value what => rfl
  | apply overlay =>
    rw [call]
    split
    · next store' changed h => rw [(apply_eq_ok h).2.2]
    · rfl
  | reset pointer =>
    rw [call]
    unfold reset
    split
    · rfl
    · split <;> rfl

theorem calls_defaults (store : ConfigStore) (cs : List Call) :
    (store.calls cs).defaults = store.defaults := by
  induction cs generalizing store with
  | nil => rfl
  | cons c cs ih => exact (ih (store.call c)).trans (call_defaults store c)

/-- A field of the delta depends on the defaults and that field only. -/
theorem delta_field_congr {a b : ConfigStore} (hd : a.defaults = b.defaults) {key : String}
    (he : a.effective.field key = b.effective.field key) :
    a.delta.field key = b.delta.field key := by
  have ha := Json.field_computeDelta a.defaults.value a.effective.ordered key
  have hb := Json.field_computeDelta b.defaults.value b.effective.ordered key
  have he' : a.effective.value.field key = b.effective.value.field key := he
  rw [← hd, ← he'] at hb
  exact ha.trans (hb.symm.trans (by rw [hd]; rfl))

end ConfigStore

/-- `serviceConfigDefaults`. -/
def serviceConfigDefaults : Doc := .ofFields
  [("schema", .int 1),
    ("service", .ofFields
      [("logLevel", .str "info"), ("logRetentionDays", .int 14),
        ("maxLogFileBytes", .int (16 * 1024 * 1024)), ("ipcPipeName", .str "NovaVPN.Service"),
        ("allowMultipleTunnels", .bool true), ("maxConcurrentTunnels", .int 4)]),
    ("connection", .ofFields
      [("autoReconnect", .bool true), ("reconnectInitialDelayMs", .int 1000),
        ("reconnectMaxDelayMs", .int 60000), ("reconnectMaxAttempts", .int 0),
        ("handshakeTimeoutMs", .int 30000), ("connectTimeoutMs", .int 60000), ("mtu", .int 1500),
        ("mtuAutoProbe", .bool true)]),
    ("dns", .ofFields
      [("leakProtection", .bool true), ("mode", .str "tunnel"), ("servers", .array),
        ("dohEnabled", .bool false), ("dohTemplate", .str ""), ("dotEnabled", .bool false),
        ("dotHost", .str ""), ("blockIpv6Dns", .bool true)]),
    ("firewall", .ofFields
      [("killSwitch", .str "soft"), ("blockIpv6", .bool true), ("blockLan", .bool false),
        ("allowDhcp", .bool true), ("allowLoopback", .bool true),
        ("persistAcrossReboot", .bool true)]),
    ("splitTunnel", .ofFields
      [("enabled", .bool false), ("mode", .str "include"), ("applications", .array),
        ("domainRules", .array), ("ipRules", .array)]),
    ("update", .ofFields
      [("channel", .str "stable"), ("automatic", .bool true), ("checkIntervalHours", .int 24),
        ("feedUrl", .str ""), ("requireSignature", .bool true)]),
    ("diagnostics", .ofFields
      [("debugMode", .bool false), ("redactLogs", .bool true), ("crashReports", .bool false)])]

end NovaVpn
