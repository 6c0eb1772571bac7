import NovaVpn.Framework.Updates
import NovaVpn.Profiles.OvpnItems

/-!
# What an item can do

The items of a configuration by what they do to the parser (`Effect`): a remote
is added with the defaults that are there, `proto`, `port` and `rport` set the
defaults, `cipher` and `data-ciphers` report the weak ciphers among their
arguments, and all others leave the remotes and the defaults alone and give no
warning about ciphers.
-/

namespace NovaVpn.Profiles

open NovaVpn.Framework

/-! ## Items by their arguments -/

namespace Item

/-- The arguments of a remote. -/
def remoteArgs : Item → List String
  | .directive keyword args => if keyword = "remote" then args else []
  | _ => []

/-- The protocol that a line sets for the remotes behind it. -/
def protoLine : Item → Option String
  | .directive keyword args => if keyword = "proto" then args.head? else none
  | _ => none

/-- The text of the port that a line sets for the remotes behind it. -/
def portLine : Item → Option String
  | .directive keyword args => if keyword = "port" ∨ keyword = "rport" then args.head? else none
  | _ => none

/-- The arguments of a directive that offers ciphers. -/
def cipherArgs : Item → List String
  | .directive keyword args => if keyword = "cipher" ∨ keyword = "data-ciphers" then args else []
  | _ => []

end Item

/-- A port as it is read. -/
def readPort (text : String) : UInt16 := (Str.strtoul text.toList).toUInt16

/-- The protocol of a remote without one. -/
def protoOf (protoDefault : String) : Transport :=
  if protoDefault.isEmpty then .udp else parseProto protoDefault

/-- The remote that the arguments of `remote` give. -/
def remoteOf (protoDefault : String) (portDefault : UInt16) (args : List String) :
    List RemoteEntry :=
  args.head?.toList.map fun host =>
    let port := (args[1]?).elim portDefault fun port => (Str.strtoul port.toList).toUInt16
    { host
      port := if port = 0 then portDefault else port
      transport := (args[2]?).elim (if protoDefault.isEmpty then .udp else parseProto protoDefault)
        parseProto }

theorem ParseState.remotes_applyRemote (s : ParseState) (args : List String) :
    (s.applyRemote args).profile.remotes =
      s.profile.remotes ++ remoteOf s.protoDefault s.portDefault args := by
  cases args with
  | nil => simp [applyRemote, remoteOf]
  | cons host rest =>
    cases rest with
    | nil => simp [applyRemote, remoteOf]
    | cons port rest =>
      cases rest <;> simp [applyRemote, remoteOf]

/-! ## What the other items do -/

/-- How the warnings begin that are not about ciphers. -/
def warningFronts : List String :=
  ["auth-user-pass referenced", "configuration enables", "private key referenced", "could not read",
    "an inline private key", "configuration has no CA"]

/-- The remotes and the defaults are as they were, and no cipher is reported. -/
structure Aside (s t : ParseState) : Prop where
  remotes : t.profile.remotes = s.profile.remotes
  protoDefault : t.protoDefault = s.protoDefault
  portDefault : t.portDefault = s.portDefault
  sawRemote : t.sawRemote = s.sawRemote
  warnings : ∃ added, t.report.warnings = s.report.warnings ++ added ∧
    ∀ w ∈ added, ∃ front ∈ warningFronts, front.toList <+: w.toList

namespace Aside

variable {s t : ParseState}

theorem of_eq (hremotes : t.profile.remotes = s.profile.remotes)
    (hproto : t.protoDefault = s.protoDefault) (hport : t.portDefault = s.portDefault)
    (hsaw : t.sawRemote = s.sawRemote) (hwarnings : t.report.warnings = s.report.warnings) :
    Aside s t :=
  ⟨hremotes, hproto, hport, hsaw, [], by rw [hwarnings, List.append_nil], by simp⟩

theorem refl (s : ParseState) : Aside s s := of_eq rfl rfl rfl rfl rfl

theorem warn (h : Aside s t) (front : String) {warning : String} (hmem : front ∈ warningFronts)
    (hfront : front.toList <+: warning.toList) : Aside s (t.warn warning) := by
  obtain ⟨added, hadded, hfronts⟩ := h.warnings
  refine ⟨h.remotes, h.protoDefault, h.portDefault, h.sawRemote, added ++ [warning], ?_,
    fun w hw => ?_⟩
  · rw [ParseState.warn, hadded, List.append_assoc]
  · rcases List.mem_append.mp hw with hw | hw
    · exact hfronts w hw
    · rw [List.mem_singleton.mp hw]
      exact ⟨front, hmem, hfront⟩

theorem ite {c : Prop} [Decidable c] {a b : ParseState} (ha : c → Aside s a)
    (hb : ¬ c → Aside s b) : Aside s (if c then a else b) := by
  split
  · exact ha ‹_›
  · exact hb ‹_›

end Aside

section Step

variable {files : SideFiles} {options : OvpnParseOptions} {key : String} {args : List String}

theorem aside_sideFile (s : ParseState) : Aside s (s.applySideFile files options key args) := by
  unfold ParseState.applySideFile
  split
  next => exact .refl s
  next reference rest =>
    split
    · exact (Aside.refl s).warn "private key referenced" (by decide) (by decide +kernel)
    · split
      next status hread =>
        refine (Aside.refl s).warn "could not read" (by decide) ?_
        simp only [String.toList_append, List.append_assoc]
        exact List.IsPrefix.trans (by decide) (List.prefix_append "could not read ".toList _)
      next content hread => split <;> exact .of_eq rfl rfl rfl rfl rfl

/-- A directive about something else. -/
theorem aside_known (hremote : key = "remote" → args = []) (hproto : key = "proto" → args = [])
    (hport : key = "port" ∨ key = "rport" → args = [])
    (hciphers : ¬ (key = "cipher" ∨ key = "data-ciphers")) (s : ParseState) :
    Aside s (s.applyKnown files options key args) := by
  unfold ParseState.applyKnown
  refine .ite (fun h => ?_) fun _ => .ite (fun h => ?_) fun _ => .ite (fun h => ?_) fun _ => ?_
  · rw [hremote h]
    exact .refl s
  · rw [hproto h]
    exact .refl s
  · rw [hport (by simpa using h)]
    exact .refl s
  refine .ite (fun _ => .of_eq rfl rfl rfl rfl rfl) fun _ => ?_
  -- `auth-user-pass`
  refine .ite (fun _ => .ite (fun _ => .of_eq rfl rfl rfl rfl rfl) fun _ => ?_) fun _ => ?_
  · exact (Aside.of_eq rfl rfl rfl rfl rfl : Aside s { s with sawAuthUserPass := true }).warn
      "auth-user-pass referenced" (by decide) (by decide +kernel)
  refine .ite (fun _ => .of_eq rfl rfl rfl rfl rfl) fun _ => ?_
  -- `mssfix` and `tun-mtu`
  refine .ite (fun _ => ?_) fun _ => ?_
  · cases args with
    | nil => exact .refl s
    | cons mtu rest => exact .ite (fun _ => .of_eq rfl rfl rfl rfl rfl) fun _ => .refl s
  -- `keepalive`
  refine .ite (fun _ => ?_) fun _ => ?_
  · obtain _ | ⟨a, _ | ⟨b, args⟩⟩ := args <;> exact .of_eq rfl rfl rfl rfl rfl
  refine .ite (fun h => absurd (by simpa using h) hciphers) fun _ => ?_
  -- `auth`
  refine .ite (fun _ => by cases args <;> exact .of_eq rfl rfl rfl rfl rfl) fun _ => ?_
  -- compression
  refine .ite (fun _ => ?_) fun _ => ?_
  · exact (Aside.of_eq rfl rfl rfl rfl rfl :
      Aside s (s.setOptions ({ · with allowCompression := true }))).warn "configuration enables"
        (by decide) (by decide +kernel)
  -- `verify-x509-name` and the wraps
  refine .ite (fun _ => by cases args <;> exact .of_eq rfl rfl rfl rfl rfl) fun _ => ?_
  refine .ite (fun _ => .of_eq rfl rfl rfl rfl rfl) fun _ => ?_
  refine .ite (fun _ => .of_eq rfl rfl rfl rfl rfl) fun _ => ?_
  refine .ite (fun _ => .of_eq rfl rfl rfl rfl rfl) fun _ => ?_
  -- the proxies
  refine .ite (fun _ => ?_) fun _ => .ite (fun _ => ?_) fun _ => ?_
  · obtain _ | ⟨a, _ | ⟨b, args⟩⟩ := args <;> exact .of_eq rfl rfl rfl rfl rfl
  · obtain _ | ⟨a, _ | ⟨b, args⟩⟩ := args <;> exact .of_eq rfl rfl rfl rfl rfl
  -- `ca`, `cert` and `key`
  exact .ite (fun _ => aside_sideFile s) fun _ => .of_eq rfl rfl rfl rfl rfl

theorem aside_block (tag body : List Char) (s : ParseState) : Aside s (s.applyBlock tag body) := by
  unfold ParseState.applyBlock
  refine .ite (fun _ => .of_eq rfl rfl rfl rfl rfl) fun _ => .ite (fun _ => .of_eq rfl rfl rfl rfl rfl) fun _ => ?_
  refine .ite (fun _ => ?_) fun _ => .ite (fun _ => .of_eq rfl rfl rfl rfl rfl) fun _ => ?_
  · have hset : Aside s (s.setCertificates ({ · with privateKeyTarget := "" })) :=
      .of_eq rfl rfl rfl rfl rfl
    have hfront : "an inline private key".toList <+:
        ("an inline private key was found; NovaVPN will move it into its secure " ++
          "store on import").toList := by
      decide +kernel
    have hwarn := hset.warn "an inline private key" (by decide) hfront
    exact ⟨hwarn.remotes, hwarn.protoDefault, hwarn.portDefault, hwarn.sawRemote, hwarn.warnings⟩
  · exact .ite (fun _ => .of_eq rfl rfl rfl rfl rfl) fun _ => .refl s

end Step

/-! ## The effect of an item -/

/-- What applying an item does. -/
inductive Effect (s : ParseState) : Item → ParseState → Prop
  | remote (host : String) (rest : List String) :
      Effect s (.directive "remote" (host :: rest)) (s.applyRemote (host :: rest))
  | proto (proto : String) (rest : List String) :
      Effect s (.directive "proto" (proto :: rest)) { s with protoDefault := proto }
  | port {key : String} (hkey : key = "port" ∨ key = "rport") (port : String) (rest : List String) :
      Effect s (.directive key (port :: rest)) { s with portDefault := readPort port }
  | ciphers {key : String} (hkey : key = "cipher" ∨ key = "data-ciphers") (args : List String) :
      Effect s (.directive key args) (s.applyCiphers args)
  | aside {item : Item} {t : ParseState} (h : Aside s t) (hremote : item.remoteArgs = [])
      (hproto : item.protoLine = none) (hport : item.portLine = none) (hciphers : item.cipherArgs = []) :
      Effect s item t

/-- Every item has one of the effects. -/
theorem effect_of_apply {files : SideFiles} {options : OvpnParseOptions} {s t : ParseState}
    {item : Item} (h : s.applyItem files options item = .ok t) : Effect s item t := by
  cases item with
  | unterminated tag => cases h
  | block tag body =>
    cases h
    exact .aside (aside_block tag body s) rfl rfl rfl rfl
  | directive key args =>
    replace h : s.applyDirective files options { keyword := key, args } = .ok t := h
    unfold ParseState.applyDirective at h
    split at h
    next hdangerous =>
      replace hdangerous : dangerousDirectives.contains key = true := hdangerous
      have hnone : ∀ key' : String, dangerousDirectives.contains key' = false → key ≠ key' := by
        rintro key' hsafe rfl
        exact absurd (hsafe.symm.trans hdangerous) (by decide)
      split at h
      · cases h
      · cases h
        refine .aside (.of_eq rfl rfl rfl rfl rfl) (if_neg (hnone _ (by decide)))
          (if_neg (hnone _ (by decide))) (if_neg ?_) (if_neg ?_)
        · exact not_or.mpr ⟨hnone _ (by decide), hnone _ (by decide)⟩
        · exact not_or.mpr ⟨hnone _ (by decide), hnone _ (by decide)⟩
    next =>
      cases h
      by_cases hremote : key = "remote" ∧ args ≠ []
      · obtain ⟨rfl, hargs⟩ := hremote
        obtain ⟨host, rest, rfl⟩ := List.exists_cons_of_ne_nil hargs
        exact .remote host rest
      by_cases hproto : key = "proto" ∧ args ≠ []
      · obtain ⟨rfl, hargs⟩ := hproto
        obtain ⟨proto, rest, rfl⟩ := List.exists_cons_of_ne_nil hargs
        exact .proto proto rest
      by_cases hport : (key = "port" ∨ key = "rport") ∧ args ≠ []
      · obtain ⟨hkey, hargs⟩ := hport
        obtain ⟨port, rest, rfl⟩ := List.exists_cons_of_ne_nil hargs
        have hknown : s.applyKnown files options key (port :: rest) =
            { s with portDefault := readPort port } := by
          rcases hkey with rfl | rfl <;> rfl
        rw [hknown]
        exact .port hkey port rest
      by_cases hciphers : key = "cipher" ∨ key = "data-ciphers"
      · have hknown : s.applyKnown files options key args = s.applyCiphers args := by
          rcases hciphers with rfl | rfl <;> rfl
        rw [hknown]
        exact .ciphers hciphers args
      have hnil {p : Prop} (h : ¬ (p ∧ args ≠ [])) (hp : p) : args = [] :=
        Decidable.not_not.mp fun hne => h ⟨hp, hne⟩
      refine .aside (aside_known (hnil hremote) (hnil hproto) (hnil hport) hciphers s) ?_ ?_ ?_
        (if_neg hciphers)
      · exact ite_eq_right_iff.mpr fun hkey => hnil hremote hkey
      · exact ite_eq_right_iff.mpr fun hkey => by rw [hnil hproto hkey]; rfl
      · exact ite_eq_right_iff.mpr fun hkey => by rw [hnil hport hkey]; rfl

/-- A list of warnings changes nothing but the report. -/
theorem warnAll_eq (warning : String → String) (l : List String) (s : ParseState) :
    ∃ report, l.foldl (fun s x => s.warn (warning x)) s = { s with report } := by
  induction l generalizing s with
  | nil => exact ⟨s.report, rfl⟩
  | cons x l ih =>
    obtain ⟨report, h⟩ := ih (s.warn (warning x))
    exact ⟨report, h⟩

theorem applyCiphers_eq (s : ParseState) (args : List String) :
    ∃ report options, s.applyCiphers args = { s with profile := { s.profile with options }, report } := by
  cases args with
  | nil => exact ⟨s.report, s.profile.options, rfl⟩
  | cons first rest =>
    obtain ⟨report, h⟩ := warnAll_eq (fun cipher => "configuration selects a weak cipher: " ++ cipher)
      ((first :: rest).filter isWeakCipher) (s.setOptions fun o => { o with cipherOverride := first })
    exact ⟨report, _, h⟩

/-- The remotes and the defaults after an item. -/
theorem Effect.defaults {s t : ParseState} {item : Item} (h : Effect s item t) :
    t.profile.remotes = s.profile.remotes ++ remoteOf s.protoDefault s.portDefault item.remoteArgs ∧
      t.protoDefault = item.protoLine.getD s.protoDefault ∧
      t.portDefault = (item.portLine.map readPort).getD s.portDefault ∧
      t.sawRemote = (s.sawRemote || !item.remoteArgs.isEmpty) := by
  have hnone : s.profile.remotes = s.profile.remotes ++ remoteOf s.protoDefault s.portDefault [] :=
    (List.append_nil _).symm
  have hsaw : s.sawRemote = (s.sawRemote || !([] : List String).isEmpty) := (Bool.or_false _).symm
  cases h with
  | remote host rest =>
    exact ⟨s.remotes_applyRemote (host :: rest), rfl, rfl, (Bool.or_true _).symm⟩
  | proto proto rest => exact ⟨hnone, rfl, rfl, hsaw⟩
  | port hkey port rest => rcases hkey with rfl | rfl <;> exact ⟨hnone, rfl, rfl, hsaw⟩
  | ciphers hkey args =>
    obtain ⟨report, options, heq⟩ := applyCiphers_eq s args
    rw [heq]
    rcases hkey with rfl | rfl <;> exact ⟨hnone, rfl, rfl, hsaw⟩
  | aside h hremote hproto hport hciphers =>
    rw [hremote, hproto, hport, h.remotes, h.protoDefault, h.portDefault, h.sawRemote]
    exact ⟨hnone, rfl, rfl, hsaw⟩

end NovaVpn.Profiles
