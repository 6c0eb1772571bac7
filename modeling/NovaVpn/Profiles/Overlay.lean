import NovaVpn.Framework.Updates
import NovaVpn.Profiles.OvpnItems

/-!
# Other values in a few fields

What the parser of a configuration does to a state, it does to the same state
with other values in the fields that no item reads, and in those that the item
at hand does not touch. An `Overlay` is such a change of values, and
`Overlay.Misses.passes` says which items pass it on.
-/

namespace NovaVpn.Profiles

open NovaVpn.Framework

/-! ## Items that touch a field -/

namespace Item

/-- The wrap mode that a directive sets. -/
def wrapMode : Item → Option Int
  | .directive key _ =>
    if key = "tls-auth" then some 0
    else if key = "tls-crypt" then some 1
    else if key = "tls-crypt-v2" then some 2
    else none
  | _ => none

def SetsProto (item : Item) : Prop := ∃ proto rest, item = .directive "proto" (proto :: rest)

/-- A remote without a protocol of its own. -/
def UsesProto (item : Item) : Prop :=
  ∃ args, item = .directive "remote" args ∧ (args.length = 1 ∨ args.length = 2)

def SetsPort (item : Item) : Prop :=
  ∃ key port rest, (key = "port" ∨ key = "rport") ∧ item = .directive key (port :: rest)

/-- A remote without a port of its own. -/
def UsesPort (item : Item) : Prop :=
  (∃ host, item = .directive "remote" [host]) ∨
    ∃ host port rest, item = .directive "remote" (host :: port :: rest) ∧
      (Str.strtoul port.toList).toUInt16 = 0

/-- The item sets the PEM text of the keyword, `ca` or `cert`. -/
def SetsPem (files : SideFiles) (options : OvpnParseOptions) (key : String) (item : Item) : Prop :=
  (∃ body, item = .block key.toList body) ∨
    ∃ reference rest content, item = .directive key (reference :: rest) ∧
      readSideFile files options reference = .ok content

end Item

/-! ## Overlays -/

/-- New values for some fields of a `ParseState`, from those they had. A flag
that is set stays so, and what is added at the end of a list of the report is
added after the change as before it. -/
structure Overlay where
  sourceConfig : String → String := id
  caPem : String → String := id
  certificatePem : String → String := id
  tlsWrapMode : Int → Int := id
  protoDefault : String → String := id
  portDefault : UInt16 → UInt16 := id
  hasTlsAuth : Bool → Bool := id
  hasTlsCrypt : Bool → Bool := id
  ignored : List String → List String := id
  rejected : List String → List String := id
  warnings : List String → List String := id
  hasTlsAuth_true : hasTlsAuth true = true := by rfl
  hasTlsCrypt_true : hasTlsCrypt true = true := by rfl
  ignored_append : ∀ l key, ignored (l ++ [key]) = ignored l ++ [key] := by intros; rfl
  warnings_append : ∀ l text, warnings (l ++ [text]) = warnings l ++ [text] := by intros; rfl

namespace Overlay

/-- No new value. -/
def same : Overlay := {}

def onCertificates (o : Overlay) (c : CertificateSet) : CertificateSet :=
  { c with
    caPem := o.caPem c.caPem
    certificatePem := o.certificatePem c.certificatePem
    tlsWrapMode := o.tlsWrapMode c.tlsWrapMode }

def onProfile (o : Overlay) (p : Profile) : Profile :=
  { p with
    certificates := o.onCertificates p.certificates
    sourceConfig := o.sourceConfig p.sourceConfig }

def onReport (o : Overlay) (r : ImportReport) : ImportReport :=
  { r with
    ignoredDirectives := o.ignored r.ignoredDirectives
    rejectedDirectives := o.rejected r.rejectedDirectives
    warnings := o.warnings r.warnings }

/-- The state with the new values. -/
def on (o : Overlay) (s : ParseState) : ParseState :=
  { s with
    profile := o.onProfile s.profile
    report := o.onReport s.report
    protoDefault := o.protoDefault s.protoDefault
    portDefault := o.portDefault s.portDefault
    hasTlsAuth := o.hasTlsAuth s.hasTlsAuth
    hasTlsCrypt := o.hasTlsCrypt s.hasTlsCrypt }

/-- The item neither reads a field that the overlay changes nor sets it. -/
structure Misses (o : Overlay) (files : SideFiles) (options : OvpnParseOptions) (item : Item) :
    Prop where
  proto : item.SetsProto ∨ item.UsesProto → o.protoDefault = id
  port : item.SetsPort ∨ item.UsesPort → o.portDefault = id
  wrap : item.wrapMode.isSome → o.tlsWrapMode = id
  caPem : item.SetsPem files options "ca" → o.caPem = id
  certificatePem : item.SetsPem files options "cert" → o.certificatePem = id
  rejected : (∃ key args, item = .directive key args ∧ key ∈ dangerousDirectives) →
    ∀ l key, o.rejected (l ++ [key]) = o.rejected l ++ [key]

variable {o : Overlay} {files : SideFiles} {options : OvpnParseOptions} {key : String}
  {args : List String} {s : ParseState}

theorem on_warn (o : Overlay) (s : ParseState) (text : String) :
    (o.on s).warn text = o.on (s.warn text) := by
  simp [on, onReport, ParseState.warn, o.warnings_append]

theorem on_ignore (o : Overlay) (s : ParseState) (key : String) :
    (o.on s).ignore key = o.on (s.ignore key) := by
  simp [on, onReport, ParseState.ignore, o.ignored_append]

/-- Both branches of a choice that does not depend on the state. -/
theorem on_ite {c : Prop} [Decidable c] {a b a' b' : ParseState} (ha : c → a' = o.on a)
    (hb : ¬ c → b' = o.on b) : (if c then a' else b') = o.on (if c then a else b) := by
  split
  next hc => exact ha hc
  next hc => exact hb hc

theorem applyRemote_on (h : o.Misses files options (.directive "remote" args)) (s : ParseState) :
    (o.on s).applyRemote args = o.on (s.applyRemote args) := by
  obtain _ | ⟨host, _ | ⟨port, _ | ⟨proto, rest⟩⟩⟩ := args
  · rfl
  · have hproto := h.proto (.inr ⟨_, rfl, .inl rfl⟩)
    have hport := h.port (.inr (.inl ⟨host, rfl⟩))
    simp [ParseState.applyRemote, on, onProfile, hproto, hport]
  · have hproto := h.proto (.inr ⟨_, rfl, .inr rfl⟩)
    by_cases hzero : (Str.strtoul port.toList).toUInt16 = 0
    · have hport := h.port (.inr (.inr ⟨host, port, _, rfl, hzero⟩))
      simp [ParseState.applyRemote, on, onProfile, hproto, hport]
    · simp [ParseState.applyRemote, on, onProfile, hproto, hzero]
  · by_cases hzero : (Str.strtoul port.toList).toUInt16 = 0
    · have hport := h.port (.inr (.inr ⟨host, port, _, rfl, hzero⟩))
      simp [ParseState.applyRemote, on, onProfile, hport]
    · simp [ParseState.applyRemote, on, onProfile, hzero]

theorem warnAll_on (warning : String → String) (l : List String) (s : ParseState) :
    l.foldl (fun s x => s.warn (warning x)) (o.on s) =
      o.on (l.foldl (fun s x => s.warn (warning x)) s) := by
  induction l generalizing s with
  | nil => rfl
  | cons x l ih =>
    rw [List.foldl_cons, List.foldl_cons, on_warn]
    exact ih _

theorem applyCiphers_on (args : List String) (s : ParseState) :
    (o.on s).applyCiphers args = o.on (s.applyCiphers args) := by
  cases args with
  | nil => rfl
  | cons first rest => exact warnAll_on _ _ (s.setOptions fun opts => { opts with cipherOverride := first })

theorem applySideFile_on (hca : key = "ca" → o.Misses files options (.directive "ca" args))
    (hcert : key = "cert" → o.Misses files options (.directive "cert" args))
    (hkey : key = "ca" ∨ key = "cert" ∨ key = "key") (s : ParseState) :
    (o.on s).applySideFile files options key args = o.on (s.applySideFile files options key args) := by
  cases args with
  | nil => rfl
  | cons reference rest =>
    refine on_ite (fun _ => on_warn o s _) fun hne => ?_
    cases hread : readSideFile files options reference with
    | error status => exact on_warn o s _
    | ok content =>
      refine on_ite (fun h => ?_) fun hnca => ?_
      · have hid := (hca h).caPem (.inr ⟨reference, rest, content, rfl, hread⟩)
        simp [ParseState.setCertificates, on, onProfile, onCertificates, hid]
      · have h := (hkey.resolve_left hnca).resolve_right hne
        have hid := (hcert h).certificatePem (.inr ⟨reference, rest, content, rfl, hread⟩)
        simp [ParseState.setCertificates, on, onProfile, onCertificates, hid]

/-- What the parser makes of a directive, it makes of it under the overlay. -/
theorem applyKnown_on (h : o.Misses files options (.directive key args)) (s : ParseState) :
    (o.on s).applyKnown files options key args = o.on (s.applyKnown files options key args) := by
  unfold ParseState.applyKnown
  refine on_ite (fun hkey => ?_) fun _ => ?_
  · subst hkey
    exact applyRemote_on h s
  -- `proto`, `port` and `rport`
  refine on_ite (fun hkey => ?_) fun _ => ?_
  · subst hkey
    cases args with
    | nil => rfl
    | cons proto rest =>
      have hid := h.proto (.inl ⟨proto, rest, rfl⟩)
      simp [on, hid]
  refine on_ite (fun hkey => ?_) fun _ => ?_
  · cases args with
    | nil => rfl
    | cons port rest =>
      have hid := h.port (.inl ⟨key, port, rest, by simpa using hkey, rfl⟩)
      simp [on, hid]
  refine on_ite (fun _ => rfl) fun _ => ?_
  -- `auth-user-pass`
  refine on_ite (fun _ => on_ite (fun _ => rfl) fun _ =>
    on_warn o { s with sawAuthUserPass := true } _) fun _ => ?_
  refine on_ite (fun _ => rfl) fun _ => ?_
  -- `mssfix` and `tun-mtu`
  refine on_ite (fun _ => ?_) fun _ => ?_
  · cases args with
    | nil => rfl
    | cons mtu rest => exact on_ite (fun _ => rfl) fun _ => rfl
  -- `keepalive`
  refine on_ite (fun _ => by obtain _ | ⟨a, _ | ⟨b, args⟩⟩ := args <;> rfl) fun _ => ?_
  refine on_ite (fun _ => applyCiphers_on args s) fun _ => ?_
  -- `auth`
  refine on_ite (fun _ => by cases args <;> rfl) fun _ => ?_
  -- compression
  refine on_ite (fun _ => on_warn o (s.setOptions ({ · with allowCompression := true })) _)
    fun _ => ?_
  -- `verify-x509-name`
  refine on_ite (fun _ => by cases args <;> rfl) fun _ => ?_
  -- the wraps
  refine on_ite (fun hkey => ?_) fun _ => ?_
  · subst hkey
    have hid := h.wrap rfl
    simp [ParseState.setCertificates, on, onProfile, onCertificates, hid, o.hasTlsAuth_true]
  refine on_ite (fun hkey => ?_) fun _ => ?_
  · subst hkey
    have hid := h.wrap rfl
    simp [ParseState.setCertificates, on, onProfile, onCertificates, hid, o.hasTlsCrypt_true]
  refine on_ite (fun hkey => ?_) fun _ => ?_
  · subst hkey
    have hid := h.wrap rfl
    simp [ParseState.setCertificates, on, onProfile, onCertificates, hid, o.hasTlsCrypt_true]
  -- the proxies
  refine on_ite (fun _ => by obtain _ | ⟨a, _ | ⟨b, args⟩⟩ := args <;> rfl) fun _ => ?_
  refine on_ite (fun _ => by obtain _ | ⟨a, _ | ⟨b, args⟩⟩ := args <;> rfl) fun _ => ?_
  -- `ca`, `cert` and `key`
  refine on_ite (fun hkey => ?_) fun _ => on_ignore o s key
  refine applySideFile_on (fun hca => hca ▸ h) (fun hcert => hcert ▸ h) ?_ s
  simpa [or_assoc] using hkey

theorem applyBlock_on {tag body : List Char} (h : o.Misses files options (.block tag body))
    (s : ParseState) : (o.on s).applyBlock tag body = o.on (s.applyBlock tag body) := by
  unfold ParseState.applyBlock
  refine on_ite (fun htag => ?_) fun _ => on_ite (fun htag => ?_) fun _ =>
    on_ite (fun _ => ?_) fun _ => on_ite (fun _ => ?_) fun _ => on_ite (fun _ => ?_) fun _ => rfl
  · have hid := h.caPem (.inl ⟨body, by rw [htag]⟩)
    simp [ParseState.setCertificates, on, onProfile, onCertificates, hid]
  · have hid := h.certificatePem (.inl ⟨body, by rw [htag]⟩)
    simp [ParseState.setCertificates, on, onProfile, onCertificates, hid]
  · exact congrArg (fun t : ParseState => { t with sawKey := true })
      (on_warn o (s.setCertificates ({ · with privateKeyTarget := "" })) _)
  · simp [on, o.hasTlsAuth_true]
  · simp [on, o.hasTlsCrypt_true]

/-- An item that an overlay misses passes it on. -/
theorem Misses.passes {item : Item} (h : o.Misses files options item) :
    Passes (ParseState.applyItem files options) o.on item := by
  intro s
  cases item with
  | unterminated tag => rfl
  | block tag body =>
    rw [ParseState.applyItem, applyBlock_on h]
    rfl
  | directive key args =>
    simp only [ParseState.applyItem, ParseState.applyDirective]
    split
    next hd =>
      split
      · rfl
      · have happend := h.rejected ⟨key, args, rfl, by simpa using hd⟩
        simp [on, onReport, ParseState.reject, happend, Except.map]
    next => rw [applyKnown_on h]; rfl

/-- Values that are there are there after an item that does not touch them. -/
theorem Misses.keeps {item : Item} {t : ParseState} (h : o.Misses files options item) (hs : o.on s = s)
    (ht : s.applyItem files options item = .ok t) : t = o.on t := by
  have hpass := h.passes s
  rw [hs, ht] at hpass
  exact Except.ok.inj hpass

/-- The last checks look at no field that an overlay changes. -/
theorem finish_on (o : Overlay) (s : ParseState) :
    (o.on s).finish = s.finish.map fun r =>
      { o.onReport r with profile := o.onProfile r.profile } := by
  unfold ParseState.finish
  by_cases hr : s.sawRemote = true
  · by_cases hca : (!s.sawCa && s.profile.certificates.peerFingerprintSha256.isEmpty) = true <;>
      simp [on, onReport, onProfile, onCertificates, hr, hca, ParseState.warn, Except.map,
        o.warnings_append]
  · simp [on, hr, Except.map]

end Overlay

end NovaVpn.Profiles
