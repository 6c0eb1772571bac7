import NovaVpn.Core.Numerals
import NovaVpn.Profiles.OvpnBlocks
import NovaVpn.Profiles.OvpnSteps

/-!
# What an import says about every line

The report of an import lists what was ignored, rejected and warned about, so
that the import is no black box. A line of the configuration, or a block, is
accounted for if it sets a field of the profile, or if reading it adds an entry
to the report that names it; with an argument that is missing or out of range, or
with a tag that means nothing here, it has to be in the report. `Heard` tells
which items are accounted for (`accounted_iff`).
-/

namespace NovaVpn.Profiles

open NovaVpn.Framework

/-! ## Accounted items -/

/-- The keyword of a directive, the tag of a block. -/
def Item.name : Item → String
  | .directive keyword _ => keyword
  | .block tag _ => String.ofList tag
  | .unterminated tag => String.ofList tag

/-- The parse of these items from the state on. -/
def parseFrom (files : SideFiles) (options : OvpnParseOptions) (s : ParseState) (l : List Item) :
    Result ImportReport :=
  l.foldlM (ParseState.applyItem files options) s >>= ParseState.finish

/-- From some state of the parser the profile is another for this item, once some of
the items behind it are read. The state need not be one of this parse: a field
that already held the value is set all the same. -/
def SetsField (files : SideFiles) (options : OvpnParseOptions) (item : Item) (behind : List Item) :
    Prop :=
  ∃ s n r r', parseFrom files options s (item :: behind.take n) = .ok r ∧
    parseFrom files options s (behind.take n) = .ok r' ∧ r.profile ≠ r'.profile

/-- The second report has one more entry, and this names it. -/
def Names (name : String) (before after : ImportReport) : Prop :=
  after.ignoredDirectives = before.ignoredDirectives ++ [name] ∨
    after.rejectedDirectives = before.rejectedDirectives ++ [name] ∨
    ∃ warning, after.warnings = before.warnings ++ [warning] ∧ name.toList <:+: warning.toList

/-- The entries of the first report are the first ones of the second. -/
structure ImportReport.Within (r r' : ImportReport) : Prop where
  ignored : r.ignoredDirectives <+: r'.ignoredDirectives
  rejected : r.rejectedDirectives <+: r'.rejectedDirectives
  warnings : r.warnings <+: r'.warnings

/-- Reading the item adds an entry to the report that names it, and this stays. -/
def Reported (item : Item) (s s' : ParseState) (r : ImportReport) : Prop :=
  Names item.name s.report s'.report ∧ s'.report.Within r

/-! ## Arguments -/

/-- How many arguments a directive needs. -/
def neededArgs (keyword : String) : Nat :=
  if keyword ∈ ["remote", "proto", "port", "rport", "mssfix", "tun-mtu", "cipher", "data-ciphers",
    "auth", "verify-x509-name", "tls-auth", "tls-crypt", "tls-crypt-v2", "ca", "cert", "key"] then 1
  else if keyword ∈ ["keepalive", "http-proxy", "socks-proxy"] then 2
  else 0

/-- The arguments of a directive that are numbers. -/
def numbers (keyword : String) (args : List String) : List String :=
  if keyword ∈ ["port", "rport", "mssfix", "tun-mtu"] then args.take 1
  else if keyword ∈ ["remote", "http-proxy", "socks-proxy"] then (args.drop 1).take 1
  else if keyword = "keepalive" then args.take 2
  else []

/-- A decimal integer in this range. -/
def NumberText (low high : Nat) (text : String) : Prop :=
  ∃ n, Str.Numeral 10 Str.decimalDigit text.toList n ∧ low ≤ n ∧ n ≤ high

/-- A number in the range of the directive: an MTU, a number of seconds, a port. -/
def InRange (keyword number : String) : Prop :=
  if keyword = "mssfix" ∨ keyword = "tun-mtu" then NumberText 576 9000 number
  else if keyword = "keepalive" then NumberText 0 0xFFFFFFFF number
  else NumberText 1 65535 number

/-- No argument is missing or out of range, and the tag of a block is one that the
parser looks for. -/
def Item.Fit : Item → Prop
  | .directive keyword args =>
    neededArgs keyword ≤ args.length ∧ ∀ number ∈ numbers keyword args, InRange keyword number
  | .block tag _ => tag ∈ ["ca", "cert", "key", "tls-auth", "tls-crypt"].map String.toList
  | .unterminated _ => True

/-! ## Accounted lines -/

/-- The condition under which the loop of `parseOvpn` passes over a trimmed line. -/
def blankOrComment (raw : List Char) : Bool :=
  raw.isEmpty || raw.head? = some '#' || raw.head? = some ';'

/-- The parser comes to these lines, outside the blocks of the first ones. -/
inductive ReachesLines : (lines behind : List (List Char)) → Prop
  | here (lines : List (List Char)) : ReachesLines lines lines
  | line {line : List Char} {rest behind : List (List Char)}
      (hline : openingTag (Str.trim line) = none) (hrest : ReachesLines rest behind) :
      ReachesLines (line :: rest) behind
  | block {opening tag body : List Char} {rest behind : List (List Char)} {n : Nat}
      (hopening : openingTag (Str.trim opening) = some tag)
      (hread : readInlineBlock tag rest = some (body, n)) (hrest : ReachesLines (rest.drop n) behind) :
      ReachesLines (opening :: rest) behind

/-- The item sets a field or is reported, and one that does not fit is reported. -/
def AccountedFor (files : SideFiles) (options : OvpnParseOptions) (r : ImportReport) (item : Item)
    (behind : List Item) (s s' : ParseState) : Prop :=
  (SetsField files options item behind ∨ Reported item s s' r) ∧ (¬ item.Fit → Reported item s s' r)

/-- Every line outside the blocks that is neither blank nor a comment, and every
line that opens a block, has an item that is accounted for. -/
def Accounted (files : SideFiles) (options : OvpnParseOptions) (text : List Char)
    (r : ImportReport) : Prop :=
  ∀ line rest, ReachesLines (Str.split '\n' text) (line :: rest) →
    blankOrComment (Str.trim line) = false →
    ∃ before item behind s s', items (Str.split '\n' text) = before ++ item :: behind ∧
      items (line :: rest) = item :: behind ∧
      before.foldlM (ParseState.applyItem files options) (.initial options text) = .ok s ∧
      s.applyItem files options item = .ok s' ∧ AccountedFor files options r item behind s s'

/-! ## The condition -/

/-- An item that `uses` a default comes before the next that `sets` it. -/
def Reaches (uses sets : Item → Prop) (behind : List Item) : Prop :=
  ∃ a i b, behind = a ++ i :: b ∧ uses i ∧ ∀ j ∈ a, ¬ sets j

/-- A directive that fits, with a default that some remote takes, or a block of a
tag that the profile or the report knows. -/
def Heard (item : Item) (behind : List Item) : Prop :=
  match item with
  | .directive keyword _ =>
    item.Fit ∧ (keyword = "proto" → Reaches Item.UsesProto Item.SetsProto behind) ∧
      (keyword = "port" ∨ keyword = "rport" → Reaches Item.UsesPort Item.SetsPort behind)
  | .block tag _ => Stored tag ∨ tag = "key".toList
  | .unterminated _ => False

/-! ## Lines and items -/

/-- A line that the parser does not pass over has a directive. -/
theorem directiveOf_isSome {line : List Char} (h : blankOrComment (Str.trim line) = false) :
    (directiveOf (Str.trim line)).isSome := by
  cases hraw : Str.trim line with
  | nil =>
    rw [hraw] at h
    cases h
  | cons c raw =>
    have hspace : Str.isSpace c = false := by
      rw [Str.trim_eq] at hraw
      obtain ⟨w, -, hw⟩ := Str.exists_trimRight (line.dropWhile Str.isSpace)
      rw [hraw] at hw
      have hhead := List.head?_dropWhile_not Str.isSpace line
      rw [hw] at hhead
      simpa using hhead
    have hsep : isSeparator c = false := by
      simp only [Str.isSpace, Bool.or_eq_false_iff, beq_eq_false_iff_ne] at hspace
      simp [isSeparator, hspace]
    have hcomment : isComment c = false := by
      rw [hraw] at h
      simpa [blankOrComment, isComment] using h
    have htokens := tokens_ne_nil hcomment hsep raw
    rw [directiveOf, tokenizeOvpnLine_eq, Option.isSome_map, Option.isSome_map]
    cases h : tokens (c :: raw) with
    | nil => exact absurd h htokens
    | cons token rest => rfl

/-- Such a line has an item. -/
theorem exists_item {line : List Char} (h : blankOrComment (Str.trim line) = false)
    (rest : List (List Char)) : ∃ item behind, items (line :: rest) = item :: behind := by
  cases htag : openingTag (Str.trim line) with
  | none =>
    obtain ⟨item, hitem⟩ := Option.isSome_iff_exists.mp (directiveOf_isSome h)
    exact ⟨item, items rest, by rw [items_line htag, hitem]; rfl⟩
  | some tag =>
    cases hread : readInlineBlock tag rest with
    | none => exact ⟨.unterminated tag, [], by simp only [items_cons, htag, hread]⟩
    | some block =>
      exact ⟨.block tag block.1, items (rest.drop block.2), by simp only [items_cons, htag, hread]⟩

theorem ReachesLines.items_eq {lines behind : List (List Char)} (h : ReachesLines lines behind) :
    ∃ before, items lines = before ++ items behind := by
  induction h with
  | here lines => exact ⟨[], rfl⟩
  | @line line rest behind hline _ ih =>
    obtain ⟨before, heq⟩ := ih
    refine ⟨(directiveOf (Str.trim line)).toList ++ before, ?_⟩
    rw [items_line hline, heq, List.append_assoc]
  | @block opening tag body rest behind n hopening hread _ ih =>
    obtain ⟨before, heq⟩ := ih
    refine ⟨.block tag body :: before, ?_⟩
    simp only [items_cons, hopening, hread, heq, List.cons_append]

/-- Every item is that of a line that the parser comes to. -/
theorem exists_line {lines : List (List Char)} {before behind : List Item} {item : Item}
    (h : items lines = before ++ item :: behind) :
    ∃ line rest, ReachesLines lines (line :: rest) ∧ blankOrComment (Str.trim line) = false ∧
      items (line :: rest) = item :: behind := by
  induction hn : lines.length using Nat.strongRecOn generalizing lines before with
  | ind n ih =>
    obtain _ | ⟨line, rest⟩ := lines
    · cases before <;> cases h
    rw [List.length_cons] at hn
    -- the first line has an item, or it has none and the item is behind it
    by_cases hblank : blankOrComment (Str.trim line) = true
    · obtain ⟨hnone, htag⟩ := blank_line hblank
      rw [items_line htag, hnone] at h
      obtain ⟨line', rest', htop, hline'⟩ := ih rest.length (by omega) h rfl
      exact ⟨line', rest', .line htag htop, hline'⟩
    have hblank : blankOrComment (Str.trim line) = false := by simpa using hblank
    obtain _ | ⟨first, before⟩ := before
    · exact ⟨line, rest, .here _, hblank, h⟩
    cases htag : openingTag (Str.trim line) with
    | none =>
      obtain ⟨i, hi⟩ := Option.isSome_iff_exists.mp (directiveOf_isSome hblank)
      rw [items_line htag, hi] at h
      obtain ⟨line', rest', htop, hline'⟩ := ih rest.length (by omega) (List.cons.inj h).2 rfl
      exact ⟨line', rest', .line htag htop, hline'⟩
    | some tag =>
      cases hread : readInlineBlock tag rest with
      | none =>
        simp only [items_cons, htag, hread] at h
        exact absurd (List.cons.inj h).2 (by simp)
      | some block =>
        simp only [items_cons, htag, hread] at h
        obtain ⟨line', rest', htop, hline'⟩ :=
          ih (rest.drop block.2).length (by rw [List.length_drop]; omega) (List.cons.inj h).2 rfl
        exact ⟨line', rest', .block htag hread htop, hline'⟩

/-! ## The report grows -/

section Growth

variable {files : SideFiles} {options : OvpnParseOptions} {s t : ParseState} {r r' r'' : ImportReport}

theorem ImportReport.Within.trans (h : r.Within r') (h' : r'.Within r'') : r.Within r'' where
  ignored := h.ignored.trans h'.ignored
  rejected := h.rejected.trans h'.rejected
  warnings := h.warnings.trans h'.warnings

theorem ImportReport.Within.refl (r : ImportReport) : r.Within r :=
  ⟨List.prefix_rfl, List.prefix_rfl, List.prefix_rfl⟩

/-- The state after these entries of a report. -/
def Overlay.behind (r : ImportReport) : Overlay :=
  { Overlay.same with
    ignored := (r.ignoredDirectives ++ ·)
    rejected := (r.rejectedDirectives ++ ·)
    warnings := (r.warnings ++ ·)
    ignored_append := fun _ _ => (List.append_assoc ..).symm
    warnings_append := fun _ _ => (List.append_assoc ..).symm }

theorem Overlay.misses_behind (r : ImportReport) (item : Item) :
    (Overlay.behind r).Misses files options item where
  proto _ := rfl
  port _ := rfl
  wrap _ := rfl
  caPem _ := rfl
  certificatePem _ := rfl
  rejected _ _ _ := (List.append_assoc ..).symm

/-- Reading an item keeps the entries that are there. -/
theorem applyItem_within {item : Item} (h : s.applyItem files options item = .ok t) :
    s.report.Within t.report := by
  have hs : s = (Overlay.behind s.report).on
      { s with report := { profile := s.report.profile } } := by
    simp [Overlay.behind, Overlay.same, Overlay.on, Overlay.onReport, Overlay.onProfile, Overlay.onCertificates]
  have hmisses : (Overlay.behind s.report).Misses files options item :=
    Overlay.misses_behind s.report item
  have hpass := hmisses.passes { s with report := { profile := s.report.profile } }
  rw [← hs, h] at hpass
  cases hfresh : ParseState.applyItem files options
      { s with report := { profile := s.report.profile } } item with
  | error status =>
    rw [hfresh] at hpass
    cases hpass
  | ok t' =>
    rw [hfresh] at hpass
    cases hpass
    exact ⟨List.prefix_append .., List.prefix_append .., List.prefix_append ..⟩

theorem foldlM_within {l : List Item}
    (h : l.foldlM (ParseState.applyItem files options) s = .ok t) : s.report.Within t.report :=
  foldlM_related (R := fun s t => s.report.Within t.report) (fun s => .refl s.report)
    (fun _ _ _ => .trans) (fun _ _ _ _ => applyItem_within) h

theorem finish_within (h : s.finish = .ok r) : s.report.Within r := by
  unfold ParseState.finish at h
  split at h
  · cases h
  · cases h
    dsimp only
    split
    · exact ⟨List.prefix_rfl, List.prefix_rfl, List.prefix_append ..⟩
    · exact ⟨List.prefix_rfl, List.prefix_rfl, List.prefix_rfl⟩

end Growth

/-! ## Items that set a field -/

section Sets

variable {files : SideFiles} {options : OvpnParseOptions} {keyword : String} {args : List String}
  {item : Item} {behind : List Item} {s s' : ParseState}

/-- An item after which the profile is another, whatever the way to authenticate. -/
theorem setsField_now (hs : s.sawRemote = true) (h : s.applyItem files options item = .ok s')
    (hs' : s'.sawRemote = true) (hne : ∀ method method',
      { s'.profile with authMethod := method } ≠ { s.profile with authMethod := method' }) :
    SetsField files options item behind := by
  obtain ⟨r, hr⟩ := finish_ok hs'
  obtain ⟨r', hr'⟩ := finish_ok hs
  obtain ⟨method, hprofile, -⟩ := finish_profile hr
  obtain ⟨method', hprofile', -⟩ := finish_profile hr'
  refine ⟨s, 0, r, r', ?_, hr', ?_⟩
  · rw [parseFrom, List.take_zero, List.foldlM_cons, h]
    exact hr
  · rw [hprofile, hprofile']
    exact hne method method'

/-- A directive that changes the options. -/
theorem setsField_options {f : ProfileOptions → ProfileOptions} {o : ProfileOptions} (hf : f o ≠ o)
    (hd : keyword ∉ dangerousDirectives)
    (h : ∀ s : ParseState, (s.applyKnown files options keyword args).sawRemote = s.sawRemote ∧
      (s.applyKnown files options keyword args).profile.options = f s.profile.options) :
    SetsField files options (.directive keyword args) behind := by
  obtain ⟨hsaw, hoptions⟩ := h { profile := { options := o }, sawRemote := true }
  refine setsField_now (s := { profile := { options := o }, sawRemote := true }) rfl
    (applyItem_known hd _) hsaw fun _ _ heq => hf ?_
  rw [← hoptions]
  exact congrArg Profile.options heq

/-- An item that changes the certificates. -/
theorem setsField_certificates {f : CertificateSet → CertificateSet} {c : CertificateSet} (hf : f c ≠ c)
    (h : ∀ s : ParseState, ∃ s', s.applyItem files options item = .ok s' ∧ s'.sawRemote = s.sawRemote ∧
      s'.profile.certificates = f s.profile.certificates) :
    SetsField files options item behind := by
  obtain ⟨s', hs', hsaw, hcertificates⟩ := h { profile := { certificates := c }, sawRemote := true }
  refine setsField_now (s := { profile := { certificates := c }, sawRemote := true }) rfl hs' hsaw
    fun _ _ heq => hf ?_
  rw [← hcertificates]
  exact congrArg Profile.certificates heq

theorem setsField_remote (host : String) (rest : List String) :
    SetsField files options (.directive "remote" (host :: rest)) behind := by
  refine setsField_now (s := { profile := {}, sawRemote := true }) rfl
    (applyItem_known (by decide) _) rfl fun _ _ heq => ?_
  have hremotes := congrArg (fun p : Profile => p.remotes.length) heq
  simp [ParseState.applyKnown, ParseState.applyRemote] at hremotes

/-- The directive that is known by the way to authenticate. -/
theorem setsField_authUserPass : SetsField files options (.directive "auth-user-pass" args) behind := by
  obtain ⟨r, hr⟩ : ∃ r, parseFrom files options
      { profile := { authMethod := .certificate }, sawRemote := true }
        (.directive "auth-user-pass" args :: behind.take 0) = .ok r ∧
      r.profile.authMethod = .userPassword := by
    rw [parseFrom, List.take_zero, List.foldlM_cons, applyItem_known (by decide)]
    cases args with
    | nil => exact ⟨_, rfl, rfl⟩
    | cons file rest => exact ⟨_, rfl, rfl⟩
  refine ⟨_, 0, r, _, hr.1, rfl, fun heq => ?_⟩
  have hmethod := congrArg Profile.authMethod heq
  rw [hr.2] at hmethod
  cases hmethod

theorem warnAll_profile (warning : String → String) (l : List String) (s : ParseState) :
    (l.foldl (fun s x => s.warn (warning x)) s).sawRemote = s.sawRemote ∧
      (l.foldl (fun s x => s.warn (warning x)) s).profile = s.profile := by
  induction l generalizing s with
  | nil => exact ⟨rfl, rfl⟩
  | cons x l ih => exact ih (s.warn (warning x))

theorem ne_append (text : String) : ¬ text = text ++ "x" := fun h => by
  have hlength := congrArg String.length h
  simp at hlength

theorem setsField_cipher (hkey : keyword = "cipher" ∨ keyword = "data-ciphers") (first : String)
    (rest : List String) : SetsField files options (.directive keyword (first :: rest)) behind := by
  have hd : keyword ∉ dangerousDirectives := by rcases hkey with rfl | rfl <;> decide
  refine setsField_options (f := ({ · with cipherOverride := first }))
    (o := { cipherOverride := first ++ "x" }) (by simpa using ne_append first) hd fun s => ?_
  have hstep : s.applyKnown files options keyword (first :: rest) = s.applyCiphers (first :: rest) := by
    rcases hkey with rfl | rfl <;> simp [ParseState.applyKnown]
  rw [hstep]
  obtain ⟨hsaw, hprofile⟩ := warnAll_profile (fun cipher => "configuration selects a weak cipher: " ++ cipher)
    ((first :: rest).filter isWeakCipher) (s.setOptions ({ · with cipherOverride := first }))
  exact ⟨hsaw, congrArg Profile.options hprofile⟩

/-- The directives that turn an option on. -/
theorem setsField_flag (hkey : keyword ∈ ["remote-random", "redirect-gateway", "redirect-private",
      "comp-lzo", "compress", "comp-noadapt"]) :
    SetsField files options (.directive keyword args) behind := by
  simp only [List.mem_cons, List.not_mem_nil, or_false] at hkey
  rcases hkey with rfl | rfl | rfl | rfl | rfl | rfl
  · exact setsField_options (f := ({ · with shuffleRemotes := true })) (o := {}) (by decide)
      (by decide) fun s => by simp [ParseState.applyKnown, ParseState.setOptions]
  · exact setsField_options (f := ({ · with redirectGateway := true }))
      (o := { redirectGateway := false }) (by decide) (by decide) fun s => by
        simp [ParseState.applyKnown, ParseState.setOptions]
  · exact setsField_options (f := ({ · with redirectGateway := true }))
      (o := { redirectGateway := false }) (by decide) (by decide) fun s => by
        simp [ParseState.applyKnown, ParseState.setOptions]
  all_goals
    exact setsField_options (f := ({ · with allowCompression := true })) (o := {}) (by decide)
      (by decide) fun s => by simp [ParseState.applyKnown, ParseState.setOptions, ParseState.warn]

theorem setsField_mtu (hkey : keyword = "mssfix" ∨ keyword = "tun-mtu") {mtu : String}
    (hmtu : 576 ≤ Str.strtoul mtu.toList ∧ Str.strtoul mtu.toList ≤ 9000) (rest : List String) :
    SetsField files options (.directive keyword (mtu :: rest)) behind := by
  have hd : keyword ∉ dangerousDirectives := by rcases hkey with rfl | rfl <;> decide
  refine setsField_options (f := ({ · with mtu := some (Str.strtoul mtu.toList) })) (o := {}) (by simp)
    hd fun s => ?_
  rcases hkey with rfl | rfl <;> simp [ParseState.applyKnown, ParseState.setOptions, hmtu]

theorem setsField_keepalive (interval timeout : String) (rest : List String) :
    SetsField files options (.directive "keepalive" (interval :: timeout :: rest)) behind := by
  refine setsField_options (f := ({ · with
      keepaliveIntervalSeconds := some (Str.strtoul interval.toList)
      keepaliveTimeoutSeconds := some (Str.strtoul timeout.toList) })) (o := {}) (by simp) (by decide)
    fun s => ?_
  simp [ParseState.applyKnown, ParseState.setOptions]

theorem setsField_auth (digest : String) (rest : List String) :
    SetsField files options (.directive "auth" (digest :: rest)) behind := by
  refine setsField_options (f := ({ · with authDigestOverride := digest }))
    (o := { authDigestOverride := digest ++ "x" }) (by simpa using ne_append digest) (by decide)
    fun s => ?_
  simp [ParseState.applyKnown, ParseState.setOptions]

theorem setsField_proxy {scheme : String}
    (hkey : keyword = "http-proxy" ∧ scheme = "http://" ∨
      keyword = "socks-proxy" ∧ scheme = "socks5://") (host port : String) (rest : List String) :
    SetsField files options (.directive keyword (host :: port :: rest)) behind := by
  have hd : keyword ∉ dangerousDirectives := by
    rcases hkey with ⟨rfl, -⟩ | ⟨rfl, -⟩ <;> decide
  refine setsField_options (f := ({ · with proxyUrl := scheme ++ host ++ ":" ++ port }))
    (o := { proxyUrl := scheme ++ host ++ ":" ++ port ++ "x" }) (by simpa using ne_append _) hd
    fun s => ?_
  rcases hkey with ⟨rfl, rfl⟩ | ⟨rfl, rfl⟩ <;> simp [ParseState.applyKnown, ParseState.setOptions]

theorem setsField_verifyName (name : String) (rest : List String) :
    SetsField files options (.directive "verify-x509-name" (name :: rest)) behind := by
  refine setsField_certificates (f := ({ · with verifyX509Name := name }))
    (c := { verifyX509Name := name ++ "x" }) (by simpa using ne_append name) fun s =>
    ⟨_, applyItem_known (by decide) s, ?_⟩
  simp [ParseState.applyKnown, ParseState.setCertificates]

theorem setsField_wrap {mode : Int}
    (hkey : keyword = "tls-auth" ∧ mode = 0 ∨ keyword = "tls-crypt" ∧ mode = 1 ∨
      keyword = "tls-crypt-v2" ∧ mode = 2) :
    SetsField files options (.directive keyword args) behind := by
  have hd : keyword ∉ dangerousDirectives := by
    rcases hkey with ⟨rfl, -⟩ | ⟨rfl, -⟩ | ⟨rfl, -⟩ <;> decide
  refine setsField_certificates (f := ({ · with tlsWrapMode := mode })) (c := { tlsWrapMode := 3 })
    (fun h => ?_) fun s => ⟨_, applyItem_known hd s, ?_⟩
  · have hthree := congrArg CertificateSet.tlsWrapMode h
    dsimp only at hthree
    omega
  · rcases hkey with ⟨rfl, rfl⟩ | ⟨rfl, rfl⟩ | ⟨rfl, rfl⟩ <;>
      simp [ParseState.applyKnown, ParseState.setCertificates]

/-- The keyword stands in this warning, between these two parts. -/
theorem names_warn {warning : String} (front back : String) (h : front ++ keyword ++ back = warning)
    (s : ParseState) : Names keyword s.report (s.warn warning).report := by
  refine .inr (.inr ⟨warning, rfl, front.toList, back.toList, ?_⟩)
  rw [← h, String.toList_append, String.toList_append]

/-- What becomes of a reference to a certificate. -/
theorem accounted_sideFile (hkey : keyword = "ca" ∨ keyword = "cert") (reference : String)
    (rest : List String) :
    SetsField files options (.directive keyword (reference :: rest)) behind ∨
      ∀ s : ParseState, Names keyword s.report
        (s.applyKnown files options keyword (reference :: rest)).report := by
  have hd : keyword ∉ dangerousDirectives := by rcases hkey with rfl | rfl <;> decide
  have hstep : ∀ s : ParseState, s.applyKnown files options keyword (reference :: rest) =
      s.applySideFile files options keyword (reference :: rest) := fun s => by
    rcases hkey with rfl | rfl <;> simp [ParseState.applyKnown]
  have hne : keyword ≠ "key" := by rcases hkey with rfl | rfl <;> decide
  cases hread : readSideFile files options reference with
  | error status =>
    refine .inr fun s => ?_
    rw [hstep, ParseState.applySideFile, if_neg hne, hread]
    refine names_warn "could not read " (" file '" ++ reference ++ "': " ++ status.message) ?_ s
    simp only [String.append_assoc]
  | ok content =>
    refine .inl ?_
    rcases hkey with rfl | rfl
    · refine setsField_certificates (f := ({ · with caPem := content }))
        (c := { caPem := content ++ "x" }) (by simpa using ne_append content) fun s =>
        ⟨_, applyItem_known hd s, ?_⟩
      rw [hstep]
      simp [ParseState.applySideFile, hread, ParseState.setCertificates]
    · refine setsField_certificates (f := ({ · with certificatePem := content }))
        (c := { certificatePem := content ++ "x" }) (by simpa using ne_append content) fun s =>
        ⟨_, applyItem_known hd s, ?_⟩
      rw [hstep]
      simp [ParseState.applySideFile, hread, ParseState.setCertificates]

theorem names_key (reference : String) (rest : List String) (s : ParseState) :
    Names "key" s.report (s.applyKnown files options "key" (reference :: rest)).report := by
  have hstep : s.applyKnown files options "key" (reference :: rest) =
      s.applySideFile files options "key" (reference :: rest) := by simp [ParseState.applyKnown]
  rw [hstep, ParseState.applySideFile, if_pos rfl]
  exact names_warn "private " (" referenced a file; import the key into NovaVPN's secure " ++
    "store - it was not read from disk") rfl s

/-- A keyword that no branch of the parser has. -/
theorem applyKnown_ignore (hone : neededArgs keyword = 0)
    (hflag : keyword ∉ ["remote-random", "redirect-gateway", "redirect-private", "comp-lzo", "compress",
      "comp-noadapt", "auth-user-pass"]) (s : ParseState) :
    s.applyKnown files options keyword args = s.ignore keyword := by
  unfold neededArgs at hone
  split at hone
  · cases hone
  · split at hone
    · cases hone
    · simp only [List.mem_cons, List.not_mem_nil, or_false, not_or] at *
      simp [ParseState.applyKnown, *]

/-- An MTU in range is read as such. -/
theorem strtoul_mtu {mtu : String} (h : NumberText 576 9000 mtu) :
    576 ≤ Str.strtoul mtu.toList ∧ Str.strtoul mtu.toList ≤ 9000 := by
  obtain ⟨n, hn, hlow, hhigh⟩ := h
  have hsmall : (UInt32.ofNat n).toNat = n := UInt32.toNat_ofNat_of_lt' (by simp [UInt32.size]; omega)
  rw [hn.strtoul_eq (by omega), UInt32.le_iff_toNat_le, UInt32.le_iff_toNat_le, hsmall]
  exact ⟨hlow, hhigh⟩

/-- A directive that fits, with a remote for the default that it sets. -/
theorem accounted_directive (hfit : (Item.directive keyword args).Fit)
    (hproto : keyword = "proto" → SetsField files options (.directive keyword args) behind)
    (hport : keyword = "port" ∨ keyword = "rport" →
      SetsField files options (.directive keyword args) behind) :
    SetsField files options (.directive keyword args) behind ∨
      ∀ s : ParseState, Names keyword s.report (s.applyKnown files options keyword args).report := by
  obtain ⟨hneeded, hnumbers⟩ := hfit
  by_cases hzero : neededArgs keyword = 0
  · by_cases hflag : keyword ∈ ["remote-random", "redirect-gateway", "redirect-private", "comp-lzo",
        "compress", "comp-noadapt", "auth-user-pass"]
    · refine .inl ?_
      simp only [List.mem_cons, List.not_mem_nil, or_false] at hflag
      rcases hflag with h | h | h | h | h | h | rfl
      iterate 6 exact setsField_flag (by simp [h])
      · exact setsField_authUserPass
    · exact .inr fun s => by
        rw [applyKnown_ignore hzero hflag]
        exact .inl rfl
  · obtain _ | ⟨first, rest⟩ := args
    · exact absurd (Nat.le_zero.mp hneeded) hzero
    have hmtu : keyword = "mssfix" ∨ keyword = "tun-mtu" →
        576 ≤ Str.strtoul first.toList ∧ Str.strtoul first.toList ≤ 9000 := fun hkey => by
      refine strtoul_mtu ?_
      have hrange := hnumbers first (by rcases hkey with rfl | rfl <;> simp [numbers])
      rwa [InRange, if_pos hkey] at hrange
    unfold neededArgs at hneeded
    split at hneeded
    next hone =>
      simp only [List.mem_cons, List.not_mem_nil, or_false] at hone
      rcases hone with rfl | h | h | h | h | h | h | h | rfl | rfl | rfl | rfl | rfl | h | h | rfl
      · exact .inl (setsField_remote first rest)
      · exact .inl (hproto h)
      · exact .inl (hport (.inl h))
      · exact .inl (hport (.inr h))
      · exact .inl (setsField_mtu (.inl h) (hmtu (.inl h)) rest)
      · exact .inl (setsField_mtu (.inr h) (hmtu (.inr h)) rest)
      · exact .inl (setsField_cipher (.inl h) first rest)
      · exact .inl (setsField_cipher (.inr h) first rest)
      · exact .inl (setsField_auth first rest)
      · exact .inl (setsField_verifyName first rest)
      · exact .inl (setsField_wrap (.inl ⟨rfl, rfl⟩))
      · exact .inl (setsField_wrap (.inr (.inl ⟨rfl, rfl⟩)))
      · exact .inl (setsField_wrap (.inr (.inr ⟨rfl, rfl⟩)))
      · exact accounted_sideFile (.inl h) first rest
      · exact accounted_sideFile (.inr h) first rest
      · exact .inr (names_key first rest)
    next hnone =>
      split at hneeded
      next htwo =>
        obtain _ | ⟨second, rest⟩ := rest
        · simp at hneeded
        simp only [List.mem_cons, List.not_mem_nil, or_false] at htwo
        rcases htwo with rfl | h | h
        · exact .inl (setsField_keepalive first second rest)
        · exact .inl (setsField_proxy (.inl ⟨h, rfl⟩) first second rest)
        · exact .inl (setsField_proxy (.inr ⟨h, rfl⟩) first second rest)
      next hntwo =>
        unfold neededArgs at hzero
        rw [if_neg hnone, if_neg hntwo] at hzero
        exact absurd rfl hzero

/-- A block of a tag that the profile or the report knows. -/
theorem accounted_block {tag body : List Char} (h : Stored tag ∨ tag = "key".toList) :
    SetsField files options (.block tag body) behind ∨
      ∀ s : ParseState, Names (String.ofList tag) s.report (s.applyBlock tag body).report := by
  rcases h with (rfl | rfl) | rfl
  · refine .inl (setsField_certificates (f := ({ · with caPem := String.ofList body }))
      (c := { caPem := String.ofList body ++ "x" }) (by simpa using ne_append _) fun s =>
      ⟨_, rfl, rfl, rfl⟩)
  · refine .inl (setsField_certificates (f := ({ · with certificatePem := String.ofList body }))
      (c := { certificatePem := String.ofList body ++ "x" }) (by simpa using ne_append _) fun s =>
      ⟨_, rfl, rfl, rfl⟩)
  · exact .inr fun s => names_warn "an inline private "
      (" was found; NovaVPN will move it into its secure " ++ "store on import") rfl
      (s.setCertificates ({ · with privateKeyTarget := "" }))

end Sets

/-! ## The defaults for the remotes -/

section Defaults

variable {files : SideFiles} {options : OvpnParseOptions} {item : Item} {behind : List Item}
  {s s' t : ParseState} {D V : Type} {get : ParseState → D} {f : D → V} {view : RemoteEntry → V}
  {uses sets : Item → Prop} {o : Overlay}

/-- An item that is read at all can be read in any state. -/
theorem applyItem_ok (h : s.applyItem files options item = .ok t) (s' : ParseState) :
    ∃ t', s'.applyItem files options item = .ok t' := by
  cases item with
  | unterminated tag => cases h
  | block tag body => exact ⟨_, rfl⟩
  | directive keyword args =>
    simp only [ParseState.applyItem, ParseState.applyDirective] at h ⊢
    split at h
    next hd =>
      rw [if_pos hd]
      split at h
      · cases h
      next hstrict =>
        rw [if_neg hstrict]
        exact ⟨_, rfl⟩
    next hd =>
      rw [if_neg hd]
      exact ⟨_, rfl⟩

theorem foldlM_ok_mem {l : List Item} (h : l.foldlM (ParseState.applyItem files options) s = .ok t) :
    ∀ i ∈ l, ∀ s', ∃ t', ParseState.applyItem files options s' i = .ok t' := by
  induction l generalizing s with
  | nil => simp
  | cons i l ih =>
    obtain ⟨s', hi, hl⟩ := foldlM_cons_ok.mp h
    exact List.forall_mem_cons.mpr ⟨applyItem_ok hi, ih hl⟩

/-- Items that leave a value alone leave it alone one after the other. -/
theorem foldlM_keeps {l : List Item}
    (hkeep : ∀ i s t, ¬ sets i → ParseState.applyItem files options s i = .ok t → get t = get s)
    (hl : ∀ i ∈ l, ¬ sets i) (hok : ∀ i ∈ l, ∀ s, ∃ t, ParseState.applyItem files options s i = .ok t)
    (s : ParseState) :
    ∃ t, l.foldlM (ParseState.applyItem files options) s = .ok t ∧ get t = get s := by
  obtain ⟨t, ht⟩ := foldlM_total hok s
  refine ⟨t, ht, ?_⟩
  exact foldlM_related (R := fun s t => get t = get s) (fun _ => rfl)
    (fun _ _ _ hst htu => htu.trans hst) (fun i hi s t hstep => hkeep i s t (hl i hi) hstep) ht

/-- A default that some remote takes before it is set again sets a field of that
remote. -/
theorem setsField_default
    (hkeep : ∀ i s t, ¬ sets i → ParseState.applyItem files options s i = .ok t → get t = get s)
    (huse : ∀ i s t, uses i → ParseState.applyItem files options s i = .ok t →
      t.sawRemote = true ∧ t.profile.remotes.getLast?.map view = some (f (get s)))
    (hok : ∀ i ∈ behind, ∀ s, ∃ t, ParseState.applyItem files options s i = .ok t)
    (h : Reaches uses sets behind) (hstep : s.applyItem files options item = .ok s')
    (hne : f (get s') ≠ f (get s)) : SetsField files options item behind := by
  obtain ⟨a, i, b, rfl, hi, ha⟩ := h
  have htake : (a ++ i :: b).take (a.length + 1) = a ++ [i] := by
    rw [List.take_length_add_append, List.take_succ_cons, List.take_zero]
  -- the profile after the remote
  have hrun : ∀ s : ParseState, ∃ r, parseFrom files options s (a ++ [i]) = .ok r ∧
      r.profile.remotes.getLast?.map view = some (f (get s)) := by
    intro s
    obtain ⟨t, ht, hget⟩ := foldlM_keeps hkeep ha (fun j hj => hok j (List.mem_append_left _ hj)) s
    obtain ⟨u, hu⟩ := hok i (List.mem_append_right _ List.mem_cons_self) t
    obtain ⟨hsaw, hview⟩ := huse i t u hi hu
    obtain ⟨r, hr⟩ := finish_ok hsaw
    obtain ⟨method, hprofile, -⟩ := finish_profile hr
    refine ⟨r, ?_, ?_⟩
    · rw [parseFrom, foldlM_append_ok.mpr ⟨t, ht, foldlM_cons_ok.mpr ⟨u, hu, rfl⟩⟩]
      exact hr
    · rw [hprofile, ← hget]
      exact hview
  obtain ⟨r, hr, hlast⟩ := hrun s'
  obtain ⟨r', hr', hlast'⟩ := hrun s
  refine ⟨s, a.length + 1, r, r', ?_, by rw [htake]; exact hr', fun heq => hne ?_⟩
  · rw [htake, parseFrom, List.foldlM_cons, hstep]
    exact hr
  · rw [heq, hlast'] at hlast
    exact (Option.some.inj hlast).symm

/-- A default that no remote takes before it is set again makes no difference. -/
theorem unseen_default (hmiss : ∀ i, ¬ sets i → ¬ uses i → o.Misses files options i)
    (habs : ∀ i, sets i → Absorbs (ParseState.applyItem files options) o.on i)
    (h : ¬ Reaches uses sets behind) (n : Nat) (s : ParseState) :
    (behind.take n).foldlM (ParseState.applyItem files options) (o.on s) =
        (behind.take n).foldlM (ParseState.applyItem files options) s ∨
      (behind.take n).foldlM (ParseState.applyItem files options) (o.on s) =
        ((behind.take n).foldlM (ParseState.applyItem files options) s).map o.on := by
  refine foldlM_unseen (fun a i b heq ha => ?_) s
  by_cases hset : sets i
  · exact .inr (habs i hset)
  · refine .inl (hmiss i hset fun huse => h ⟨a, i, b ++ behind.drop n, ?_, huse, fun j hj hj' =>
      ha j hj (habs j hj')⟩).passes
    rw [← List.cons_append, ← List.append_assoc, ← heq, List.take_append_drop]

theorem applyKnown_proto (proto : String) (rest : List String) (s : ParseState) :
    s.applyKnown files options "proto" (proto :: rest) = { s with protoDefault := proto } := by
  simp [ParseState.applyKnown]

theorem notDangerous_port {keyword : String} (hkey : keyword = "port" ∨ keyword = "rport") :
    keyword ∉ dangerousDirectives := by
  rcases hkey with rfl | rfl <;> decide

theorem applyKnown_port {keyword : String} (hkey : keyword = "port" ∨ keyword = "rport") (port : String)
    (rest : List String) (s : ParseState) :
    s.applyKnown files options keyword (port :: rest) =
      { s with portDefault := (Str.strtoul port.toList).toUInt16 } := by
  rcases hkey with rfl | rfl <;> simp [ParseState.applyKnown]

/-- Another default protocol. -/
def Overlay.proto (proto : String) : Overlay :=
  { Overlay.same with protoDefault := fun _ => proto }

theorem Overlay.misses_proto (proto : String) (hsets : ¬ item.SetsProto) (huses : ¬ item.UsesProto) :
    (Overlay.proto proto).Misses files options item where
  proto h := (h.elim hsets huses).elim
  port _ := rfl
  wrap _ := rfl
  caPem _ := rfl
  certificatePem _ := rfl
  rejected _ _ _ := rfl

theorem absorbs_proto (proto : String) (h : item.SetsProto) :
    Absorbs (ParseState.applyItem files options) (Overlay.proto proto).on item := by
  obtain ⟨q, rest, rfl⟩ := h
  intro s
  rw [applyItem_known (by decide), applyItem_known (by decide), applyKnown_proto, applyKnown_proto]
  rfl

/-- Another default port. -/
def Overlay.port (port : UInt16) : Overlay :=
  { Overlay.same with portDefault := fun _ => port }

theorem Overlay.misses_port (port : UInt16) (hsets : ¬ item.SetsPort) (huses : ¬ item.UsesPort) :
    (Overlay.port port).Misses files options item where
  proto _ := rfl
  port h := (h.elim hsets huses).elim
  wrap _ := rfl
  caPem _ := rfl
  certificatePem _ := rfl
  rejected _ _ _ := rfl

theorem absorbs_port (port : UInt16) (h : item.SetsPort) :
    Absorbs (ParseState.applyItem files options) (Overlay.port port).on item := by
  obtain ⟨keyword, q, rest, hkey, rfl⟩ := h
  intro s
  rw [applyItem_known (notDangerous_port hkey), applyItem_known (notDangerous_port hkey),
    applyKnown_port hkey, applyKnown_port hkey]
  rfl

theorem protoLine_eq_none (hsets : ¬ item.SetsProto) : item.protoLine = none := by
  match item with
  | .unterminated _ | .block _ _ | .directive _ [] => grind [Item.protoLine]
  | .directive keyword (proto :: rest) =>
    refine if_neg ?_
    rintro rfl
    exact hsets ⟨proto, rest, rfl⟩

theorem portLine_eq_none (hsets : ¬ item.SetsPort) : item.portLine = none := by
  match item with
  | .unterminated _ | .block _ _ | .directive _ [] => grind [Item.portLine]
  | .directive keyword (port :: rest) =>
    exact if_neg fun hkey => hsets ⟨keyword, port, rest, hkey, rfl⟩

theorem protoDefault_kept (hsets : ¬ item.SetsProto) (h : s.applyItem files options item = .ok t) :
    t.protoDefault = s.protoDefault := by
  have hproto := (effect_of_apply h).defaults.2.1
  rwa [protoLine_eq_none hsets] at hproto

theorem portDefault_kept (hsets : ¬ item.SetsPort) (h : s.applyItem files options item = .ok t) :
    t.portDefault = s.portDefault := by
  have hport := (effect_of_apply h).defaults.2.2.1
  rwa [portLine_eq_none hsets] at hport

theorem exists_protoOf_ne (transport : Transport) : ∃ proto, transport ≠ protoOf proto := by
  cases transport
  · exact ⟨"tcp", by decide +kernel⟩
  · exact ⟨"", by decide⟩

theorem usesProto_step (huses : item.UsesProto) (h : s.applyItem files options item = .ok t) :
    t.sawRemote = true ∧
      t.profile.remotes.getLast?.map RemoteEntry.transport = some (protoOf s.protoDefault) := by
  obtain ⟨args, rfl, hargs⟩ := huses
  rw [applyItem_known (by decide)] at h
  cases h
  obtain _ | ⟨host, _ | ⟨port, _ | ⟨proto, rest⟩⟩⟩ := args
  · simp at hargs
  · simp [ParseState.applyKnown, ParseState.applyRemote, protoOf]
  · simp [ParseState.applyKnown, ParseState.applyRemote, protoOf]
  · simp at hargs

theorem usesPort_step (huses : item.UsesPort) (h : s.applyItem files options item = .ok t) :
    t.sawRemote = true ∧
      t.profile.remotes.getLast?.map RemoteEntry.port = some s.portDefault := by
  obtain ⟨host, rfl⟩ | ⟨host, port, rest, rfl, hzero⟩ := huses
  · rw [applyItem_known (by decide)] at h
    cases h
    simp [ParseState.applyKnown, ParseState.applyRemote]
  · rw [applyItem_known (by decide)] at h
    cases h
    simp [ParseState.applyKnown, ParseState.applyRemote, hzero]

theorem setsField_proto
    (hok : ∀ i ∈ behind, ∀ s, ∃ t, ParseState.applyItem files options s i = .ok t)
    (h : Reaches Item.UsesProto Item.SetsProto behind) (proto : String) (rest : List String) :
    SetsField files options (.directive "proto" (proto :: rest)) behind := by
  obtain ⟨q, hq⟩ := exists_protoOf_ne (protoOf proto)
  exact setsField_default (s := { profile := {}, protoDefault := q })
    (fun _ _ _ => protoDefault_kept) (fun _ _ _ => usesProto_step) hok h
    (applyItem_known (by decide) _) hq

theorem setsField_port {keyword : String} (hkey : keyword = "port" ∨ keyword = "rport")
    (hok : ∀ i ∈ behind, ∀ s, ∃ t, ParseState.applyItem files options s i = .ok t)
    (h : Reaches Item.UsesPort Item.SetsPort behind) (port : String) (rest : List String) :
    SetsField files options (.directive keyword (port :: rest)) behind := by
  refine setsField_default (f := id)
    (s := { profile := {}, portDefault := (Str.strtoul port.toList).toUInt16 + 1 })
    (fun _ _ _ => portDefault_kept) (fun _ _ _ => usesPort_step) hok h
    (applyItem_known (notDangerous_port hkey) _) ?_
  rw [applyKnown_port hkey]
  simp

end Defaults

/-! ## Items that do neither -/

section Silent

variable {files : SideFiles} {options : OvpnParseOptions} {item : Item} {behind : List Item}
  {o : Overlay} {keyword : String} {args : List String}

/-- An item that does no more than an overlay of neither the profile nor the
report, which no item behind it sees. -/
theorem silent (hprofile : ∀ p, o.onProfile p = p) (hreport : ∀ r, o.onReport r = r)
    (hstep : ∀ s : ParseState, s.applyItem files options item = .ok (o.on s))
    (hunseen : ∀ n (s : ParseState),
      (behind.take n).foldlM (ParseState.applyItem files options) (o.on s) =
          (behind.take n).foldlM (ParseState.applyItem files options) s ∨
        (behind.take n).foldlM (ParseState.applyItem files options) (o.on s) =
          ((behind.take n).foldlM (ParseState.applyItem files options) s).map o.on) :
    ¬ SetsField files options item behind ∧ ∀ (s s' : ParseState) (name : String),
      s.applyItem files options item = .ok s' → ¬ Names name s.report s'.report := by
  refine ⟨?_, fun s s' name h => ?_⟩
  · rintro ⟨s, n, r, r', hr, hr', hne⟩
    rw [parseFrom, List.foldlM_cons, hstep] at hr
    change (behind.take n).foldlM _ (o.on s) >>= ParseState.finish = .ok r at hr
    rcases hunseen n s with h | h
    · rw [h] at hr
      rw [parseFrom, hr] at hr'
      cases hr'
      exact hne rfl
    · rw [h] at hr
      rw [parseFrom] at hr'
      cases ht : (behind.take n).foldlM (ParseState.applyItem files options) s with
      | error status =>
        rw [ht] at hr'
        cases hr'
      | ok t =>
        rw [ht] at hr hr'
        change (o.on t).finish = .ok r at hr
        change t.finish = .ok r' at hr'
        rw [Overlay.finish_on, hr'] at hr
        cases hr
        exact hne (hprofile _)
  · rw [hstep] at h
    cases h
    have hsame : (o.on s).report = s.report := hreport s.report
    rw [hsame]
    rintro (h | h | ⟨warning, h, -⟩) <;> simp at h

/-- An item that leaves the state as it is. -/
theorem silent_id (hstep : ∀ s : ParseState, s.applyItem files options item = .ok s) :
    ¬ SetsField files options item behind ∧ ∀ (s s' : ParseState) (name : String),
      s.applyItem files options item = .ok s' → ¬ Names name s.report s'.report :=
  silent (o := .same) (fun _ => rfl) (fun _ => rfl) hstep fun _ _ => .inl rfl

/-- Other values of the flags that nothing reads. -/
def Overlay.flags (auth crypt : Bool) : Overlay :=
  { Overlay.same with
    hasTlsAuth := (· || auth)
    hasTlsCrypt := (· || crypt)
    hasTlsAuth_true := Bool.true_or auth
    hasTlsCrypt_true := Bool.true_or crypt }

theorem passes_flags (auth crypt : Bool) (item : Item) :
    Passes (ParseState.applyItem files options) (Overlay.flags auth crypt).on item :=
  Overlay.Misses.passes ⟨fun _ => rfl, fun _ => rfl, fun _ => rfl, fun _ => rfl, fun _ => rfl,
    fun _ _ _ => rfl⟩

/-- A block of another tag does no more than to set a flag that nothing reads. -/
theorem silent_block {tag body : List Char} (h : ¬ (Stored tag ∨ tag = "key".toList)) :
    ¬ SetsField files options (.block tag body) behind ∧ ∀ (s s' : ParseState) (name : String),
      s.applyItem files options (.block tag body) = .ok s' → ¬ Names name s.report s'.report := by
  obtain ⟨hstored, hkey⟩ := not_or.mp h
  obtain ⟨hca, hcert⟩ := not_or.mp hstored
  by_cases hauth : tag = "tls-auth".toList
  · subst hauth
    refine silent (o := .flags true false) (fun _ => rfl) (fun _ => rfl) (fun s => ?_)
      fun n s => .inr (foldlM_passes (fun i _ => passes_flags true false i) s)
    simp [ParseState.applyItem, ParseState.applyBlock, Overlay.flags, Overlay.same, Overlay.on,
      Overlay.onProfile, Overlay.onCertificates, Overlay.onReport]
  by_cases hcrypt : tag = "tls-crypt".toList
  · subst hcrypt
    refine silent (o := .flags false true) (fun _ => rfl) (fun _ => rfl) (fun s => ?_)
      fun n s => .inr (foldlM_passes (fun i _ => passes_flags false true i) s)
    simp [ParseState.applyItem, ParseState.applyBlock, Overlay.flags, Overlay.same, Overlay.on,
      Overlay.onProfile, Overlay.onCertificates, Overlay.onReport]
  refine silent_id fun s => ?_
  simp only [ParseState.applyItem, ParseState.applyBlock, if_neg hca, if_neg hcert, if_neg hkey,
    if_neg hauth, if_neg hcrypt]

/-- A directive that fits, with a default that no remote takes. -/
theorem silent_directive (hfit : (Item.directive keyword args).Fit)
    (h : ¬ Heard (.directive keyword args) behind) :
    ¬ SetsField files options (.directive keyword args) behind ∧
      ∀ (s s' : ParseState) (name : String),
        s.applyItem files options (.directive keyword args) = .ok s' →
          ¬ Names name s.report s'.report := by
  have hneeded := hfit.1
  by_cases hproto : keyword = "proto"
  · subst hproto
    obtain _ | ⟨proto, rest⟩ := args
    · exact absurd hneeded (by decide)
    refine silent (o := Overlay.proto proto) (fun _ => rfl) (fun _ => rfl) (fun s => ?_)
      (unseen_default (fun i => Overlay.misses_proto proto) (fun i => absorbs_proto proto)
        fun hreach => h ⟨hfit, fun _ => hreach, fun hp => absurd hp (by decide)⟩)
    rw [applyItem_known (by decide), applyKnown_proto]
    rfl
  by_cases hport : keyword = "port" ∨ keyword = "rport"
  · obtain _ | ⟨port, rest⟩ := args
    · rcases hport with rfl | rfl <;> exact absurd hneeded (by decide)
    refine silent (o := Overlay.port (Str.strtoul port.toList).toUInt16) (fun _ => rfl) (fun _ => rfl)
      (fun s => ?_) (unseen_default (fun i => Overlay.misses_port _) (fun i => absorbs_port _)
        fun hreach => h ⟨hfit, fun hp => absurd hp hproto, fun _ => hreach⟩)
    rw [applyItem_known (notDangerous_port hport), applyKnown_port hport]
    rfl
  · exact absurd ⟨hfit, fun hp => absurd hp hproto, fun hp => absurd hp hport⟩ h

theorem report_mtu (hkey : keyword = "mssfix" ∨ keyword = "tun-mtu") (s : ParseState) :
    (s.applyKnown files options keyword args).report = s.report := by
  obtain _ | ⟨mtu, rest⟩ := args
  · rcases hkey with rfl | rfl <;> simp [ParseState.applyKnown]
  · have hstep : s.applyKnown files options keyword (mtu :: rest) =
        if 576 ≤ Str.strtoul mtu.toList ∧ Str.strtoul mtu.toList ≤ 9000 then
          s.setOptions ({ · with mtu := some (Str.strtoul mtu.toList) })
        else s := by
      rcases hkey with rfl | rfl <;> simp [ParseState.applyKnown]
    rw [hstep]
    split <;> rfl

/-- The directives that never add to the report. -/
theorem report_quiet (hkey : keyword ∈ ["remote", "proto", "port", "rport", "mssfix", "tun-mtu", "auth",
      "verify-x509-name", "tls-auth", "tls-crypt", "tls-crypt-v2", "keepalive", "http-proxy",
      "socks-proxy"]) (s : ParseState) :
    (s.applyKnown files options keyword args).report = s.report := by
  simp only [List.mem_cons, List.not_mem_nil, or_false] at hkey
  rcases hkey with rfl | rfl | rfl | rfl | rfl | rfl | rfl | rfl | rfl | rfl | rfl | rfl | rfl | rfl
  iterate 4
    obtain _ | ⟨first, rest⟩ := args <;> simp [ParseState.applyKnown, ParseState.applyRemote]
  · exact report_mtu (.inl rfl) s
  · exact report_mtu (.inr rfl) s
  iterate 2
    obtain _ | ⟨first, rest⟩ := args <;>
      simp [ParseState.applyKnown, ParseState.setOptions, ParseState.setCertificates]
  iterate 3 simp [ParseState.applyKnown, ParseState.setCertificates]
  iterate 3
    obtain _ | ⟨first, _ | ⟨second, rest⟩⟩ := args <;>
      simp [ParseState.applyKnown, ParseState.setOptions]

/-- The directives that may add to the report need an argument for it. -/
theorem applyKnown_bare (hkey : keyword ∈ ["cipher", "data-ciphers", "ca", "cert", "key"])
    (s : ParseState) : s.applyKnown files options keyword [] = s := by
  simp only [List.mem_cons, List.not_mem_nil, or_false] at hkey
  rcases hkey with rfl | rfl | rfl | rfl | rfl <;>
    simp [ParseState.applyKnown, ParseState.applyCiphers, ParseState.applySideFile]

/-- A directive that does not fit adds nothing to the report. -/
theorem report_of_not_fit (h : ¬ (Item.directive keyword args).Fit) :
    keyword ∉ dangerousDirectives ∧
      ∀ s : ParseState, (s.applyKnown files options keyword args).report = s.report := by
  by_cases hquiet : keyword ∈ ["remote", "proto", "port", "rport", "mssfix", "tun-mtu", "auth",
      "verify-x509-name", "tls-auth", "tls-crypt", "tls-crypt-v2", "keepalive", "http-proxy",
      "socks-proxy"]
  · have hsafe : ∀ key ∈ ["remote", "proto", "port", "rport", "mssfix", "tun-mtu", "auth",
        "verify-x509-name", "tls-auth", "tls-crypt", "tls-crypt-v2", "keepalive", "http-proxy",
        "socks-proxy"], key ∉ dangerousDirectives := by decide +kernel
    exact ⟨hsafe keyword hquiet, report_quiet hquiet⟩
  by_cases hloud : keyword ∈ ["cipher", "data-ciphers", "ca", "cert", "key"]
  · have hsafe : ∀ key ∈ ["cipher", "data-ciphers", "ca", "cert", "key"],
        key ∉ dangerousDirectives ∧ neededArgs key = 1 := by decide +kernel
    obtain ⟨hd, hone⟩ := hsafe keyword hloud
    have hnone : numbers keyword args = [] := by
      simp only [List.mem_cons, List.not_mem_nil, or_false] at hloud
      rcases hloud with rfl | rfl | rfl | rfl | rfl <;> simp [numbers]
    obtain _ | ⟨first, rest⟩ := args
    · exact ⟨hd, fun s => congrArg ParseState.report (applyKnown_bare hloud s)⟩
    · refine absurd ⟨?_, fun number hnumber => ?_⟩ h
      · rw [hone, List.length_cons]
        omega
      · rw [hnone] at hnumber
        cases hnumber
  · -- no other directive needs an argument or has a number
    simp only [List.mem_cons, List.not_mem_nil, or_false, not_or] at hquiet hloud
    refine absurd ⟨?_, fun number hnumber => ?_⟩ h
    · simp [neededArgs, hquiet, hloud]
    · simp [numbers, hquiet] at hnumber

theorem not_named_of_not_fit (h : ¬ item.Fit) {s s' : ParseState}
    (hs : s.applyItem files options item = .ok s') (name : String) :
    ¬ Names name s.report s'.report := by
  cases item with
  | unterminated tag => cases hs
  | block tag body =>
    have hsilent : ¬ (Stored tag ∨ tag = "key".toList) → ¬ SetsField files options (.block tag body) [] ∧ _ :=
      silent_block
    refine (hsilent fun hknown => h ?_).2 s s' name hs
    rcases hknown with (rfl | rfl) | rfl <;> simp [Item.Fit]
  | directive keyword args =>
    obtain ⟨hd, hreport⟩ := report_of_not_fit h
    rw [applyItem_known hd] at hs
    cases hs
    rw [hreport]
    rintro (h | h | ⟨warning, h, -⟩) <;> simp at h

end Silent

/-! ## Every item -/

section Every

variable {files : SideFiles} {options : OvpnParseOptions} {item : Item} {behind : List Item}

theorem accounted_of_heard (h : Heard item behind)
    (hok : ∀ i ∈ behind, ∀ s, ∃ t, ParseState.applyItem files options s i = .ok t) :
    SetsField files options item behind ∨ ∀ s s' : ParseState,
      s.applyItem files options item = .ok s' → Names item.name s.report s'.report := by
  cases item with
  | unterminated tag => exact h.elim
  | block tag body =>
    refine (accounted_block h).imp_right fun hnames s s' hs => ?_
    cases hs
    exact hnames s
  | directive keyword args =>
    by_cases hd : keyword ∈ dangerousDirectives
    · refine .inr fun s s' hs => ?_
      simp only [ParseState.applyItem, ParseState.applyDirective] at hs
      rw [if_pos (by simpa using hd)] at hs
      split at hs
      · cases hs
      · cases hs
        exact .inr (.inl rfl)
    · obtain ⟨hfit, hproto, hport⟩ := h
      have hneeded := hfit.1
      refine (accounted_directive hfit (fun hkey => ?_) fun hkey => ?_).imp_right
        fun hnames s s' hs => ?_
      · obtain _ | ⟨proto, rest⟩ := args
        · subst hkey
          exact absurd hneeded (by decide)
        · subst hkey
          exact setsField_proto hok (hproto rfl) proto rest
      · obtain _ | ⟨port, rest⟩ := args
        · rcases hkey with rfl | rfl <;> exact absurd hneeded (by decide)
        · exact setsField_port hkey hok (hport hkey) port rest
      · rw [applyItem_known hd] at hs
        cases hs
        exact hnames s

theorem fit_of_heard (h : Heard item behind) : item.Fit := by
  cases item with
  | unterminated tag => exact h.elim
  | block tag body => rcases h with (rfl | rfl) | rfl <;> simp [Item.Fit]
  | directive keyword args => exact h.1

theorem heard_of_accounted {r : ImportReport} {s s' : ParseState}
    (hs : s.applyItem files options item = .ok s')
    (h : AccountedFor files options r item behind s s') : Heard item behind := by
  by_cases hfit : item.Fit
  · refine Classical.byContradiction fun hheard => ?_
    have hsilent : ¬ SetsField files options item behind ∧ ∀ (s s' : ParseState) (name : String),
        s.applyItem files options item = .ok s' → ¬ Names name s.report s'.report := by
      cases item with
      | unterminated tag => cases hs
      | block tag body => exact silent_block hheard
      | directive keyword args => exact silent_directive hfit hheard
    rcases h.1 with hsets | hreported
    · exact hsilent.1 hsets
    · exact hsilent.2 s s' _ hs hreported.1
  · exact absurd (h.2 hfit).1 (not_named_of_not_fit hfit hs _)

/-- An import accounts for every line outside the blocks and for every block
exactly if the items of the text are `Heard` where they stand. -/
theorem accounted_iff {text : List Char} {r : ImportReport}
    (h : parseOvpn files options text = .ok r) :
    Accounted files options text r ↔
      ∀ before item behind, items (Str.split '\n' text) = before ++ item :: behind →
        Heard item behind := by
  rw [parseOvpn_eq] at h
  obtain ⟨u, hrun, hr⟩ := Result.bind_eq_ok_iff.mp h
  refine ⟨fun hall before item behind heq => ?_, fun hheard line rest htop hline => ?_⟩
  · obtain ⟨line, rest, htop, hline, hitem⟩ := exists_line heq
    obtain ⟨before', item', behind', s, s', -, hitem', -, hs', haccounted⟩ := hall line rest htop hline
    rw [hitem] at hitem'
    obtain ⟨rfl, rfl⟩ := List.cons.inj hitem'
    exact heard_of_accounted hs' haccounted
  · obtain ⟨item, behind, hitem⟩ := exists_item hline rest
    obtain ⟨before, heq⟩ := htop.items_eq
    rw [hitem] at heq
    have hitemHeard := hheard before item behind heq
    rw [heq] at hrun
    obtain ⟨s, hs, hrest⟩ := foldlM_append_ok.mp hrun
    obtain ⟨s', hs', hbehind⟩ := foldlM_cons_ok.mp hrest
    refine ⟨before, item, behind, s, s', heq, hitem, hs, hs', ?_, fun hfit => ?_⟩
    · exact (accounted_of_heard hitemHeard (foldlM_ok_mem hbehind)).imp_right
        fun hnames => ⟨hnames s s' hs', (foldlM_within hbehind).trans (finish_within hr)⟩
    · exact absurd (fit_of_heard hitemHeard) hfit

end Every

/-- A port that the remote behind it takes. -/
def portFirst : List Char := "port 443\nremote vpn.example.net".toList

theorem items_portFirst : items (Str.split '\n' portFirst) =
    [.directive "port" ["443"], .directive "remote" ["vpn.example.net"]] := by
  decide +kernel

theorem port_first_is_accounted : ∃ r, parseOvpn noFiles {} portFirst = .ok r ∧
    Accounted noFiles {} portFirst r := by
  have hport : ParseState.applyItem noFiles {} (.initial {} portFirst) (.directive "port" ["443"]) =
      .ok { ParseState.initial {} portFirst with portDefault := 443 } := applyItem_known (by decide) _
  have hremote : ParseState.applyItem noFiles {}
      { ParseState.initial {} portFirst with portDefault := 443 }
      (.directive "remote" ["vpn.example.net"]) = .ok (ParseState.applyRemote
        { ParseState.initial {} portFirst with portDefault := 443 } ["vpn.example.net"]) :=
    applyItem_known (by decide) _
  obtain ⟨r, hr⟩ : ∃ r, parseOvpn noFiles {} portFirst = .ok r := by
    rw [parseOvpn_eq, items_portFirst,
      foldlM_cons_ok.mpr ⟨_, hport, foldlM_cons_ok.mpr ⟨_, hremote, rfl⟩⟩]
    exact ⟨_, rfl⟩
  refine ⟨r, hr, (accounted_iff hr).mpr fun before item behind heq => ?_⟩
  rw [items_portFirst] at heq
  obtain _ | ⟨i, _ | ⟨j, before⟩⟩ := before
  · obtain ⟨rfl, rfl⟩ := List.cons.inj heq
    have hnumber : NumberText 1 65535 "443" :=
      ⟨443, (Str.digits_eq_some_iff (by decide)).mp (by decide), by decide, by decide⟩
    refine ⟨⟨by decide, fun number hmem => ?_⟩, fun h => absurd h (by decide), fun _ => ?_⟩
    · obtain rfl : number = "443" := by simpa [numbers] using hmem
      simpa [InRange] using hnumber
    · exact ⟨[], _, [], rfl, .inl ⟨_, rfl⟩, by simp⟩
  · obtain ⟨rfl, rfl⟩ := List.cons.inj (List.cons.inj heq).2
    exact ⟨⟨by decide, by simp [numbers]⟩, fun h => absurd h (by decide), fun h => absurd h (by decide)⟩
  · simp at heq

/-- A certificate in a block that the parser does not know. -/
def unknownBlock : List Char := "remote vpn.example.net\n<pkcs12>\nMIIK\n</pkcs12>".toList

theorem items_unknownBlock : items (Str.split '\n' unknownBlock) =
    [.directive "remote" ["vpn.example.net"], .block "pkcs12".toList "MIIK\n".toList] := by
  decide +kernel

/-- The block sets no field, and no list of the report has its tag. -/
theorem unknown_block_is_silent : ∃ r, parseOvpn noFiles {} unknownBlock = .ok r ∧
    r.ignoredDirectives = [] ∧ r.rejectedDirectives = [] ∧
    r.warnings = ["configuration has no CA certificate; the server cannot be authenticated until " ++
      "one is provided"] ∧
    ¬ Accounted noFiles {} unknownBlock r := by
  have hremote : ParseState.applyItem noFiles {} (.initial {} unknownBlock)
      (.directive "remote" ["vpn.example.net"]) =
      .ok ((ParseState.initial {} unknownBlock).applyRemote ["vpn.example.net"]) :=
    applyItem_known (by decide) _
  rw [parseOvpn_eq, items_unknownBlock, List.foldlM_cons, hremote]
  refine ⟨_, rfl, rfl, rfl, rfl, fun hall => ?_⟩
  obtain ⟨line, rest, htop, hline, hitem⟩ := @exists_line _ [_] _ _ items_unknownBlock
  obtain ⟨before, item, behind, s, s', -, hitem', -, hs', haccounted⟩ := hall line rest htop hline
  rw [hitem] at hitem'
  obtain ⟨rfl, rfl⟩ := List.cons.inj hitem'
  have hheard : Stored "pkcs12".toList ∨ "pkcs12".toList = "key".toList :=
    heard_of_accounted hs' haccounted
  exact absurd hheard (by decide)

end NovaVpn.Profiles
