import NovaVpn.Profiles.OvpnExport
import NovaVpn.Profiles.OvpnSteps

/-!
# An export read back

The parser takes the items of an export without an error (`takes_export`), so
the settings that come back can be read off the items. Whatever it reads, they
have no line break, and no line of a certificate closes its block
(`Clean.parse`). Together: an export comes back as it was exactly if it is
`Writable` (`export_import_iff`).
-/

namespace NovaVpn.Profiles

/-! ## What the parser makes of them -/

/-- What an export is compared by, and what the parser finds it by. -/
structure Gist where
  remotes : List RemoteEntry := []
  shuffleRemotes : Bool := false
  redirectGateway : Bool := true
  cipher : String := ""
  digest : String := ""
  verifyName : String := ""
  mtu : Option UInt32 := none
  caPem : String := ""
  certificatePem : String := ""
  authMethod : AuthMethod := .certificate
  sawRemote : Bool := false
  sawAuthUserPass : Bool := false
  protoDefault : String := ""
  portDefault : UInt16 := 1194

namespace ParseState

def gist (s : ParseState) : Gist where
  remotes := s.profile.remotes
  shuffleRemotes := s.profile.options.shuffleRemotes
  redirectGateway := s.profile.options.redirectGateway
  cipher := s.profile.options.cipherOverride
  digest := s.profile.options.authDigestOverride
  verifyName := s.profile.certificates.verifyX509Name
  mtu := s.profile.options.mtu
  caPem := s.profile.certificates.caPem
  certificatePem := s.profile.certificates.certificatePem
  authMethod := s.profile.authMethod
  sawRemote := s.sawRemote
  sawAuthUserPass := s.sawAuthUserPass
  protoDefault := s.protoDefault
  portDefault := s.portDefault

theorem gist_initial (options : OvpnParseOptions) (text : List Char) :
    (initial options text).gist = {} := rfl

/-- Warnings are not looked at. -/
theorem gist_warnAll (warning : String → String) (l : List String) (s : ParseState) :
    (l.foldl (fun s a => s.warn (warning a)) s).gist = s.gist := by
  induction l generalizing s with
  | nil => rfl
  | cons a l ih => exact ih (s.warn (warning a))

theorem gist_applyCiphers (s : ParseState) (args : List String) :
    (s.applyCiphers args).gist = { s.gist with cipher := args.head?.getD s.gist.cipher } := by
  cases args with
  | nil => rfl
  | cons first rest => exact gist_warnAll _ _ _

end ParseState

theorem ParseState.gist_applyRemote (s : ParseState) (args : List String) :
    (s.applyRemote args).gist =
      { s.gist with
        remotes := s.gist.remotes ++ remoteOf s.gist.protoDefault s.gist.portDefault args
        sawRemote := s.gist.sawRemote || !args.isEmpty } := by
  cases args with
  | nil => simp [applyRemote, gist, remoteOf]
  | cons host rest =>
    cases rest with
    | nil => simp [applyRemote, gist, remoteOf]
    | cons port rest =>
      cases rest <;> simp [applyRemote, gist, remoteOf]

section Takes

variable {files : SideFiles} {options : OvpnParseOptions} {l l' : List Item} {f f' : Gist → Gist}

/-- The parser takes the items without an error, and does this to the gist. -/
def Takes (files : SideFiles) (options : OvpnParseOptions) (l : List Item) (f : Gist → Gist) : Prop :=
  ∀ s, ∃ t, l.foldlM (ParseState.applyItem files options) s = .ok t ∧ t.gist = f s.gist

namespace Takes

theorem nil : Takes files options [] id := fun s => ⟨s, rfl, rfl⟩

theorem append (h : Takes files options l f) (h' : Takes files options l' f') :
    Takes files options (l ++ l') (f' ∘ f) := by
  intro s
  obtain ⟨t, ht, hgist⟩ := h s
  obtain ⟨t', ht', hgist'⟩ := h' t
  refine ⟨t', ?_, by rw [hgist', hgist]; rfl⟩
  rw [List.foldlM_append, ht]
  exact ht'

theorem directive {keyword : String} {args : List String} (hknown : keyword ∉ dangerousDirectives)
    (h : ∀ s : ParseState, (s.applyKnown files options keyword args).gist = f s.gist) :
    Takes files options [.directive keyword args] f := fun s =>
  ⟨s.applyKnown files options keyword args, by
    rw [List.foldlM_cons, applyItem_known hknown]
    rfl, h s⟩

theorem block {tag body : List Char}
    (h : ∀ s : ParseState, (s.applyBlock tag body).gist = f s.gist) :
    Takes files options [.block tag body] f := fun s => ⟨s.applyBlock tag body, rfl, h s⟩

theorem congr (h : Takes files options l f) (hf : ∀ g, f g = f' g) : Takes files options l f' := by
  intro s
  obtain ⟨t, ht, hgist⟩ := h s
  exact ⟨t, ht, by rw [hgist, hf]⟩

theorem ite {c : Prop} [Decidable c] (h : ¬ c → Takes files options l f) :
    Takes files options (if c then [] else l) fun g => if c then g else f g := by
  by_cases hc : c
  · simp only [if_pos hc]
    exact nil
  · simp only [if_neg hc]
    exact h hc

theorem ite_else {c : Prop} [Decidable c] (h : c → Takes files options l f) :
    Takes files options (if c then l else []) fun g => if c then f g else g := by
  by_cases hc : c
  · simp only [if_pos hc]
    exact h hc
  · simp only [if_neg hc]
    exact nil

end Takes

theorem takes_remotes (remotes : List (List String)) :
    Takes files options (remotes.map fun args => .directive "remote" args) fun g =>
      { g with
        remotes := g.remotes ++ remotes.flatMap (remoteOf g.protoDefault g.portDefault)
        sawRemote := g.sawRemote || remotes.any (!·.isEmpty) } := by
  induction remotes with
  | nil => exact Takes.nil.congr fun g => by simp
  | cons args remotes ih =>
    have hhead : Takes files options [.directive "remote" args] fun g =>
        { g with
          remotes := g.remotes ++ remoteOf g.protoDefault g.portDefault args
          sawRemote := g.sawRemote || !args.isEmpty } :=
      Takes.directive (by decide) fun s => s.gist_applyRemote args
    exact (hhead.append ih).congr fun g => by simp [List.append_assoc, Bool.or_assoc]

theorem takes_block {tag : List Char} {pem : String} {f : Gist → Gist}
    (h : ∀ s : ParseState, (s.applyBlock tag (blockBody (rawLines pem.toList))).gist = f s.gist) :
    Takes files options (blockItem tag pem) fun g => if pem.isEmpty then g else f g :=
  Takes.ite fun _ => Takes.block h

/-- What comes back of the lines of an inlined text. -/
def blockText (pem : String) : String := String.ofList (blockBody (rawLines pem.toList))

/-- What the parser makes of an MTU that was written. -/
def readMtu (mtu : UInt32) : Option UInt32 :=
  let read := Str.strtoul (Nat.toDigits 10 mtu.toNat)
  if read ≥ 576 && read ≤ 9000 then some read else none

/-- What the items of an export make of the gist. -/
def exportGist (p : Profile) : Gist where
  remotes := (p.remotes.map fun remote => argsOf (remoteText remote)).flatMap (remoteOf "" 1194)
  shuffleRemotes := p.options.shuffleRemotes
  cipher := (argsOf (Str.trimRight p.options.cipherOverride.toList)).head?.getD ""
  digest := (argsOf (Str.trimRight p.options.authDigestOverride.toList)).head?.getD ""
  verifyName :=
    if p.certificates.verifyX509Name.isEmpty then ""
    else (argsOf (p.certificates.verifyX509Name.toList ++ " name".toList)).head?.getD ""
  mtu := p.options.mtu.bind readMtu
  caPem := if p.certificates.caPem.isEmpty then "" else blockText p.certificates.caPem
  certificatePem :=
    if p.certificates.certificatePem.isEmpty then "" else blockText p.certificates.certificatePem
  sawRemote := (p.remotes.map fun remote => argsOf (remoteText remote)).any (!·.isEmpty)
  sawAuthUserPass := p.authMethod.requiresPassword

theorem takes_cipher (value : String) :
    Takes files options
      (if value.isEmpty then [] else [.directive "cipher" (argsOf (Str.trimRight value.toList))])
      fun g => { g with cipher := (argsOf (Str.trimRight value.toList)).head?.getD g.cipher } := by
  have hdirective : ∀ args, Takes files options [.directive "cipher" args] fun g =>
      { g with cipher := args.head?.getD g.cipher } := fun args =>
    Takes.directive (by decide) fun s => s.gist_applyCiphers args
  refine Takes.congr (Takes.ite fun _ => hdirective _) fun g => ?_
  split
  · next hempty => rw [String.isEmpty_iff.mp hempty]; rfl
  · rfl

theorem takes_digest (value : String) :
    Takes files options
      (if value.isEmpty then [] else [.directive "auth" (argsOf (Str.trimRight value.toList))])
      fun g => { g with digest := (argsOf (Str.trimRight value.toList)).head?.getD g.digest } := by
  have hdirective : ∀ args, Takes files options [.directive "auth" args] fun g =>
      { g with digest := args.head?.getD g.digest } := fun args =>
    Takes.directive (by decide) fun s => by cases args <;> rfl
  refine Takes.congr (Takes.ite fun _ => hdirective _) fun g => ?_
  split
  · next hempty => rw [String.isEmpty_iff.mp hempty]; rfl
  · rfl

theorem takes_verifyName (name : String) :
    Takes files options
      (if name.isEmpty then []
        else [.directive "verify-x509-name" (argsOf (name.toList ++ " name".toList))])
      fun g => { g with
        verifyName := if name.isEmpty then g.verifyName
          else (argsOf (name.toList ++ " name".toList)).head?.getD g.verifyName } := by
  have hdirective : ∀ args, Takes files options [.directive "verify-x509-name" args] fun g =>
      { g with verifyName := args.head?.getD g.verifyName } := fun args =>
    Takes.directive (by decide) fun s => by cases args <;> rfl
  refine Takes.congr (Takes.ite fun _ => hdirective _) fun g => ?_
  split <;> rfl

theorem takes_mtu (mtu : Option UInt32) :
    Takes files options
      (mtu.elim [] fun mtu => [.directive "tun-mtu" [String.ofList (Nat.toDigits 10 mtu.toNat)]])
      fun g => { g with mtu := (mtu.bind readMtu).or g.mtu } := by
  cases mtu with
  | none => exact Takes.nil
  | some mtu =>
    refine Takes.directive (by decide) fun s => ?_
    have happly : ∀ text, (s.applyKnown files options "tun-mtu" [text]) =
        if Str.strtoul text.toList ≥ 576 && Str.strtoul text.toList ≤ 9000 then
          s.setOptions ({ · with mtu := some (Str.strtoul text.toList) }) else s := by
      intro text
      simp [ParseState.applyKnown]
    rw [happly, String.toList_ofList, Option.bind_some, readMtu]
    split <;> rfl

/-- A directive that is written if the condition holds. -/
theorem takes_flag {keyword : String} {args : List String} {c : Bool} {f f' : Gist → Gist}
    (hknown : keyword ∉ dangerousDirectives)
    (h : ∀ s : ParseState, (s.applyKnown files options keyword args).gist = f s.gist)
    (hf : ∀ g, (if c then f g else g) = f' g) :
    Takes files options (if c then [.directive keyword args] else []) f' :=
  (Takes.ite_else fun _ => Takes.directive hknown h).congr hf

theorem takes_export (p : Profile) : ∃ f, Takes files options (exportItems p) f ∧
    f {} = exportGist p := by
  have hclient : Takes files options [.directive "client" []] id :=
    Takes.directive (by decide) fun _ => rfl
  have hdev : Takes files options [.directive "dev" ["tun"]] id :=
    Takes.directive (by decide) fun _ => rfl
  have hremotes := @takes_remotes files options (p.remotes.map fun r => argsOf (remoteText r))
  rw [List.map_map] at hremotes
  have hshuffle : Takes files options
      (if p.options.shuffleRemotes then [.directive "remote-random" []] else []) fun g =>
        { g with shuffleRemotes := p.options.shuffleRemotes || g.shuffleRemotes } :=
    takes_flag (f := ({ · with shuffleRemotes := true })) (by decide) (fun _ => rfl) fun g => by
      cases p.options.shuffleRemotes <;> rfl
  have hpassword : Takes files options
      (if p.authMethod.requiresPassword then [.directive "auth-user-pass" []] else []) fun g =>
        { g with sawAuthUserPass := p.authMethod.requiresPassword || g.sawAuthUserPass } :=
    takes_flag (f := ({ · with sawAuthUserPass := true })) (by decide) (fun _ => rfl) fun g => by
      cases p.authMethod.requiresPassword <;> rfl
  have hredirect : Takes files options
      (if p.options.redirectGateway then [.directive "redirect-gateway" ["def1"]] else []) fun g =>
        { g with redirectGateway := p.options.redirectGateway || g.redirectGateway } :=
    takes_flag (f := ({ · with redirectGateway := true })) (by decide) (fun _ => rfl) fun g => by
      cases p.options.redirectGateway <;> rfl
  have hca := @takes_block files options "ca".toList p.certificates.caPem
    (fun g => { g with caPem := blockText p.certificates.caPem }) fun _ => rfl
  have hcert := @takes_block files options "cert".toList p.certificates.certificatePem
    (fun g => { g with certificatePem := blockText p.certificates.certificatePem }) fun _ => rfl
  refine ⟨_, (((((((((((hclient.append hdev).append hremotes).append hshuffle).append hpassword).append
    hredirect).append (takes_cipher _)).append (takes_digest _)).append (takes_verifyName _)).append
    (takes_mtu _)).append hca).append hcert), ?_⟩
  simp only [Function.comp, exportGist]
  cases p.certificates.caPem.isEmpty <;> cases p.certificates.certificatePem.isEmpty <;> simp

end Takes

/-! ## Plain settings -/

theorem readMtu_valid {mtu : UInt32} (hlo : 576 ≤ mtu) (hhi : mtu ≤ 9000) :
    readMtu mtu = some mtu := by
  have hread : Str.strtoul (Nat.toDigits 10 mtu.toNat) = mtu := by
    rw [Str.strtoul_toDigits (Nat.le_of_lt_succ mtu.toNat_lt), UInt32.ofNat_toNat]
  simp [readMtu, hread, hlo, hhi]

theorem ofList_eq_iff {text : List Char} {value : String} :
    String.ofList text = value ↔ text = value.toList := by
  constructor
  · rintro rfl
    exact String.toList_ofList.symm
  · rintro rfl
    exact String.ofList_toList

/-- The first argument is this one. -/
theorem head_argsOf {line : List Char} {value : String} :
    (argsOf line).head? = some value ↔ (tokens line).head? = some value.toList := by
  rw [argsOf, List.head?_map, Option.map_eq_some_iff]
  constructor
  · rintro ⟨text, htext, hvalue⟩
    rw [htext, ofList_eq_iff.mp hvalue]
  · intro h
    exact ⟨value.toList, h, String.ofList_toList⟩

theorem plain_of_head {line : List Char} {value : String} (h : (argsOf line).head? = some value)
    (hquotes : line.countP isQuote ≤ value.toList.countP isQuote) : Plain value.toList :=
  plain_of_mem_tokens (List.mem_of_mem_head? (head_argsOf.mp h)) hquotes

theorem countP_of_plain {text : List Char} (h : Plain text) : text.countP isQuote = 0 := by
  refine List.countP_eq_zero.mpr fun c hc hquote => ?_
  have hplain := h c hc
  simp [isPlain, hquote] at hplain

/-- A setting at the end of a line comes back if and only if it is plain and
does not end with white space. -/
theorem tail_iff (value : String) :
    (argsOf (Str.trimRight value.toList)).head?.getD "" = value ↔ PlainTail value := by
  by_cases hempty : value = ""
  · subst hempty
    exact iff_of_true rfl ⟨fun c hc => absurd hc List.not_mem_nil, rfl⟩
  have hne : value.toList ≠ [] := fun h => hempty (String.toList_eq_nil_iff.mp h)
  constructor
  · intro h
    have hhead : (argsOf (Str.trimRight value.toList)).head? = some value := by
      cases hh : (argsOf (Str.trimRight value.toList)).head? with
      | none =>
        rw [hh] at h
        exact absurd h.symm hempty
      | some first =>
        rw [hh] at h
        exact congrArg some h
    obtain ⟨w, -, hw⟩ := Str.exists_trimRight value.toList
    have hsub : (Str.trimRight value.toList).Sublist value.toList := by
      conv => rhs; rw [hw]
      exact List.sublist_append_left _ w
    have hplain := plain_of_head hhead hsub.countP_le
    refine ⟨hplain, ?_⟩
    have htrim : Str.trimRight value.toList ≠ [] := by
      intro hnil
      rw [hnil] at hhead
      cases hhead
    have hhead := head_argsOf.mp hhead
    rw [tokens_plain (fun c hc => hplain c (hsub.subset hc)) htrim] at hhead
    exact Option.some.inj hhead
  · rintro ⟨hplain, htrim⟩
    rw [htrim, argsOf, tokens_plain hplain hne, List.map_singleton, List.head?_cons,
      Option.getD_some, String.ofList_toList]

theorem verifyName_iff {name : String} :
    (if name.isEmpty then "" else (argsOf (name.toList ++ " name".toList)).head?.getD "") = name ↔
      Plain name.toList := by
  by_cases hempty : name = ""
  · subst hempty
    exact iff_of_true rfl fun c hc => absurd hc List.not_mem_nil
  have hne : name.toList ≠ [] := fun h => hempty (String.toList_eq_nil_iff.mp h)
  rw [if_neg (by rwa [String.isEmpty_iff])]
  constructor
  · intro h
    have hhead : (argsOf (name.toList ++ " name".toList)).head? = some name := by
      cases hh : (argsOf (name.toList ++ " name".toList)).head? with
      | none =>
        rw [hh] at h
        exact absurd h.symm hempty
      | some first =>
        rw [hh] at h
        exact congrArg some h
    refine plain_of_head hhead ?_
    rw [List.countP_append]
    exact Nat.le_of_eq rfl
  · intro hplain
    have htokens := tokens_plain_cons hplain hne (show isSeparator ' ' = true from rfl) "name".toList
    have hline : " name".toList = ' ' :: "name".toList := by decide
    rw [hline, argsOf, htokens, List.map_cons, List.head?_cons, Option.getD_some,
      String.ofList_toList]

/-- If each element gives at most one, and together they give what they should,
each gives its own. -/
theorem eq_singleton_of_flatMap {α β : Type} {f : α → List β} {g : α → β}
    (hf : ∀ a, (f a).length ≤ 1) {l : List α} (h : l.flatMap f = l.map g) :
    ∀ a ∈ l, f a = [g a] := by
  have hlength : ∀ l : List α, (l.flatMap f).length ≤ l.length := by
    intro l
    induction l with
    | nil => exact Nat.le_refl 0
    | cons a l ih =>
      have := hf a
      rw [List.flatMap_cons, List.length_append, List.length_cons]
      omega
  induction l with
  | nil => exact fun a ha => absurd ha List.not_mem_nil
  | cons a l ih =>
    rw [List.flatMap_cons, List.map_cons] at h
    cases hfa : f a with
    | nil =>
      have hshort := hlength l
      rw [hfa, List.nil_append] at h
      rw [h, List.length_cons, List.length_map] at hshort
      omega
    | cons b bs =>
      have hone := hf a
      rw [hfa, List.length_cons] at hone
      obtain rfl : bs = [] := List.eq_nil_of_length_eq_zero (by omega)
      rw [hfa, List.singleton_append, List.cons.injEq] at h
      refine List.forall_mem_cons.mpr ⟨?_, ih h.2⟩
      rw [hfa, h.1]

theorem length_remoteOf (protoDefault : String) (portDefault : UInt16) (args : List String) :
    (remoteOf protoDefault portDefault args).length ≤ 1 := by
  cases args <;> simp [remoteOf]

theorem parseProto_toText (transport : Transport) :
    parseProto (String.ofList transport.toText) = transport := by
  cases transport <;> decide

/-- The arguments of a plain remote. -/
theorem argsOf_remoteText {remote : RemoteEntry} (hplain : Plain remote.host.toList)
    (hne : remote.host.toList ≠ []) :
    argsOf (remoteText remote) = [remote.host, String.ofList (Nat.toDigits 10 remote.port.toNat),
      String.ofList remote.transport.toText] := by
  have htransport : remote.transport.toText ≠ [] := by cases remote.transport <;> decide
  have hline : remoteText remote = remote.host.toList ++ ' ' ::
      (Nat.toDigits 10 remote.port.toNat ++ ' ' :: remote.transport.toText) := by
    rw [remoteText, List.append_assoc, List.cons_append]
  have htokens := tokens_plain_cons hplain hne (show isSeparator ' ' = true from rfl)
    (Nat.toDigits 10 remote.port.toNat ++ ' ' :: remote.transport.toText)
  rw [tokens_plain_cons (plain_toDigits _) Nat.toDigits_ne_nil rfl,
    tokens_plain (plain_toText _) htransport] at htokens
  rw [hline, argsOf, htokens, List.map_cons, List.map_cons, List.map_singleton,
    String.ofList_toList]

/-- A remote that the exporter was given, without its label. -/
theorem remoteOf_plain {remote : RemoteEntry} (hplain : Plain remote.host.toList)
    (hne : remote.host.toList ≠ []) (hport : remote.port ≠ 0) :
    remoteOf "" 1194 (argsOf (remoteText remote)) = [{ remote with label := "" }] := by
  have hlt : remote.port.toNat < 65536 := remote.port.toNat_lt
  have hread : (Str.strtoul (Nat.toDigits 10 remote.port.toNat)).toUInt16 = remote.port := by
    rw [Str.strtoul_toDigits (by omega)]
    apply UInt16.toNat_inj.mp
    rw [UInt32.toNat_toUInt16, UInt32.toNat_ofNat']
    omega
  rw [argsOf_remoteText hplain hne]
  simp [remoteOf, hread, hport, parseProto_toText]

/-- What a remote is compared by. -/
def RemoteEntry.key (remote : RemoteEntry) : String × UInt16 × Transport :=
  (remote.host, remote.port, remote.transport)

theorem remotes_iff {remotes : List RemoteEntry}
    (hvalid : ∀ r ∈ remotes, r.host.toList ≠ [] ∧ r.port ≠ 0) :
    ((remotes.map fun r => argsOf (remoteText r)).flatMap (remoteOf "" 1194)).map RemoteEntry.key =
        remotes.map RemoteEntry.key ↔
      ∀ r ∈ remotes, Plain r.host.toList := by
  rw [List.flatMap_map, List.map_flatMap]
  constructor
  · intro h remote hr
    have hone : ∀ r, ((remoteOf "" 1194 (argsOf (remoteText r))).map RemoteEntry.key).length ≤ 1 :=
      fun r => by
        rw [List.length_map]
        exact length_remoteOf "" 1194 _
    have hremote := eq_singleton_of_flatMap hone h remote hr
    have hhead : (argsOf (remoteText remote)).head? = some remote.host := by
      cases hargs : argsOf (remoteText remote) with
      | nil =>
        rw [hargs] at hremote
        cases hremote
      | cons host rest =>
        rw [hargs] at hremote
        have hkey := (List.cons.inj hremote).1
        exact congrArg some (congrArg Prod.fst hkey)
    refine plain_of_head hhead ?_
    rw [remoteText, List.countP_append, List.countP_append, List.countP_cons_of_neg (by decide),
      List.countP_cons_of_neg (by decide), countP_of_plain (plain_toDigits _),
      countP_of_plain (plain_toText _)]
    exact Nat.le_of_eq rfl
  · intro hplain
    induction remotes with
    | nil => rfl
    | cons r remotes ih =>
      obtain ⟨hr, hvalid⟩ := List.forall_mem_cons.mp hvalid
      obtain ⟨hrp, hplain⟩ := List.forall_mem_cons.mp hplain
      rw [List.flatMap_cons, ih hvalid hplain, remoteOf_plain hrp hr.1 hr.2]
      rfl

/-! ## Certificates -/

theorem newline_notMem_trimRight {line : List Char} (h : '\n' ∉ line) : '\n' ∉ Str.trimRight line := by
  obtain ⟨w, -, hw⟩ := Str.exists_trimRight line
  rw [hw] at h
  exact fun hmem => h (List.mem_append_left w hmem)

theorem split_blockBody {lines : List (List Char)} (h : ∀ line ∈ lines, '\n' ∉ line) :
    Str.split '\n' (blockBody lines) = lines.map Str.trimRight ++ [[]] := by
  induction lines with
  | nil => rfl
  | cons line lines ih =>
    obtain ⟨hline, hlines⟩ := List.forall_mem_cons.mp h
    have hbody : blockBody (line :: lines) = Str.trimRight line ++ '\n' :: blockBody lines := by
      simp [blockBody]
    rw [hbody, Str.split, List.splitOn_append_cons_self_of_not_mem (newline_notMem_trimRight hline),
      ← Str.split, ih hlines]
    rfl

/-- The lines of a block come back without the white space at their ends. -/
theorem rawLines_blockBody {lines : List (List Char)} (h : ∀ line ∈ lines, '\n' ∉ line) :
    rawLines (blockBody lines) = lines.map Str.trimRight := by
  by_cases hnil : lines = []
  · rw [hnil]
    rfl
  have hbody : ∃ front, blockBody lines = front ++ ['\n'] := by
    have hlast := List.dropLast_concat_getLast hnil
    refine ⟨blockBody lines.dropLast ++ Str.trimRight (lines.getLast hnil), ?_⟩
    conv => lhs; rw [← hlast]
    simp [blockBody]
  obtain ⟨front, hfront⟩ := hbody
  have hsplit := split_blockBody h
  rw [hfront, Str.split, List.splitOn_append_cons_self, List.splitOn_nil] at hsplit
  have hraw : rawLines (blockBody lines) = Str.split '\n' front := by
    rw [hfront]
    simp [rawLines, chomp]
  rw [hraw]
  exact List.append_cancel_right hsplit

theorem newline_notMem_rawLines (text : List Char) : ∀ line ∈ rawLines text, '\n' ∉ line := by
  intro line hline
  unfold rawLines at hline
  split at hline
  · exact absurd hline List.not_mem_nil
  · exact Str.notMem_of_mem_split hline

theorem pemLines_blockBody {lines : List (List Char)} (h : ∀ line ∈ lines, '\n' ∉ line) :
    pemLines (String.ofList (blockBody lines)) = lines.map Str.trimRight := by
  rw [pemLines, String.toList_ofList, rawLines_blockBody h, List.map_map]
  exact List.map_congr_left fun line _ => Str.trimRight_trimRight line

/-- A certificate comes back up to the white space at the ends of its lines. -/
theorem pemLines_blockText (pem : String) :
    pemLines (if pem.isEmpty then "" else blockText pem) = pemLines pem := by
  by_cases hempty : pem = ""
  · subst hempty
    rfl
  rw [if_neg (by rwa [String.isEmpty_iff])]
  exact pemLines_blockBody (newline_notMem_rawLines pem.toList)

/-! ## What any configuration gives -/

/-- The settings have no line break, and the certificates no closing tag. -/
structure Clean (g : Gist) : Prop where
  hosts : ∀ remote ∈ g.remotes, '\n' ∉ remote.host.toList
  cipher : '\n' ∉ g.cipher.toList
  digest : '\n' ∉ g.digest.toList
  verifyName : '\n' ∉ g.verifyName.toList
  caPem : Unclosed "ca".toList g.caPem
  certificatePem : Unclosed "cert".toList g.certificatePem

/-- An item of a configuration that was split into lines. -/
def Item.Split : Item → Prop
  | .directive _ args => ∀ arg ∈ args, '\n' ∉ arg.toList
  | .block tag body => ∃ lines, body = blockBody lines ∧
      ∀ line ∈ lines, '\n' ∉ line ∧ closesTag tag line = false
  | .unterminated _ => True

theorem readInlineBlock_lines {tag body : List Char} {n : Nat} {rest : List (List Char)}
    (h : readInlineBlock tag rest = some (body, n)) :
    ∃ lines, body = blockBody lines ∧ ∀ line ∈ lines, line ∈ rest ∧ closesTag tag line = false := by
  induction rest generalizing body n with
  | nil => cases h
  | cons line rest ih =>
    rw [readInlineBlock] at h
    split at h
    · cases h
      exact ⟨[], rfl, fun _ hl => absurd hl List.not_mem_nil⟩
    · next hopen =>
      obtain ⟨⟨body', n'⟩, hread, heq⟩ := Option.map_eq_some_iff.mp h
      cases heq
      obtain ⟨lines, rfl, hlines⟩ := ih hread
      refine ⟨line :: lines, by simp [blockBody], List.forall_mem_cons.mpr ⟨⟨List.mem_cons_self,
        eq_false_of_ne_true hopen⟩, fun l hl => ?_⟩⟩
      exact ⟨List.mem_cons_of_mem _ (hlines l hl).1, (hlines l hl).2⟩

theorem newline_notMem_trim {line : List Char} (h : '\n' ∉ line) : '\n' ∉ Str.trim line :=
  newline_notMem_trimRight fun hmem => h ((List.dropWhile_suffix _).subset hmem)

theorem split_directiveOf {raw : List Char} (h : '\n' ∉ raw) :
    ∀ item ∈ directiveOf raw, item.Split := by
  intro item hitem
  rw [directiveOf, tokenizeOvpnLine_eq, Option.map_map, Option.mem_def, Option.map_eq_some_iff] at hitem
  obtain ⟨keyword, -, rfl⟩ := hitem
  intro arg harg
  obtain ⟨token, htoken, rfl⟩ := List.mem_map.mp harg
  rw [String.toList_ofList]
  exact fun hmem => h (mem_of_mem_token (List.mem_of_mem_tail htoken) hmem)

theorem split_items {lines : List (List Char)} (h : ∀ line ∈ lines, '\n' ∉ line) (skip : Nat) :
    ∀ item ∈ itemsAfter skip lines, item.Split := by
  induction lines generalizing skip with
  | nil =>
    intro item hitem
    simp [itemsAfter] at hitem
  | cons line rest ih =>
    obtain ⟨hline, hrest⟩ := List.forall_mem_cons.mp h
    cases skip with
    | succ skip => exact ih hrest skip
    | zero =>
      intro item hitem
      rw [itemsAfter] at hitem
      cases htag : openingTag (Str.trim line) with
      | none =>
        simp only [htag] at hitem
        rcases List.mem_append.mp hitem with hitem | hitem
        · exact split_directiveOf (newline_notMem_trim hline) item (Option.mem_toList.mp hitem)
        · exact ih hrest 0 item hitem
      | some tag =>
        simp only [htag] at hitem
        cases hread : readInlineBlock tag rest with
        | none =>
          simp only [hread] at hitem
          rw [List.mem_singleton.mp hitem]
          trivial
        | some block =>
          simp only [hread] at hitem
          rcases List.mem_cons.mp hitem with rfl | hitem
          · obtain ⟨lines, hbody, hlines⟩ := readInlineBlock_lines hread
            exact ⟨lines, hbody, fun l hl => ⟨hrest l (hlines l hl).1, (hlines l hl).2⟩⟩
          · exact ih hrest block.2 item hitem

namespace Clean

variable {files : SideFiles} {options : OvpnParseOptions} {s t : ParseState}

theorem of_block {tag body : List Char} (hitem : (Item.block tag body).Split) :
    Unclosed tag (String.ofList body) := by
  obtain ⟨lines, rfl, hlines⟩ := hitem
  intro line hline
  rw [pemLines_blockBody fun l hl => (hlines l hl).1] at hline
  obtain ⟨raw, hraw, rfl⟩ := List.mem_map.mp hline
  rw [closesTag_trimRight]
  exact (hlines raw hraw).2

theorem applyBlock {tag body : List Char} (h : Clean s.gist) (hitem : (Item.block tag body).Split) :
    Clean (s.applyBlock tag body).gist := by
  have hbody := of_block hitem
  unfold ParseState.applyBlock
  split
  · next htag =>
    subst htag
    exact { h with caPem := hbody }
  · split
    · next htag =>
      subst htag
      exact { h with certificatePem := hbody }
    · split
      · exact h
      · split
        · exact h
        · split <;> exact h

theorem applyRemote {args : List String} (h : Clean s.gist)
    (hargs : ∀ arg ∈ args, '\n' ∉ arg.toList) : Clean (s.applyRemote args).gist := by
  rw [ParseState.gist_applyRemote]
  refine { h with hosts := fun remote hr => ?_ }
  rcases List.mem_append.mp hr with hr | hr
  · exact h.hosts remote hr
  · cases args with
    | nil => exact absurd hr List.not_mem_nil
    | cons host rest =>
      rw [List.mem_singleton.mp hr]
      exact hargs host List.mem_cons_self

theorem applyCiphers {args : List String} (h : Clean s.gist)
    (hargs : ∀ arg ∈ args, '\n' ∉ arg.toList) : Clean (s.applyCiphers args).gist := by
  rw [ParseState.gist_applyCiphers]
  cases args with
  | nil => exact h
  | cons first rest => exact { h with cipher := hargs first List.mem_cons_self }

theorem applySideFile {key : String} {args : List String} (hbase : options.baseDirectory = "")
    (h : Clean s.gist) : Clean (s.applySideFile files options key args).gist := by
  cases args with
  | nil => exact h
  | cons reference rest =>
    unfold ParseState.applySideFile readSideFile
    simp only [hbase]
    split
    · exact h
    · exact h

/-- Other fields do not matter. -/
theorem keep (h : Clean s.gist)
    (hsame : (t.gist.remotes, t.gist.cipher, t.gist.digest, t.gist.verifyName, t.gist.caPem,
        t.gist.certificatePem) =
      (s.gist.remotes, s.gist.cipher, s.gist.digest, s.gist.verifyName, s.gist.caPem,
        s.gist.certificatePem)) : Clean t.gist := by
  simp only [Prod.mk.injEq] at hsame
  obtain ⟨h1, h2, h3, h4, h5, h6⟩ := hsame
  exact ⟨h1 ▸ h.hosts, h2 ▸ h.cipher, h3 ▸ h.digest, h4 ▸ h.verifyName, h5 ▸ h.caPem,
    h6 ▸ h.certificatePem⟩

theorem ite {c : Prop} [Decidable c] (hs : Clean s.gist) (ht : Clean t.gist) :
    Clean (if c then s else t).gist := by
  split
  · exact hs
  · exact ht

theorem applyKnown {key : String} {args : List String} (hbase : options.baseDirectory = "")
    (h : Clean s.gist) (hargs : ∀ arg ∈ args, '\n' ∉ arg.toList) :
    Clean (s.applyKnown files options key args).gist := by
  unfold ParseState.applyKnown
  refine ite (applyRemote h hargs) ?_
  -- `proto`, `port` and `rport`
  refine ite (by cases args <;> exact h.keep rfl) ?_
  refine ite (by cases args <;> exact h.keep rfl) ?_
  refine ite (h.keep rfl) ?_
  -- `auth-user-pass`
  refine ite (ite (h.keep rfl) (h.keep rfl)) ?_
  refine ite (h.keep rfl) ?_
  -- `mssfix` and `tun-mtu`
  refine ite ?_ ?_
  · cases args with
    | nil => exact h
    | cons mtu rest => exact ite (h.keep rfl) h
  -- `keepalive`
  refine ite (by obtain _ | ⟨a, _ | ⟨b, args⟩⟩ := args <;> exact h.keep rfl) ?_
  refine ite (applyCiphers h hargs) ?_
  -- `auth`
  refine ite ?_ ?_
  · cases args with
    | nil => exact h
    | cons digest rest => exact { h with digest := hargs digest List.mem_cons_self }
  refine ite (h.keep rfl) ?_
  -- `verify-x509-name`
  refine ite ?_ ?_
  · cases args with
    | nil => exact h
    | cons name rest => exact { h with verifyName := hargs name List.mem_cons_self }
  refine ite (h.keep rfl) ?_
  refine ite (h.keep rfl) ?_
  refine ite (h.keep rfl) ?_
  -- the proxies
  refine ite (by obtain _ | ⟨a, _ | ⟨b, args⟩⟩ := args <;> exact h.keep rfl) ?_
  refine ite (by obtain _ | ⟨a, _ | ⟨b, args⟩⟩ := args <;> exact h.keep rfl) ?_
  exact ite (applySideFile hbase h) (h.keep rfl)

theorem applyItem {item : Item} (hbase : options.baseDirectory = "") (h : Clean s.gist)
    (hitem : item.Split) (ht : s.applyItem files options item = .ok t) : Clean t.gist := by
  cases item with
  | unterminated tag => cases ht
  | block tag body =>
    cases ht
    exact applyBlock h hitem
  | directive keyword args =>
    simp only [ParseState.applyItem, ParseState.applyDirective] at ht
    split at ht
    · split at ht
      · cases ht
      · cases ht
        exact h.keep rfl
    · cases ht
      exact applyKnown hbase h hitem

theorem foldlM {l : List Item} (hbase : options.baseDirectory = "") (h : Clean s.gist)
    (hl : ∀ item ∈ l, item.Split)
    (ht : l.foldlM (ParseState.applyItem files options) s = .ok t) : Clean t.gist := by
  induction l generalizing s with
  | nil =>
    cases ht
    exact h
  | cons item l ih =>
    obtain ⟨hitem, hl⟩ := List.forall_mem_cons.mp hl
    rw [List.foldlM_cons] at ht
    obtain ⟨u, hu, ht⟩ := Result.bind_eq_ok_iff.mp ht
    exact ih (applyItem hbase h hitem hu) hl ht

end Clean

/-! ## The round trip -/

/-- What the last checks leave of the profile. -/
theorem finish_profile {s : ParseState} {report : ImportReport} (h : s.finish = .ok report) :
    ∃ method, report.profile = { s.profile with authMethod := method } ∧
      (s.gist.authMethod = .certificate →
        method.requiresPassword = s.gist.sawAuthUserPass) := by
  unfold ParseState.finish at h
  split at h
  · cases h
  · cases h
    refine ⟨if (s.sawCert || !s.profile.certificates.storeThumbprint.isEmpty) && s.sawAuthUserPass
        then .certificateAndPassword
      else if s.sawAuthUserPass then .userPassword
      else if s.sawCert || !s.profile.certificates.storeThumbprint.isEmpty then .certificate
      else s.profile.authMethod, by dsimp only; split <;> rfl, fun hmethod => ?_⟩
    have hinitial : s.profile.authMethod = .certificate := hmethod
    have hsaw : s.gist.sawAuthUserPass = s.sawAuthUserPass := rfl
    rw [hinitial, hsaw]
    cases s.sawAuthUserPass <;>
      cases s.sawCert || !s.profile.certificates.storeThumbprint.isEmpty <;> rfl

theorem finish_ok {s : ParseState} (h : s.gist.sawRemote = true) : ∃ report, s.finish = .ok report := by
  have hsaw : s.sawRemote = true := h
  unfold ParseState.finish
  rw [if_neg (by simp [hsaw])]
  exact ⟨_, rfl⟩

/-- What `validate` has checked of a profile that is exported. -/
theorem valid_of_export {p : Profile} {text : List Char} (h : exportOvpn p = .ok text) :
    text = exportText p ∧ p.remotes ≠ [] ∧
      (∀ r ∈ p.remotes, r.host.toList ≠ [] ∧ r.port ≠ 0) ∧
      ∀ mtu, p.options.mtu = some mtu → 576 ≤ mtu ∧ mtu ≤ 9000 := by
  unfold exportOvpn at h
  split at h
  · cases h
  · next hvalid =>
    cases h
    unfold Profile.validate at hvalid
    split at hvalid
    · exact absurd rfl hvalid
    split at hvalid
    · exact absurd rfl hvalid
    split at hvalid
    · exact absurd rfl hvalid
    next hremotes =>
    split at hvalid
    · exact absurd rfl hvalid
    split at hvalid
    · next remote hfind =>
      rw [Status.isError_withContext] at hvalid
      exact absurd (List.find?_some hfind) hvalid
    next hfind =>
    refine ⟨rfl, fun hnil => hremotes (List.isEmpty_iff.mpr hnil), fun r hr => ?_, fun mtu hmtu => ?_⟩
    · have hr := List.find?_eq_none.mp hfind r hr
      unfold RemoteEntry.validate at hr
      split at hr
      · exact absurd rfl hr
      next hhost =>
      split at hr
      · exact absurd rfl hr
      split at hr
      · exact absurd rfl hr
      next hport =>
      exact ⟨fun hnil => hhost (String.isEmpty_iff.mpr (String.toList_eq_nil_iff.mp hnil)), hport⟩
    · unfold Profile.validateSettings at hvalid
      iterate 4
        split at hvalid
        · exact absurd rfl hvalid
      split at hvalid
      · exact absurd rfl hvalid
      next hrange =>
      rw [hmtu, Option.any_some] at hrange
      simp only [Bool.or_eq_true, decide_eq_true_eq, not_or, UInt32.not_lt] at hrange
      exact hrange

/-- What the parser makes of an export whose lines are as they were written. -/
theorem parse_export (files : SideFiles) (options : OvpnParseOptions) {p : Profile} (h : OneLine p)
    (hca : Unclosed "ca".toList p.certificates.caPem)
    (hcert : Unclosed "cert".toList p.certificates.certificatePem) :
    ∃ t : ParseState, t.gist = exportGist p ∧
      parseOvpn files options (exportText p) = t.finish := by
  obtain ⟨f, htakes, hf⟩ := @takes_export files options p
  obtain ⟨t, ht, hgist⟩ := htakes (.initial options (exportText p))
  refine ⟨t, hgist.trans hf, ?_⟩
  rw [parseOvpn_eq, items_exportText h hca hcert, ht]
  rfl

/-- A profile that a configuration gives is clean. -/
theorem clean_of_parse {files : SideFiles} {options : OvpnParseOptions} {text : List Char}
    {report : ImportReport} (hbase : options.baseDirectory = "")
    (h : parseOvpn files options text = .ok report) :
    ∃ t : ParseState, Clean t.gist ∧ t.finish = .ok report := by
  rw [parseOvpn_eq] at h
  obtain ⟨t, ht, hfinish⟩ := Result.bind_eq_ok_iff.mp h
  have hinitial : Clean (ParseState.initial options text).gist := by
    rw [ParseState.gist_initial]
    have hempty : ∀ tag, Unclosed tag "" := fun tag line hline => absurd hline List.not_mem_nil
    exact ⟨fun _ hr => absurd hr List.not_mem_nil, List.not_mem_nil, List.not_mem_nil,
      List.not_mem_nil, hempty _, hempty _⟩
  exact ⟨t, Clean.foldlM hbase hinitial
    (split_items (fun line hline => Str.notMem_of_mem_split hline) 0) ht, hfinish⟩

/-- The profile that a parse ends with has the settings of its gist. -/
theorem agrees_finished_iff {p : Profile} {t : ParseState} {report : ImportReport}
    (hfinish : t.finish = .ok report) (hmethod : t.gist.authMethod = .certificate) :
    Agrees p report.profile ↔
      t.gist.remotes.map RemoteEntry.key = p.remotes.map RemoteEntry.key ∧
      t.gist.shuffleRemotes = p.options.shuffleRemotes ∧
      t.gist.redirectGateway = p.options.redirectGateway ∧
      t.gist.cipher = p.options.cipherOverride ∧
      t.gist.digest = p.options.authDigestOverride ∧
      t.gist.verifyName = p.certificates.verifyX509Name ∧
      t.gist.mtu = p.options.mtu ∧
      t.gist.sawAuthUserPass = p.authMethod.requiresPassword ∧
      pemLines t.gist.caPem = pemLines p.certificates.caPem ∧
      pemLines t.gist.certificatePem = pemLines p.certificates.certificatePem := by
  obtain ⟨method, hprofile, hpassword⟩ := finish_profile hfinish
  rw [hprofile, ← hpassword hmethod]
  constructor
  · rintro ⟨h1, h2, h3, h4, h5, h6, h7, h8, h9, h10⟩
    exact ⟨h1, h2, h3, h4, h5, h6, h7, h8, h9, h10⟩
  · rintro ⟨h1, h2, h3, h4, h5, h6, h7, h8, h9, h10⟩
    exact ⟨h1, h2, h3, h4, h5, h6, h7, h8, h9, h10⟩

/-- The settings of a profile are clean if those of the one read back agree
with them. -/
theorem clean_of_agrees {p : Profile} {t : ParseState} {report : ImportReport} (h : Clean t.gist)
    (hfinish : t.finish = .ok report) (hagrees : Agrees p report.profile) :
    OneLine p ∧ Unclosed "ca".toList p.certificates.caPem ∧
      Unclosed "cert".toList p.certificates.certificatePem := by
  obtain ⟨method, hprofile, -⟩ := finish_profile hfinish
  rw [hprofile] at hagrees
  refine ⟨⟨fun remote hr => ?_, ?_, ?_, ?_⟩, ?_, ?_⟩
  · have hkey := List.mem_map_of_mem (f := RemoteEntry.key) hr
    have hremotes : t.gist.remotes.map RemoteEntry.key = p.remotes.map RemoteEntry.key :=
      hagrees.remotes
    rw [← hremotes] at hkey
    obtain ⟨remote', hr', heq⟩ := List.mem_map.mp hkey
    have hhost : remote'.host = remote.host := congrArg Prod.fst heq
    rw [← hhost]
    exact h.hosts remote' hr'
  · rw [← hagrees.cipher]
    exact h.cipher
  · rw [← hagrees.digest]
    exact h.digest
  · rw [← hagrees.verifyName]
    exact h.verifyName
  · rw [Unclosed, ← hagrees.caPem]
    exact h.caPem
  · rw [Unclosed, ← hagrees.certificatePem]
    exact h.certificatePem

/-- An exported profile comes back with its connection settings if and only if
it is writable. -/
theorem export_import_iff (files : SideFiles) (name : String) {p : Profile} {text : List Char}
    (h : exportOvpn p = .ok text) :
    (∃ report, parseOvpn files { suggestedName := name, strict := true } text = .ok report ∧
      Agrees p report.profile) ↔ Writable p := by
  obtain ⟨rfl, hremotes, hvalid, hmtu⟩ := valid_of_export h
  constructor
  · rintro ⟨report, hreport, hagrees⟩
    obtain ⟨s, hclean, hfinish⟩ := clean_of_parse rfl hreport
    obtain ⟨hone, hca, hcert⟩ := clean_of_agrees hclean hfinish hagrees
    obtain ⟨t, hgist, hparse⟩ :=
      parse_export files { suggestedName := name, strict := true } hone hca hcert
    rw [hparse] at hreport
    rw [agrees_finished_iff hreport (by rw [hgist]; rfl), hgist] at hagrees
    obtain ⟨hkeys, -, hredirect, hcipher, hdigest, hverify, -⟩ := hagrees
    exact ⟨hredirect.symm, (remotes_iff hvalid).mp hkeys, (tail_iff _).mp hcipher,
      (tail_iff _).mp hdigest, verifyName_iff.mp hverify, hca, hcert⟩
  · intro hw
    have hone : OneLine p := ⟨fun r hr => newline_notMem_of_plain (hw.hosts r hr),
      newline_notMem_of_plain hw.cipher.1, newline_notMem_of_plain hw.digest.1,
      newline_notMem_of_plain hw.verifyName⟩
    obtain ⟨t, hgist, hparse⟩ := parse_export files { suggestedName := name, strict := true } hone
      hw.caPem hw.certificatePem
    have hsaw : t.gist.sawRemote = true := by
      obtain ⟨remote, hr⟩ := List.exists_mem_of_ne_nil p.remotes hremotes
      rw [hgist]
      refine List.any_eq_true.mpr ⟨_, List.mem_map_of_mem hr, ?_⟩
      rw [argsOf_remoteText (hw.hosts remote hr) (hvalid remote hr).1]
      rfl
    have hread : p.options.mtu.bind readMtu = p.options.mtu := by
      cases hm : p.options.mtu with
      | none => rfl
      | some mtu => exact readMtu_valid (hmtu mtu hm).1 (hmtu mtu hm).2
    obtain ⟨report, hfinish⟩ := finish_ok hsaw
    refine ⟨report, hparse.trans hfinish, (agrees_finished_iff hfinish (by rw [hgist]; rfl)).mpr ?_⟩
    rw [hgist]
    exact ⟨(remotes_iff hvalid).mpr hw.hosts, rfl, hw.redirectGateway.symm,
      (tail_iff _).mpr hw.cipher, (tail_iff _).mpr hw.digest, verifyName_iff.mpr hw.verifyName, hread,
      rfl, pemLines_blockText _, pemLines_blockText _⟩

/-- A profile for one server. -/
def oneServer (redirectGateway : Bool) : Profile where
  name := "one"
  remotes := [{ host := "vpn.example.net" }]
  authMethod := .userPassword
  certificates := { caPem := "CA" }
  options := { redirectGateway }

theorem exportOvpn_oneServer (redirectGateway : Bool) :
    exportOvpn (oneServer redirectGateway) = .ok (exportText (oneServer redirectGateway)) := by
  refine Result.eq_ok_of_toOption ?_
  cases redirectGateway <;> decide +kernel

theorem writable_oneServer : Writable (oneServer true) := by
  have hempty : PlainTail "" := ⟨fun c hc => absurd hc List.not_mem_nil, rfl⟩
  have hplain : "vpn.example.net".toList.all isPlain = true := by decide
  refine ⟨rfl, fun remote hr => ?_, hempty, hempty, hempty.1, ?_, fun line hline => ?_⟩
  · rw [List.mem_singleton.mp hr]
    exact List.all_eq_true.mp hplain
  · have hclosed : (pemLines "CA").all (!closesTag "ca".toList ·) = true := by decide +kernel
    exact fun line hline => by simpa using List.all_eq_true.mp hclosed line hline
  · exact absurd hline List.not_mem_nil

theorem export_import_oneServer : ∃ text report, exportOvpn (oneServer true) = .ok text ∧
    parseOvpn noFiles { strict := true } text = .ok report ∧
      Agrees (oneServer true) report.profile := by
  have hexport := exportOvpn_oneServer true
  obtain ⟨report, hparse, hagrees⟩ := (export_import_iff noFiles "" hexport).mpr writable_oneServer
  exact ⟨_, report, hexport, hparse, hagrees⟩

/-- A profile that leaves the default route alone comes back with it redirected. -/
theorem gateway_redirected : ∃ text, exportOvpn (oneServer false) = .ok text ∧
    ¬ ∃ report, parseOvpn noFiles { strict := true } text = .ok report ∧
      Agrees (oneServer false) report.profile := by
  have hparse : (parseOvpn noFiles { strict := true } (exportText (oneServer false))).toOption.map
      (·.profile.options.redirectGateway) = some true := by
    decide +kernel
  refine ⟨_, exportOvpn_oneServer false, ?_⟩
  rintro ⟨report, hreport, hagrees⟩
  rw [hreport] at hparse
  have htrue : report.profile.options.redirectGateway = true := Option.some.inj hparse
  have hgateway := hagrees.redirectGateway
  rw [htrue] at hgateway
  cases hgateway

end NovaVpn.Profiles
