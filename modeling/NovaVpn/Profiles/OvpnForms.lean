import NovaVpn.Profiles.OvpnReport

/-!
# A block inline or in a side file

The material of a block stands in the configuration itself or in a file that a
directive of the same name refers to. `TwoForms` is a configuration with the one
form or the other in the same place. For `<ca>` and `<cert>` the two give the
same profile up to white space at the line ends of the PEM text. For the keys
that wrap the TLS channel only the directive sets the wrap mode, so that the two
agree only if something else in the configuration sets it so (`forms_agree_iff`).
-/

namespace NovaVpn.Profiles

open NovaVpn.Framework

/-! ## The two forms -/

/-- A configuration up to a block and behind it, with the block, and a directive
that refers to a file with its lines. -/
structure TwoForms (files : SideFiles) (options : OvpnParseOptions) where
  tag : String
  before : List (List Char)
  opening : List Char
  body : List (List Char)
  closing : List Char
  directive : List Char
  reference : String
  args : List String
  content : String
  behind : List (List Char)
  known : tag ∈ ["ca", "cert", "tls-auth", "tls-crypt", "tls-crypt-v2"]
  /-- The place is in no other block. -/
  topLevel : ∀ t, .unterminated t ∉ items before
  opens : openingTag (Str.trim opening) = some tag.toList
  unclosed : ∀ line ∈ body, closesTag tag.toList line = false
  closes : closesTag tag.toList closing = true
  noTag : openingTag (Str.trim directive) = none
  refers : directiveOf (Str.trim directive) = some (.directive tag (reference :: args))
  readable : readSideFile files options reference = .ok content
  sameLines : pemLines content = body.map Str.trimRight

namespace TwoForms

variable {files : SideFiles} {options : OvpnParseOptions}

def inlineLines (f : TwoForms files options) : List (List Char) :=
  f.before ++ f.opening :: (f.body ++ f.closing :: f.behind)

def sideLines (f : TwoForms files options) : List (List Char) :=
  f.before ++ f.directive :: f.behind

end TwoForms

/-- The wrap mode that the last of the items that sets one sets, or the default. -/
def lastWrapMode (l : List Item) : Int := (l.filterMap Item.wrapMode).getLast?.getD 0

/-- A certificate, a wrap mode that is set behind the block, or before it as the
directive would. -/
def TwoForms.SameMode {files : SideFiles} {options : OvpnParseOptions} (f : TwoForms files options) :
    Prop :=
  Stored f.tag.toList ∨ (∃ item ∈ items f.behind, item.wrapMode.isSome) ∨
    (Item.directive f.tag []).wrapMode = some (lastWrapMode (items f.before))

/-- The profile without the texts that the two forms may have differently. -/
def Profile.withoutTexts (p : Profile) : Profile :=
  { p with
    certificates := { p.certificates with caPem := "", certificatePem := "" }
    sourceConfig := "" }

/-- The same profile but for the source and white space at line ends of the PEM
texts. -/
structure SameProfile (p q : Profile) : Prop where
  settings : p.withoutTexts = q.withoutTexts
  caPem : pemLines p.certificates.caPem = pemLines q.certificates.caPem
  certificatePem : pemLines p.certificates.certificatePem = pemLines q.certificates.certificatePem

/-! ## Their items -/

theorem readInlineBlock_front {tag : List Char} {lines : List (List Char)} {block : List Char × Nat}
    (h : readInlineBlock tag lines = some block) (rest : List (List Char)) :
    readInlineBlock tag (lines ++ rest) = some block ∧ block.2 ≤ lines.length := by
  induction lines generalizing block with
  | nil => cases h
  | cons line lines ih =>
    rw [readInlineBlock] at h
    rw [List.cons_append, readInlineBlock]
    split at h
    next hc =>
      cases h
      exact ⟨by rw [if_pos hc], Nat.le_add_left 1 _⟩
    next hc =>
      obtain ⟨inner, hinner, rfl⟩ := Option.map_eq_some_iff.mp h
      obtain ⟨hread, hle⟩ := ih hinner
      exact ⟨by rw [if_neg hc, hread]; rfl, Nat.succ_le_succ hle⟩

/-- Behind lines that leave no block open, the items are those of the lines. -/
theorem items_append {lines : List (List Char)} (h : ∀ tag, .unterminated tag ∉ items lines)
    (rest : List (List Char)) : items (lines ++ rest) = items lines ++ items rest := by
  induction hn : lines.length using Nat.strongRecOn generalizing lines with
  | ind n ih =>
    cases lines with
    | nil => rfl
    | cons line lines =>
      rw [List.length_cons] at hn
      cases ht : openingTag (Str.trim line) with
      | none =>
        rw [items_line ht] at h
        rw [List.cons_append, items_line ht, items_line ht,
          ih lines.length (by omega) (fun tag hmem => h tag (List.mem_append_right _ hmem)) rfl,
          List.append_assoc]
      | some tag =>
        rw [items_cons, ht] at h
        dsimp only at h
        rw [List.cons_append, items_cons, items_cons, ht]
        dsimp only
        cases hread : readInlineBlock tag lines with
        | none =>
          rw [hread] at h
          exact absurd List.mem_cons_self (h tag)
        | some block =>
          obtain ⟨body, m⟩ := block
          rw [hread] at h
          obtain ⟨hfront, hle⟩ := readInlineBlock_front hread rest
          rw [hfront]
          dsimp only
          rw [List.drop_append_of_le_length hle, ih (lines.drop m).length
            (by rw [List.length_drop]; omega) (fun tag hmem => h tag (List.mem_cons_of_mem _ hmem)) rfl]
          rfl

section Forms

variable {files : SideFiles} {options : OvpnParseOptions}

theorem TwoForms.items_inline (f : TwoForms files options) : items f.inlineLines =
    items f.before ++ .block f.tag.toList (blockBody f.body) :: items f.behind := by
  rw [inlineLines, items_append f.topLevel, items_block f.opens f.unclosed f.closes]

theorem TwoForms.items_side (f : TwoForms files options) : items f.sideLines =
    items f.before ++ .directive f.tag (f.reference :: f.args) :: items f.behind := by
  rw [sideLines, items_append f.topLevel, items_line f.noTag, f.refers]
  rfl

/-! ## One PEM text for another -/

/-- Another text for the certificate of the keyword. -/
def Overlay.pem (key content : String) : Overlay :=
  { Overlay.same with
    caPem := if key = "ca" then fun _ => content else id
    certificatePem := if key = "cert" then fun _ => content else id }

theorem misses_pem {item : Item} {key : String} (content : String)
    (h : ¬ item.SetsPem files options key) : (Overlay.pem key content).Misses files options item where
  proto _ := rfl
  port _ := rfl
  wrap _ := rfl
  caPem hca := by
    by_cases hkey : key = "ca"
    · exact absurd (hkey ▸ hca) h
    · exact if_neg hkey
  certificatePem hcert := by
    by_cases hkey : key = "cert"
    · exact absurd (hkey ▸ hcert) h
    · exact if_neg hkey
  rejected _ _ _ := rfl

theorem absorbs_pem {item : Item} {key : String} (hkey : key = "ca" ∨ key = "cert") (content : String)
    (h : item.SetsPem files options key) :
    Absorbs (ParseState.applyItem files options) (Overlay.pem key content).on item := by
  intro s
  obtain ⟨body, rfl⟩ | ⟨reference, rest, text, rfl, hread⟩ := h
  · rcases hkey with rfl | rfl <;> rfl
  · have hd : key ∉ dangerousDirectives := by rcases hkey with rfl | rfl <;> decide
    rw [applyItem_known hd, applyItem_known hd]
    rcases hkey with rfl | rfl <;>
      simp [ParseState.applyKnown, ParseState.applySideFile, hread, ParseState.setCertificates,
        Overlay.pem, Overlay.same, Overlay.on, Overlay.onProfile, Overlay.onCertificates, Overlay.onReport]

/-! ## Another wrap mode -/

/-- Another wrap mode. -/
def Overlay.wrap (mode : Int) : Overlay :=
  { Overlay.same with tlsWrapMode := fun _ => mode }

theorem misses_wrap {item : Item} (mode : Int) (h : item.wrapMode.isSome = false) :
    (Overlay.wrap mode).Misses files options item where
  proto _ := rfl
  port _ := rfl
  wrap hsome := by rw [h] at hsome; cases hsome
  caPem _ := rfl
  certificatePem _ := rfl
  rejected _ _ _ := rfl

theorem wrapMode_eq_some {item : Item} {mode : Int} (h : item.wrapMode = some mode) :
    ∃ key args, item = .directive key args ∧ (key = "tls-auth" ∧ mode = 0 ∨
      key = "tls-crypt" ∧ mode = 1 ∨ key = "tls-crypt-v2" ∧ mode = 2) := by
  cases item with
  | block tag body => cases h
  | unterminated tag => cases h
  | directive key args =>
    refine ⟨key, args, rfl, ?_⟩
    simp only [Item.wrapMode] at h
    split at h
    next hkey => exact .inl ⟨hkey, (Option.some.inj h).symm⟩
    next =>
      split at h
      next hkey => exact .inr (.inl ⟨hkey, (Option.some.inj h).symm⟩)
      next =>
        split at h
        next hkey => exact .inr (.inr ⟨hkey, (Option.some.inj h).symm⟩)
        next => cases h

/-- A directive that sets the wrap mode forgets the one that there was. -/
theorem absorbs_wrap {item : Item} (mode : Int) (h : item.wrapMode.isSome = true) :
    Absorbs (ParseState.applyItem files options) (Overlay.wrap mode).on item := by
  intro s
  obtain ⟨m, hm⟩ := Option.isSome_iff_exists.mp h
  obtain ⟨key, args, rfl, ⟨rfl, -⟩ | ⟨rfl, -⟩ | ⟨rfl, -⟩⟩ := wrapMode_eq_some hm
  all_goals
    rw [applyItem_known (by decide), applyItem_known (by decide)]
    simp [ParseState.applyKnown, ParseState.setCertificates, Overlay.wrap, Overlay.same, Overlay.on,
      Overlay.onProfile, Overlay.onCertificates, Overlay.onReport]

/-- The wrap mode after an item. -/
theorem wrapMode_step {item : Item} {s t : ParseState} (h : s.applyItem files options item = .ok t) :
    t.profile.certificates.tlsWrapMode =
      item.wrapMode.getD s.profile.certificates.tlsWrapMode := by
  cases hmode : item.wrapMode with
  | none =>
    have hkept := (misses_wrap s.profile.certificates.tlsWrapMode (by rw [hmode]; rfl)).keeps rfl h
    have hsame := congrArg (fun t : ParseState => t.profile.certificates.tlsWrapMode) hkept
    exact hsame
  | some mode =>
    obtain ⟨key, args, rfl, ⟨rfl, rfl⟩ | ⟨rfl, rfl⟩ | ⟨rfl, rfl⟩⟩ := wrapMode_eq_some hmode
    all_goals
      rw [applyItem_known (by decide)] at h
      cases h
      simp [ParseState.applyKnown, ParseState.setCertificates]

theorem wrapMode_run {l : List Item} {s t : ParseState}
    (h : l.foldlM (ParseState.applyItem files options) s = .ok t) :
    t.profile.certificates.tlsWrapMode =
      (l.filterMap Item.wrapMode).getLast?.getD s.profile.certificates.tlsWrapMode := by
  induction l generalizing s with
  | nil =>
    cases h
    rfl
  | cons item l ih =>
    obtain ⟨s', hitem, hl⟩ := foldlM_cons_ok.mp h
    rw [ih hl, wrapMode_step hitem]
    cases hmode : item.wrapMode with
    | none => rw [List.filterMap_cons_none hmode, Option.getD_none]
    | some mode =>
      rw [List.filterMap_cons_some hmode, List.getLast?_cons, Option.getD_some, Option.getD_some]

/-! ## The two parses -/

theorem finish_overlay (o : Overlay) {s : ParseState} {r : ImportReport} (h : s.finish = .ok r) :
    ∃ r', (o.on s).finish = .ok r' ∧ r'.profile = o.onProfile r.profile := by
  rw [Overlay.finish_on, h]
  exact ⟨_, rfl, rfl⟩

namespace TwoForms

variable (f : TwoForms files options) {text text' : List Char} {r : ImportReport} {s t u : ParseState}

/-- The states of the parser of the inline form. -/
theorem inline_run (htext : Str.split '\n' text = f.inlineLines)
    (h : parseOvpn files options text = .ok r) :
    ∃ s u, (items f.before).foldlM (ParseState.applyItem files options) (.initial options text) =
        .ok s ∧
      (items f.behind).foldlM (ParseState.applyItem files options)
        (s.applyBlock f.tag.toList (blockBody f.body)) = .ok u ∧ u.finish = .ok r := by
  rw [parseOvpn_eq, htext, items_inline] at h
  obtain ⟨u, hrun, hr⟩ := Result.bind_eq_ok_iff.mp h
  obtain ⟨s, hs, hrest⟩ := foldlM_append_ok.mp hrun
  obtain ⟨s', hblock, hu⟩ := foldlM_cons_ok.mp hrest
  cases hblock
  exact ⟨s, u, hs, hu, hr⟩

/-- The parser of the side-file form goes through the same states up to the
directive, but for the source text. -/
theorem side_run (htext' : Str.split '\n' text' = f.sideLines)
    (hs : (items f.before).foldlM (ParseState.applyItem files options) (.initial options text) = .ok s)
    (hstep : s.applyItem files options (.directive f.tag (f.reference :: f.args)) = .ok t)
    (hu : (items f.behind).foldlM (ParseState.applyItem files options) t = .ok u)
    (hr : u.finish = .ok r) :
    ∃ r', parseOvpn files options text' = .ok r' ∧
      r'.profile = { r.profile with sourceConfig := String.ofList text' } := by
  have hrun : (items f.sideLines).foldlM (ParseState.applyItem files options) (.initial options text) =
      .ok u := by
    rw [items_side]
    exact foldlM_append_ok.mpr ⟨s, hs, foldlM_cons_ok.mpr ⟨t, hstep, hu⟩⟩
  obtain ⟨r', hr', hprofile⟩ := finish_overlay (Overlay.source text') hr
  refine ⟨r', ?_, hprofile⟩
  rw [parseOvpn_eq, htext', initial_source options text' text,
    foldlM_passes fun item _ => (Overlay.misses_source text' files options item).passes, hrun]
  exact hr'

theorem sameProfile_source {p q : Profile} (source : String) :
    SameProfile p { q with sourceConfig := source } ↔ SameProfile p q :=
  ⟨fun h => ⟨h.settings, h.caPem, h.certificatePem⟩, fun h => ⟨h.settings, h.caPem, h.certificatePem⟩⟩

/-- What the directive of a certificate does after the block. -/
theorem step_pem (hkey : f.tag = "ca" ∨ f.tag = "cert") (s : ParseState) :
    s.applyItem files options (.directive f.tag (f.reference :: f.args)) =
        .ok ((Overlay.pem f.tag f.content).on (s.applyBlock f.tag.toList (blockBody f.body))) ∧
      (Overlay.pem f.tag (String.ofList (blockBody f.body))).on
        (s.applyBlock f.tag.toList (blockBody f.body)) =
        s.applyBlock f.tag.toList (blockBody f.body) := by
  have hread := f.readable
  have hd : f.tag ∉ dangerousDirectives := by rcases hkey with h | h <;> rw [h] <;> decide
  rw [applyItem_known hd]
  generalize f.tag = tag at hkey ⊢
  rcases hkey with rfl | rfl
  · refine ⟨?_, rfl⟩
    simp [ParseState.applyKnown, ParseState.applySideFile, hread]
    rfl
  · refine ⟨?_, rfl⟩
    simp [ParseState.applyKnown, ParseState.applySideFile, hread]
    rfl

theorem sameProfile_refl (p : Profile) : SameProfile p p := ⟨rfl, rfl, rfl⟩

/-- The PEM text of the keyword in one profile is that of the other up to white
space at its line ends. -/
theorem sameProfile_pem {key content : String} (hkey : key = "ca" ∨ key = "cert") {p : Profile}
    {own : String} (hown : (Overlay.pem key own).onProfile p = p) (hlines : pemLines content = pemLines own) :
    SameProfile p ((Overlay.pem key content).onProfile p) := by
  rcases hkey with rfl | rfl
  · have hca := congrArg (fun p : Profile => p.certificates.caPem) hown
    have hown : own = p.certificates.caPem := hca
    exact ⟨rfl, (hown ▸ hlines).symm, rfl⟩
  · have hcert := congrArg (fun p : Profile => p.certificates.certificatePem) hown
    have hown : own = p.certificates.certificatePem := hcert
    exact ⟨rfl, rfl, (hown ▸ hlines).symm⟩

/-- For a certificate the two forms agree. -/
theorem certificate_agrees (hkey : f.tag = "ca" ∨ f.tag = "cert")
    (htext : Str.split '\n' text = f.inlineLines) (htext' : Str.split '\n' text' = f.sideLines)
    (h : parseOvpn files options text = .ok r) :
    ∃ r', parseOvpn files options text' = .ok r' ∧ SameProfile r.profile r'.profile := by
  obtain ⟨s, u, hs, hu, hr⟩ := f.inline_run htext h
  obtain ⟨hstep, hown⟩ := f.step_pem hkey s
  have hlines : pemLines f.content = pemLines (String.ofList (blockBody f.body)) := by
    rw [f.sameLines, pemLines_blockBody fun line hline => ?_]
    have hmem : line ∈ Str.split '\n' text := by
      rw [htext]
      exact List.mem_append_right _ (List.mem_cons_of_mem _ (List.mem_append_left _ hline))
    exact Str.notMem_of_mem_split hmem
  by_cases hset : ∃ i ∈ items f.behind, i.SetsPem files options f.tag
  · -- the text is set again, and the same from then on
    have hpass : ∀ i ∈ items f.behind,
        Passes (ParseState.applyItem files options) (Overlay.pem f.tag f.content).on i ∨
          Absorbs (ParseState.applyItem files options) (Overlay.pem f.tag f.content).on i := by
      intro i _
      by_cases hi : i.SetsPem files options f.tag
      · exact .inr (absorbs_pem hkey _ hi)
      · exact .inl (misses_pem _ hi).passes
    obtain ⟨i, hi, hsets⟩ := hset
    have hlost := foldlM_absorbs hpass ⟨i, hi, absorbs_pem hkey _ hsets⟩
      (s.applyBlock f.tag.toList (blockBody f.body))
    obtain ⟨r', hparse, hprofile⟩ := f.side_run htext' hs hstep (hlost.trans hu) hr
    exact ⟨r', hparse, hprofile ▸ (sameProfile_source _).mpr (sameProfile_refl _)⟩
  · -- the text is there at the end
    have hpasses : ∀ content, ∀ i ∈ items f.behind,
        Passes (ParseState.applyItem files options) (Overlay.pem f.tag content).on i :=
      fun content i hi => (misses_pem content fun hsets => hset ⟨i, hi, hsets⟩).passes
    have hside := foldlM_passes (hpasses f.content) (s.applyBlock f.tag.toList (blockBody f.body))
    have hinline := foldlM_passes (hpasses (String.ofList (blockBody f.body)))
      (s.applyBlock f.tag.toList (blockBody f.body))
    rw [hown, hu] at hinline
    rw [hu] at hside
    have hkept : u = (Overlay.pem f.tag (String.ofList (blockBody f.body))).on u :=
      Except.ok.inj hinline
    obtain ⟨r₁, hr₁, hprofile₁⟩ := finish_overlay (Overlay.pem f.tag f.content) hr
    obtain ⟨r₂, hr₂, hprofile₂⟩ :=
      finish_overlay (Overlay.pem f.tag (String.ofList (blockBody f.body))) hr
    rw [← hkept, hr] at hr₂
    cases hr₂
    obtain ⟨r', hparse, hprofile⟩ := f.side_run htext' hs hstep hside hr₁
    refine ⟨r', hparse, hprofile ▸ (sameProfile_source _).mpr ?_⟩
    rw [hprofile₁]
    exact sameProfile_pem hkey hprofile₂.symm hlines

/-- What the directive of a wrap does after the block. -/
theorem step_wrap {mode : Int} (hmode : (Item.directive f.tag []).wrapMode = some mode)
    (s : ParseState) :
    (∃ auth crypt, s.applyItem files options (.directive f.tag (f.reference :: f.args)) =
      .ok ((Overlay.wrap mode).on
        ((Overlay.flags auth crypt).on (s.applyBlock f.tag.toList (blockBody f.body))))) ∧
      (s.applyBlock f.tag.toList (blockBody f.body)).profile = s.profile := by
  obtain ⟨key, args, heq, hkey⟩ := wrapMode_eq_some hmode
  obtain ⟨rfl, rfl⟩ := Item.directive.inj heq
  have hd : f.tag ∉ dangerousDirectives := by
    rcases hkey with ⟨h, -⟩ | ⟨h, -⟩ | ⟨h, -⟩ <;> rw [h] <;> decide
  rw [applyItem_known hd]
  generalize f.tag = tag at hkey ⊢
  rcases hkey with ⟨rfl, rfl⟩ | ⟨rfl, rfl⟩ | ⟨rfl, rfl⟩
  · exact ⟨⟨true, false, by simp [ParseState.applyKnown, ParseState.applyBlock, Overlay.wrap, Overlay.flags, Overlay.same,
      Overlay.on, Overlay.onProfile, Overlay.onCertificates, Overlay.onReport,
      ParseState.setCertificates]⟩, rfl⟩
  · exact ⟨⟨false, true, by simp [ParseState.applyKnown, ParseState.applyBlock, Overlay.wrap, Overlay.flags, Overlay.same,
      Overlay.on, Overlay.onProfile, Overlay.onCertificates, Overlay.onReport,
      ParseState.setCertificates]⟩, rfl⟩
  · exact ⟨⟨false, true, by simp [ParseState.applyKnown, ParseState.applyBlock, Overlay.wrap, Overlay.flags, Overlay.same,
      Overlay.on, Overlay.onProfile, Overlay.onCertificates, Overlay.onReport,
      ParseState.setCertificates]⟩, rfl⟩

/-- For a wrap the two forms agree if and only if the mode is set behind them, or
was before as the directive sets it. -/
theorem wrap_agrees_iff {mode : Int} (hmode : (Item.directive f.tag []).wrapMode = some mode)
    (htext : Str.split '\n' text = f.inlineLines) (htext' : Str.split '\n' text' = f.sideLines)
    (h : parseOvpn files options text = .ok r) :
    (∃ r', parseOvpn files options text' = .ok r' ∧ SameProfile r.profile r'.profile) ↔
      (∃ item ∈ items f.behind, item.wrapMode.isSome) ∨ mode = lastWrapMode (items f.before) := by
  obtain ⟨s, u, hs, hu, hr⟩ := f.inline_run htext h
  obtain ⟨⟨auth, crypt, hstep⟩, hblock⟩ := f.step_wrap hmode s
  have hpassFlags : ∀ i ∈ items f.behind,
      Passes (ParseState.applyItem files options) (Overlay.flags auth crypt).on i :=
    fun i _ => passes_flags auth crypt i
  have hflags := foldlM_passes hpassFlags (s.applyBlock f.tag.toList (blockBody f.body))
  rw [hu] at hflags
  obtain ⟨r₁, hr₁, hprofile₁⟩ := finish_overlay (Overlay.flags auth crypt) hr
  have hsame : r₁.profile = r.profile := hprofile₁
  by_cases hset : ∃ i ∈ items f.behind, i.wrapMode.isSome
  · -- the mode is set again, and the same from then on
    refine ⟨fun _ => .inl hset, fun _ => ?_⟩
    have hpass : ∀ i ∈ items f.behind,
        Passes (ParseState.applyItem files options) (Overlay.wrap mode).on i ∨
          Absorbs (ParseState.applyItem files options) (Overlay.wrap mode).on i := by
      intro i _
      cases hi : i.wrapMode.isSome with
      | true => exact .inr (absorbs_wrap mode hi)
      | false => exact .inl (misses_wrap mode hi).passes
    obtain ⟨i, hi, hsome⟩ := hset
    have hlost := foldlM_absorbs hpass ⟨i, hi, absorbs_wrap mode hsome⟩
      ((Overlay.flags auth crypt).on (s.applyBlock f.tag.toList (blockBody f.body)))
    obtain ⟨r', hparse, hprofile⟩ := f.side_run htext' hs hstep (hlost.trans hflags) hr₁
    refine ⟨r', hparse, hprofile ▸ (sameProfile_source _).mpr ?_⟩
    rw [hsame]
    exact sameProfile_refl _
  · -- the mode of the directive is there at the end
    have hnone : ∀ i ∈ items f.behind, i.wrapMode.isSome = false := fun i hi =>
      eq_false_of_ne_true fun hsome => hset ⟨i, hi, hsome⟩
    have hpass : ∀ i ∈ items f.behind,
        Passes (ParseState.applyItem files options) (Overlay.wrap mode).on i :=
      fun i hi => (misses_wrap mode (hnone i hi)).passes
    have hside := foldlM_passes hpass
      ((Overlay.flags auth crypt).on (s.applyBlock f.tag.toList (blockBody f.body)))
    rw [hflags] at hside
    obtain ⟨r₂, hr₂, hprofile₂⟩ := finish_overlay (Overlay.wrap mode) hr₁
    obtain ⟨r', hparse, hprofile⟩ := f.side_run htext' hs hstep hside hr₂
    have hown : r.profile.certificates.tlsWrapMode = lastWrapMode (items f.before) := by
      obtain ⟨method, hfinal, -⟩ := finish_profile hr
      have hnil : (items f.behind).filterMap Item.wrapMode = [] := by
        rw [List.filterMap_eq_nil_iff]
        exact fun i hi => Option.isSome_eq_false_iff.mp (hnone i hi) |> Option.isNone_iff_eq_none.mp
      rw [hfinal]
      have hbehind := wrapMode_run hu
      rw [hnil, hblock, wrapMode_run hs] at hbehind
      exact hbehind
    refine ⟨fun ⟨r₃, hparse₃, hprofile₃⟩ => .inr ?_, fun hor => ⟨r', hparse, hprofile ▸ ?_⟩⟩
    · rw [hparse] at hparse₃
      cases hparse₃
      have hmodes := congrArg (fun p : Profile => p.certificates.tlsWrapMode) hprofile₃.settings
      rw [hprofile, hprofile₂, hsame] at hmodes
      exact hmodes.symm.trans hown
    · refine (sameProfile_source _).mpr ?_
      have hkeeps := hor.resolve_left hset
      rw [hprofile₂, hsame]
      have hid : (Overlay.wrap mode).onProfile r.profile = r.profile := by
        rw [hkeeps, ← hown]
        rfl
      rw [hid]
      exact sameProfile_refl _

end TwoForms

/-- The side-file form of an accepted configuration has the same profile exactly
if the wrap mode is the same. -/
theorem forms_agree_iff (f : TwoForms files options) {text text' : List Char} {r : ImportReport}
    (htext : Str.split '\n' text = f.inlineLines) (htext' : Str.split '\n' text' = f.sideLines)
    (h : parseOvpn files options text = .ok r) :
    (∃ r', parseOvpn files options text' = .ok r' ∧ SameProfile r.profile r'.profile) ↔
      f.SameMode := by
  by_cases hkey : f.tag = "ca" ∨ f.tag = "cert"
  · refine iff_of_true (f.certificate_agrees hkey htext htext' h) (.inl ?_)
    rcases hkey with hkey | hkey
    · exact .inl (congrArg String.toList hkey)
    · exact .inr (congrArg String.toList hkey)
  · obtain ⟨hca, hcert⟩ := not_or.mp hkey
    obtain ⟨mode, hmode⟩ : ∃ mode, (Item.directive f.tag []).wrapMode = some mode := by
      have hknown := f.known
      simp only [List.mem_cons, List.not_mem_nil, or_false, hca, hcert, false_or] at hknown
      rcases hknown with h | h | h <;> simp [Item.wrapMode, h]
    have hstored : ¬ Stored f.tag.toList := fun hs =>
      hs.elim (fun h => hca (String.toList_inj.mp h)) fun h => hcert (String.toList_inj.mp h)
    rw [f.wrap_agrees_iff hmode htext htext' h, TwoForms.SameMode, hmode, or_iff_right hstored,
      Option.some_inj]

end Forms

/-! ## A wrap key -/

/-- A directory with one file in it. -/
def oneFile : SideFiles where
  isContainedIn _ _ := true
  readText _ _ := .ok "material\n"

/-- The options for it. -/
def inDirectory : OvpnParseOptions := { baseDirectory := "profiles" }

/-- A remote, and the material for the tag behind it. -/
def materialFor (tag : String) (known : tag ∈ ["ca", "cert", "tls-auth", "tls-crypt", "tls-crypt-v2"])
    (opens : openingTag (Str.trim ("<" ++ tag ++ ">").toList) = some tag.toList)
    (unclosed : closesTag tag.toList "material".toList = false)
    (closes : closesTag tag.toList ("</" ++ tag ++ ">").toList = true)
    (noTag : openingTag (Str.trim (tag ++ " file").toList) = none)
    (refers : directiveOf (Str.trim (tag ++ " file").toList) = some (.directive tag ["file"])) :
    TwoForms oneFile inDirectory where
  tag := tag
  before := ["remote vpn.example.net".toList]
  opening := ("<" ++ tag ++ ">").toList
  body := ["material".toList]
  closing := ("</" ++ tag ++ ">").toList
  directive := (tag ++ " file").toList
  reference := "file"
  args := []
  content := "material\n"
  behind := []
  known := known
  topLevel t := by
    have hitems : items ["remote vpn.example.net".toList] = [.directive "remote" ["vpn.example.net"]] := by
      decide +kernel
    rw [hitems]
    simp
  opens := opens
  unclosed := by simpa using unclosed
  closes := closes
  noTag := noTag
  refers := refers
  readable := rfl
  sameLines := by decide +kernel

def cryptForms : TwoForms oneFile inDirectory :=
  materialFor "tls-crypt" (by decide) (by decide +kernel) (by decide +kernel) (by decide +kernel)
    (by decide +kernel) (by decide +kernel)

def caForms : TwoForms oneFile inDirectory :=
  materialFor "ca" (by decide) (by decide +kernel) (by decide +kernel) (by decide +kernel)
    (by decide +kernel) (by decide +kernel)

theorem ok_of_wrapMode {x : Result ImportReport} {mode : Int}
    (h : x.toOption.map (fun r => r.profile.certificates.tlsWrapMode) = some mode) :
    ∃ r, x = .ok r ∧ r.profile.certificates.tlsWrapMode = mode := by
  obtain ⟨r, hr, hmode⟩ := Option.map_eq_some_iff.mp h
  exact ⟨r, Result.eq_ok_of_toOption hr, hmode⟩

/-- The wrap mode of a key that is inline stays the default. -/
theorem inline_crypt_is_not_wrapped : ∃ r r',
    parseOvpn oneFile inDirectory (['\n'].intercalate cryptForms.inlineLines) = .ok r ∧
    parseOvpn oneFile inDirectory (['\n'].intercalate cryptForms.sideLines) = .ok r' ∧
    r.profile.certificates.tlsWrapMode = 0 ∧ r'.profile.certificates.tlsWrapMode = 1 := by
  have hinline : (parseOvpn oneFile inDirectory (['\n'].intercalate cryptForms.inlineLines)).toOption.map
      (fun r => r.profile.certificates.tlsWrapMode) = some 0 := by
    decide +kernel
  have hside : (parseOvpn oneFile inDirectory (['\n'].intercalate cryptForms.sideLines)).toOption.map
      (fun r => r.profile.certificates.tlsWrapMode) = some 1 := by
    decide +kernel
  obtain ⟨r, hr, hmode⟩ := ok_of_wrapMode hinline
  obtain ⟨r', hr', hmode'⟩ := ok_of_wrapMode hside
  exact ⟨r, r', hr, hr', hmode, hmode'⟩

theorem ca_forms_agree : ∃ r r',
    parseOvpn oneFile inDirectory (['\n'].intercalate caForms.inlineLines) = .ok r ∧
    parseOvpn oneFile inDirectory (['\n'].intercalate caForms.sideLines) = .ok r' ∧
    SameProfile r.profile r'.profile := by
  have hinline : (parseOvpn oneFile inDirectory (['\n'].intercalate caForms.inlineLines)).toOption.map
      (fun r => r.profile.certificates.tlsWrapMode) = some 0 := by
    decide +kernel
  obtain ⟨r, hr, -⟩ := ok_of_wrapMode hinline
  obtain ⟨r', hr', hsame⟩ := (forms_agree_iff caForms
    (Str.split_intercalate (by decide +kernel) (by decide +kernel))
    (Str.split_intercalate (by decide +kernel) (by decide +kernel)) hr).mpr (.inl (by decide +kernel))
  exact ⟨r, r', hr, hr', hsame⟩

end NovaVpn.Profiles
