import NovaVpn.Profiles.OvpnRoundTrip
import NovaVpn.Profiles.Overlay

/-!
# The bodies of inline blocks

The profile takes the bodies of `<ca>` and `<cert>`; those of the other inline
blocks stay in the source text. Two configurations that differ in nothing but
such bodies are `SameOutside`, and parse to the same report, up to the source
text that it carries (`inline_bodies_unseen`), whatever the lines of the bodies
look like.
-/

namespace NovaVpn.Profiles

open NovaVpn.Framework

/-! ## Configurations up to the bodies -/

/-- The bodies of the tag are a part of the profile. -/
def Stored (tag : List Char) : Prop := tag = "ca".toList ∨ tag = "cert".toList

instance (tag : List Char) : Decidable (Stored tag) :=
  inferInstanceAs (Decidable (tag = "ca".toList ∨ tag = "cert".toList))

/-- The lines of two configurations that are the same outside of inline blocks,
and in the blocks of `<ca>` and `<cert>`. No line of a body closes its block; a
block that no line closes takes the rest of the lines. -/
inductive SameOutside : List (List Char) → List (List Char) → Prop
  | nil : SameOutside [] []
  | line {line : List Char} {rest rest' : List (List Char)}
      (hline : openingTag (Str.trim line) = none) (hrest : SameOutside rest rest') :
      SameOutside (line :: rest) (line :: rest')
  | block {opening tag closing : List Char} {body body' rest rest' : List (List Char)}
      (hopening : openingTag (Str.trim opening) = some tag)
      (hbody : ∀ line ∈ body, closesTag tag line = false)
      (hbody' : ∀ line ∈ body', closesTag tag line = false)
      (hclosing : closesTag tag closing = true) (hstored : Stored tag → body = body')
      (hrest : SameOutside rest rest') :
      SameOutside (opening :: (body ++ closing :: rest)) (opening :: (body' ++ closing :: rest'))
  | unterminated {opening tag : List Char} {body body' : List (List Char)}
      (hopening : openingTag (Str.trim opening) = some tag)
      (hbody : ∀ line ∈ body, closesTag tag line = false)
      (hbody' : ∀ line ∈ body', closesTag tag line = false) :
      SameOutside (opening :: body) (opening :: body')

/-- A block has a line that closes it, or takes all the lines. -/
theorem closed_or_unclosed (tag : List Char) (lines : List (List Char)) :
    (∃ body closing rest, lines = body ++ closing :: rest ∧
        (∀ line ∈ body, closesTag tag line = false) ∧ closesTag tag closing = true) ∨
      ∀ line ∈ lines, closesTag tag line = false := by
  induction lines with
  | nil => exact .inr (by simp)
  | cons line lines ih =>
    cases hline : closesTag tag line with
    | true => exact .inl ⟨[], line, lines, rfl, by simp, hline⟩
    | false =>
      obtain ⟨body, closing, rest, rfl, hbody, hclosing⟩ | hall := ih
      · exact .inl ⟨line :: body, closing, rest, rfl, List.forall_mem_cons.mpr ⟨hline, hbody⟩, hclosing⟩
      · exact .inr (List.forall_mem_cons.mpr ⟨hline, hall⟩)

/-- Every configuration has this form. -/
theorem SameOutside.refl (lines : List (List Char)) : SameOutside lines lines := by
  induction hn : lines.length using Nat.strongRecOn generalizing lines with
  | ind n ih =>
    cases lines with
    | nil => exact .nil
    | cons line rest =>
      rw [List.length_cons] at hn
      cases hline : openingTag (Str.trim line) with
      | none => exact .line hline (ih rest.length (by omega) rest rfl)
      | some tag =>
        obtain ⟨body, closing, rest, rfl, hbody, hclosing⟩ | hall := closed_or_unclosed tag rest
        · rw [List.length_append, List.length_cons] at hn
          exact .block hline hbody hbody hclosing (fun _ => rfl) (ih rest.length (by omega) rest rfl)
        · exact .unterminated hline hall hall

/-- The report with an empty source text. -/
def ImportReport.withoutSource (r : ImportReport) : ImportReport :=
  { r with profile := { r.profile with sourceConfig := "" } }

/-! ## Their items -/

section Items

variable {tag opening closing : List Char} {body rest : List (List Char)}

theorem items_line {line : List Char} (hline : openingTag (Str.trim line) = none)
    (rest : List (List Char)) :
    items (line :: rest) = (directiveOf (Str.trim line)).toList ++ items rest := by
  rw [items_cons, hline]

theorem items_block (hopening : openingTag (Str.trim opening) = some tag)
    (hbody : ∀ line ∈ body, closesTag tag line = false) (hclosing : closesTag tag closing = true)
    (rest : List (List Char)) :
    items (opening :: (body ++ closing :: rest)) = .block tag (blockBody body) :: items rest := by
  have hdrop : (body ++ closing :: rest).drop (body.length + 1) = rest := by
    rw [← List.drop_drop, List.drop_left, List.drop_one, List.tail_cons]
  rw [items_cons, hopening]
  dsimp only
  rw [readInlineBlock_append hbody hclosing]
  dsimp only
  rw [hdrop]

theorem readInlineBlock_unclosed (hbody : ∀ line ∈ body, closesTag tag line = false) :
    readInlineBlock tag body = none := by
  induction body with
  | nil => rfl
  | cons line body ih =>
    obtain ⟨hline, hbody⟩ := List.forall_mem_cons.mp hbody
    rw [readInlineBlock, if_neg (ne_true_of_eq_false hline), ih hbody]
    rfl

theorem items_unterminated (hopening : openingTag (Str.trim opening) = some tag)
    (hbody : ∀ line ∈ body, closesTag tag line = false) :
    items (opening :: body) = [.unterminated tag] := by
  rw [items_cons, hopening]
  dsimp only
  rw [readInlineBlock_unclosed hbody]

end Items

/-! ## What the parser sees of them -/

/-- The body of any other block is not looked at. -/
theorem ParseState.applyBlock_body {tag : List Char} (h : ¬ Stored tag) (s : ParseState)
    (body body' : List Char) : s.applyBlock tag body = s.applyBlock tag body' := by
  obtain ⟨hca, hcert⟩ := not_or.mp h
  simp only [applyBlock, if_neg hca, if_neg hcert]

/-- The items of the two configurations do the same to any state. -/
theorem SameOutside.foldlM {lines lines' : List (List Char)} (h : SameOutside lines lines')
    (files : SideFiles) (options : OvpnParseOptions) (s : ParseState) :
    (items lines).foldlM (ParseState.applyItem files options) s =
      (items lines').foldlM (ParseState.applyItem files options) s := by
  induction h generalizing s with
  | nil => rfl
  | line hline _ ih =>
    rw [items_line hline, items_line hline, List.foldlM_append, List.foldlM_append]
    exact bind_congr ih
  | @block opening tag closing body body' rest rest' hopening hbody hbody' hclosing hstored _ ih =>
    rw [items_block hopening hbody hclosing, items_block hopening hbody' hclosing,
      List.foldlM_cons, List.foldlM_cons]
    have hblock : s.applyBlock tag (blockBody body) = s.applyBlock tag (blockBody body') := by
      by_cases hs : Stored tag
      · rw [hstored hs]
      · exact ParseState.applyBlock_body hs s _ _
    rw [ParseState.applyItem, ParseState.applyItem, hblock]
    exact ih _
  | unterminated hopening hbody hbody' =>
    rw [items_unterminated hopening hbody, items_unterminated hopening hbody']

/-- The state that starts with another source text. -/
def Overlay.source (text : List Char) : Overlay :=
  { Overlay.same with sourceConfig := fun _ => String.ofList text }

theorem Overlay.misses_source (text : List Char) (files : SideFiles) (options : OvpnParseOptions)
    (item : Item) : (Overlay.source text).Misses files options item where
  proto _ := rfl
  port _ := rfl
  wrap _ := rfl
  caPem _ := rfl
  certificatePem _ := rfl
  rejected _ _ _ := rfl

theorem initial_source (options : OvpnParseOptions) (text text' : List Char) :
    ParseState.initial options text = (Overlay.source text).on (.initial options text') := rfl

/-- The source text does not matter to the rest of the parse. -/
theorem parse_source (files : SideFiles) (options : OvpnParseOptions) (l : List Item)
    (text text' : List Char) :
    ((l.foldlM (ParseState.applyItem files options) (.initial options text) >>=
        ParseState.finish).map ImportReport.withoutSource) =
      ((l.foldlM (ParseState.applyItem files options) (.initial options text') >>=
        ParseState.finish).map ImportReport.withoutSource) := by
  rw [initial_source options text text',
    foldlM_passes fun item _ => (Overlay.misses_source text files options item).passes]
  cases l.foldlM (ParseState.applyItem files options) (.initial options text') with
  | error status => rfl
  | ok s =>
    show ((Overlay.source text).on s).finish.map _ = s.finish.map _
    rw [Overlay.finish_on]
    cases s.finish <;> rfl

/-- Configurations that differ in nothing but the bodies of inline blocks other
than `<ca>` and `<cert>` have the same outcome, and reports with the same fields
but for the source text. -/
theorem inline_bodies_unseen (files : SideFiles) (options : OvpnParseOptions)
    {text text' : List Char}
    (h : SameOutside (Str.split '\n' text) (Str.split '\n' text')) :
    (parseOvpn files options text).map ImportReport.withoutSource =
      (parseOvpn files options text').map ImportReport.withoutSource := by
  rw [parseOvpn_eq, parseOvpn_eq, h.foldlM]
  exact parse_source files options _ text text'

/-- The lines of a configuration with a private key of these lines. -/
def withKey (key : List (List Char)) : List (List Char) :=
  "remote vpn.example.net".toList :: "<key>".toList :: (key ++ "</key>".toList :: [])

/-- A key that looks like a directive and the start of another block. -/
theorem key_like_directives_unseen :
    (parseOvpn noFiles {} (['\n'].intercalate (withKey ["remote evil".toList, "<ca>".toList]))).map
        ImportReport.withoutSource =
      (parseOvpn noFiles {} (['\n'].intercalate (withKey ["secret".toList]))).map
        ImportReport.withoutSource := by
  refine inline_bodies_unseen noFiles {} ?_
  rw [Str.split_intercalate (by decide) (by simp [withKey]),
    Str.split_intercalate (by decide) (by simp [withKey])]
  have hopening : openingTag (Str.trim "<key>".toList) = some "key".toList := by decide
  exact .line (by decide) (.block hopening (by decide) (by decide) (by decide) (by decide) .nil)

end NovaVpn.Profiles
