import NovaVpn.Profiles.Overlay

/-!
# Dangerous directives

A directive that would run code is put on the list of rejected directives and
nothing else: what is imported from a configuration is what is imported from it
without the top-level lines that hold one, and a strict parse is one that finds
none (`dangerous_without_influence`).
-/

namespace NovaVpn.Profiles

open NovaVpn.Framework

/-! ## The lines that hold one -/

/-- The keyword of the line, if it is a dangerous directive. -/
def dangerousKeyword (line : List Char) : Option String :=
  (tokenizeOvpnLine (Str.trim line) 0).bind fun d =>
    if dangerousDirectives.contains d.keyword then some d.keyword else none

/-- Every line, with its keyword if it is a top-level line with a dangerous
directive; `inside` is the tag of the inline block that the lines are in. -/
def marked : (inside : Option (List Char)) → List (List Char) → List (List Char × Option String)
  | _, [] => []
  | some tag, line :: rest =>
    (line, none) :: marked (if closesTag tag line then none else some tag) rest
  | none, line :: rest =>
    match openingTag (Str.trim line) with
    | some tag => (line, none) :: marked (some tag) rest
    | none => (line, dangerousKeyword line) :: marked none rest

/-- The lines that are not marked. -/
def kept (inside : Option (List Char)) (lines : List (List Char)) : List (List Char) :=
  ((marked inside lines).filter fun m => m.2.isNone).map Prod.fst

/-- The keywords of the lines that are. -/
def dangerousKeywords (inside : Option (List Char)) (lines : List (List Char)) : List String :=
  (marked inside lines).filterMap Prod.snd

/-- The text without the top-level lines that hold a dangerous directive. -/
def withoutDangerous (text : List Char) : List Char :=
  ['\n'].intercalate (kept none (Str.split '\n' text))

/-! ## What they are among the items -/

def Item.dangerous : Item → Option String
  | .directive keyword _ => if dangerousDirectives.contains keyword then some keyword else none
  | _ => none

def Item.keyword : Item → Option String
  | .directive keyword _ => some keyword
  | _ => none

/-- The keywords of the top-level lines of a configuration. -/
def topLevelKeywords (text : List Char) : List String :=
  (items (Str.split '\n' text)).filterMap Item.keyword

theorem keyword_of_dangerous {item : Item} {keyword : String}
    (h : item.dangerous = some keyword) : item.keyword = some keyword := by
  cases item with
  | directive key args =>
    simp only [Item.dangerous, Option.ite_none_right_eq_some] at h
    exact h.2
  | block tag body => cases h
  | unterminated tag => cases h

theorem dangerousKeyword_eq (line : List Char) :
    dangerousKeyword line = (directiveOf (Str.trim line)).bind Item.dangerous := by
  unfold dangerousKeyword directiveOf
  cases tokenizeOvpnLine (Str.trim line) 0 with
  | none => rfl
  | some d => rfl

/-- A line that opens a block. -/
theorem kept_opening {tag line : List Char} (ht : openingTag (Str.trim line) = some tag)
    (rest : List (List Char)) : kept none (line :: rest) = line :: kept (some tag) rest ∧
      dangerousKeywords none (line :: rest) = dangerousKeywords (some tag) rest := by
  simp [kept, dangerousKeywords, marked, ht]

/-- Any other top-level line. -/
theorem kept_plain {line : List Char} (ht : openingTag (Str.trim line) = none)
    (rest : List (List Char)) :
    kept none (line :: rest) =
        (if (dangerousKeyword line).isNone then [line] else []) ++ kept none rest ∧
      dangerousKeywords none (line :: rest) =
        (dangerousKeyword line).toList ++ dangerousKeywords none rest := by
  cases h : dangerousKeyword line <;> simp [kept, dangerousKeywords, marked, ht, h]

/-- A line of a block. -/
theorem kept_inside (tag line : List Char) (rest : List (List Char)) :
    kept (some tag) (line :: rest) =
      line :: kept (if closesTag tag line then none else some tag) rest := by
  simp [kept, marked]

/-- An inline block reads the same among the lines that are kept. -/
theorem readInlineBlock_kept (tag : List Char) (rest : List (List Char)) :
    readInlineBlock tag (kept (some tag) rest) = readInlineBlock tag rest := by
  induction rest with
  | nil => rfl
  | cons line rest ih =>
    rw [kept_inside, readInlineBlock, readInlineBlock]
    split
    · rfl
    · rw [ih]

/-- After the block the lines are top-level lines again. -/
theorem after_block {tag body : List Char} {n : Nat} {rest : List (List Char)}
    (h : readInlineBlock tag rest = some (body, n)) :
    (kept (some tag) rest).drop n = kept none (rest.drop n) ∧
      dangerousKeywords (some tag) rest = dangerousKeywords none (rest.drop n) := by
  induction rest generalizing body n with
  | nil => cases h
  | cons line rest ih =>
    rw [readInlineBlock] at h
    rw [kept_inside]
    split at h
    · rename_i hc
      cases h
      simp [hc, dangerousKeywords, marked]
    · rename_i hc
      obtain ⟨⟨body', n'⟩, hr, he⟩ := Option.map_eq_some_iff.mp h
      cases he
      obtain ⟨hk, hw⟩ := ih hr
      rw [if_neg hc]
      refine ⟨hk, ?_⟩
      simpa [dangerousKeywords, marked, hc] using hw

theorem unterminated_block {tag : List Char} {rest : List (List Char)}
    (h : readInlineBlock tag rest = none) : dangerousKeywords (some tag) rest = [] := by
  induction rest with
  | nil => rfl
  | cons line rest ih =>
    rw [readInlineBlock] at h
    split at h
    · cases h
    · rename_i hc
      simpa [dangerousKeywords, marked, hc] using ih (Option.map_eq_none_iff.mp h)

/-- The items of the lines that are kept are those that are not dangerous, and the
keywords of the others are those of the items. -/
theorem items_kept (lines : List (List Char)) :
    items (kept none lines) = (items lines).filter (fun item => item.dangerous.isNone) ∧
      dangerousKeywords none lines = (items lines).filterMap Item.dangerous := by
  induction hn : lines.length using Nat.strongRecOn generalizing lines with
  | ind n ih =>
    cases lines with
    | nil => exact ⟨rfl, rfl⟩
    | cons line rest =>
      subst hn
      cases ht : openingTag (Str.trim line) with
      | some tag =>
        obtain ⟨hkept, hwords⟩ := kept_opening ht rest
        rw [hkept, hwords, items_cons, items_cons, ht]
        dsimp only
        rw [readInlineBlock_kept]
        cases hr : readInlineBlock tag rest with
        | none => exact ⟨rfl, unterminated_block hr⟩
        | some block =>
          obtain ⟨body, n⟩ := block
          obtain ⟨hdrop, hafter⟩ := after_block hr
          have hlt : (rest.drop n).length < (line :: rest).length := by
            rw [List.length_drop, List.length_cons]
            omega
          obtain ⟨hi, hw⟩ := ih _ hlt (rest.drop n) rfl
          dsimp only
          rw [hdrop, hi, hafter, hw]
          exact ⟨rfl, rfl⟩
      | none =>
        obtain ⟨hi, hw⟩ := ih rest.length (by simp) rest rfl
        obtain ⟨hkept, hwords⟩ := kept_plain ht rest
        rw [hkept, hwords, hw, dangerousKeyword_eq, items_cons, ht]
        dsimp only
        cases hd : directiveOf (Str.trim line) with
        | none => simp [items_cons, ht, hd, hi]
        | some item =>
          cases hk : item.dangerous with
          | none => simp [items_cons, ht, hd, hi, hk]
          | some keyword => simp [hi, hk]

theorem mem_topLevelKeywords {text : List Char} {keyword : String}
    (h : keyword ∈ dangerousKeywords none (Str.split '\n' text)) :
    keyword ∈ topLevelKeywords text := by
  rw [(items_kept _).2] at h
  obtain ⟨item, hitem, hkeyword⟩ := List.mem_filterMap.mp h
  exact List.mem_filterMap.mpr ⟨item, hitem, keyword_of_dangerous hkeyword⟩

/-! ## What the parser leaves alone

`put` sets the two fields in which the parses differ. It is an overlay, which every
item passes on that is not dangerous. -/

/-- The report with another source and other rejected directives. -/
def ImportReport.put (r : ImportReport) (source : String) (rejected : List String) : ImportReport :=
  { r with
    profile := { r.profile with sourceConfig := source }
    rejectedDirectives := rejected }

namespace ParseState

def put (s : ParseState) (source : String) (rejected : List String) : ParseState :=
  { s with
    profile := { s.profile with sourceConfig := source }
    report := { s.report with rejectedDirectives := rejected } }

@[simp] theorem put_reject (s : ParseState) (source : String) (rejected : List String) (key : String) :
    (s.reject key).put source rejected = s.put source rejected := rfl

end ParseState

def Overlay.put (source : String) (rejected : List String) : Overlay :=
  { Overlay.same with
    sourceConfig := fun _ => source
    rejected := fun _ => rejected }

section Parse

variable {files : SideFiles} {options : OvpnParseOptions} {keyword : String} {args : List String}
  {item : Item} {s t : ParseState} {report : ImportReport}

theorem dangerous_of_mem (hd : keyword ∈ dangerousDirectives) :
    (Item.directive keyword args).dangerous = some keyword := by
  simp [Item.dangerous, hd]

theorem dangerous_of_notMem (hd : keyword ∉ dangerousDirectives) :
    (Item.directive keyword args).dangerous = none := by
  simp [Item.dangerous, hd]

theorem eq_directive_of_dangerous (h : item.dangerous = some keyword) :
    ∃ args, item = .directive keyword args ∧ keyword ∈ dangerousDirectives := by
  cases item with
  | directive key args =>
    simp only [Item.dangerous, Option.ite_none_right_eq_some, Option.some.injEq] at h
    obtain ⟨hd, rfl⟩ := h
    exact ⟨args, rfl, by simpa using hd⟩
  | block tag body => cases h
  | unterminated tag => cases h

theorem Overlay.misses_put (h : item.dangerous = none) (source : String) (rejected : List String) :
    (Overlay.put source rejected).Misses files options item where
  proto _ := rfl
  port _ := rfl
  wrap _ := rfl
  caPem _ := rfl
  certificatePem _ := rfl
  rejected := by
    rintro ⟨key, args, rfl, hd⟩
    rw [dangerous_of_mem hd] at h
    cases h

/-- The last checks leave the two fields alone. -/
theorem finish_put (s : ParseState) (source : String) (rejected : List String) :
    (s.put source rejected).finish = s.finish.map fun r => r.put source rejected :=
  Overlay.finish_on (.put source rejected) s

theorem finish_keeps (h : s.finish = .ok report) :
    report.profile.sourceConfig = s.profile.sourceConfig ∧
      report.rejectedDirectives = s.report.rejectedDirectives := by
  have hput := finish_put s s.profile.sourceConfig s.report.rejectedDirectives
  have hs : s.put s.profile.sourceConfig s.report.rejectedDirectives = s := rfl
  rw [hs, h] at hput
  have hkept := Except.ok.inj hput
  rw [hkept]
  exact ⟨rfl, rfl⟩

/-- An item that is not dangerous leaves the two fields alone. -/
theorem applyItem_keeps (hd : item.dangerous = none) (h : s.applyItem files options item = .ok t) :
    t.profile.sourceConfig = s.profile.sourceConfig ∧
      t.report.rejectedDirectives = s.report.rejectedDirectives := by
  have hkept :=
    (Overlay.misses_put hd s.profile.sourceConfig s.report.rejectedDirectives).keeps rfl h
  rw [hkept]
  exact ⟨rfl, rfl⟩

theorem applyItem_dangerous (hd : keyword ∈ dangerousDirectives) (hstrict : options.strict = false)
    (s : ParseState) :
    s.applyItem files options (.directive keyword args) = .ok (s.reject keyword) := by
  simp [ParseState.applyItem, ParseState.applyDirective, hd, hstrict]

theorem applyItem_known (hd : keyword ∉ dangerousDirectives) (s : ParseState) :
    s.applyItem files options (.directive keyword args) =
      .ok (s.applyKnown files options keyword args) := by
  simp [ParseState.applyItem, ParseState.applyDirective, hd]

theorem applyItem_source (h : s.applyItem files options item = .ok t) :
    t.profile.sourceConfig = s.profile.sourceConfig := by
  cases hd : item.dangerous with
  | none => exact (applyItem_keeps hd h).1
  | some keyword =>
    obtain ⟨args, rfl, hmem⟩ := eq_directive_of_dangerous hd
    simp only [ParseState.applyItem, ParseState.applyDirective] at h
    rw [if_pos (by simpa using hmem)] at h
    split at h
    · cases h
    · cases h
      rfl

/-- Without the dangerous items the parse is the same, but for the two fields. -/
theorem foldlM_put (hstrict : options.strict = false) (source : String) (rejected : List String)
    (l : List Item) (s : ParseState) :
    (l.filter fun item => item.dangerous.isNone).foldlM (ParseState.applyItem files options)
        (s.put source rejected) =
      (l.foldlM (ParseState.applyItem files options) s).map fun s => s.put source rejected := by
  induction l generalizing s with
  | nil => rfl
  | cons item l ih =>
    cases hd : item.dangerous with
    | some keyword =>
      obtain ⟨args, rfl, hmem⟩ := eq_directive_of_dangerous hd
      have hrest := ih (s.reject keyword)
      rw [ParseState.put_reject] at hrest
      rw [List.filter_cons_of_neg (by simp [hd]), hrest, List.foldlM_cons,
        applyItem_dangerous hmem hstrict]
      rfl
    | none =>
      have hpass : Passes (ParseState.applyItem files options) (Overlay.put source rejected).on item :=
        (Overlay.misses_put hd source rejected).passes
      rw [List.filter_cons_of_pos (by simp [hd])]
      refine (hpass.cons _ s).trans ?_
      rw [List.foldlM_cons]
      cases s.applyItem files options item with
      | error status => rfl
      | ok t => exact ih t

/-- The rejected directives are those of the dangerous items. -/
theorem foldlM_rejected (hstrict : options.strict = false) {l : List Item} {s t : ParseState}
    (h : l.foldlM (ParseState.applyItem files options) s = .ok t) :
    t.report.rejectedDirectives = s.report.rejectedDirectives ++ l.filterMap Item.dangerous := by
  induction l generalizing s with
  | nil =>
    cases h
    simp
  | cons item l ih =>
    obtain ⟨u, hitem, hl⟩ := foldlM_cons_ok.mp h
    rw [ih hl]
    cases hd : item.dangerous with
    | some keyword =>
      obtain ⟨args, rfl, hmem⟩ := eq_directive_of_dangerous hd
      rw [applyItem_dangerous hmem hstrict] at hitem
      cases hitem
      rw [List.filterMap_cons_some hd]
      simp [ParseState.reject]
    | none =>
      rw [List.filterMap_cons_none hd, (applyItem_keeps hd hitem).2]

/-- A strict parse is one that finds no dangerous item. -/
theorem foldlM_strict {l : List Item} {s t : ParseState} :
    l.foldlM (ParseState.applyItem files { options with strict := true }) s = .ok t ↔
      l.foldlM (ParseState.applyItem files { options with strict := false }) s = .ok t ∧
        l.filterMap Item.dangerous = [] := by
  induction l generalizing s with
  | nil => simp
  | cons item l ih =>
    rw [List.foldlM_cons, List.foldlM_cons]
    cases item with
    | unterminated tag => exact ⟨fun h => (by cases h), fun h => (by cases h.1)⟩
    | block tag body => exact ih
    | directive keyword args =>
      by_cases hd : keyword ∈ dangerousDirectives
      · refine ⟨fun h => ?_, fun h => ?_⟩
        · simp [ParseState.applyItem, ParseState.applyDirective, hd, bind, Except.bind] at h
        · have hnil := h.2
          simp [dangerous_of_mem hd] at hnil
      · rw [applyItem_known hd, applyItem_known hd, List.filterMap_cons_none (dangerous_of_notMem hd)]
        exact ih

end Parse

theorem map_fst_marked (inside : Option (List Char)) (lines : List (List Char)) :
    (marked inside lines).map Prod.fst = lines := by
  induction lines generalizing inside with
  | nil => cases inside <;> rfl
  | cons line rest ih =>
    cases inside with
    | some tag => simp [marked, ih]
    | none =>
      rw [marked]
      split <;> simp [ih]

theorem mem_of_mem_kept {inside : Option (List Char)} {lines : List (List Char)} {line : List Char}
    (h : line ∈ kept inside lines) : line ∈ lines := by
  obtain ⟨m, hm, rfl⟩ := List.mem_map.mp h
  rw [← map_fst_marked inside lines]
  exact List.mem_map_of_mem (List.mem_filter.mp hm).1

/-- The items of the text without its dangerous lines. -/
theorem items_withoutDangerous (text : List Char) :
    items (Str.split '\n' (withoutDangerous text)) =
      (items (Str.split '\n' text)).filter fun item => item.dangerous.isNone := by
  rw [← (items_kept _).1, withoutDangerous]
  by_cases hnil : kept none (Str.split '\n' text) = []
  · rw [hnil]
    rfl
  · rw [Str.split_intercalate (fun piece hp => ?_) hnil]
    exact Str.notMem_of_mem_split (mem_of_mem_kept hp)

theorem initial_put (options : OvpnParseOptions) (text text' : List Char) :
    ParseState.initial options text' =
      (ParseState.initial options text).put (String.ofList text') [] := rfl

theorem rejected_eq {files : SideFiles} {options : OvpnParseOptions} {text : List Char}
    {report : ImportReport} (hstrict : options.strict = false)
    (h : parseOvpn files options text = .ok report) :
    report.rejectedDirectives = (items (Str.split '\n' text)).filterMap Item.dangerous := by
  rw [parseOvpn_eq] at h
  obtain ⟨s, hs, hfinish⟩ := Result.bind_eq_ok_iff.mp h
  exact (finish_keeps hfinish).2.trans (foldlM_rejected hstrict hs)

/-- The whole text is kept, dangerous lines and all. -/
theorem sourceConfig_of_parse {files : SideFiles} {options : OvpnParseOptions} {text : List Char}
    {report : ImportReport} (h : parseOvpn files options text = .ok report) :
    report.profile.sourceConfig = String.ofList text := by
  rw [parseOvpn_eq] at h
  obtain ⟨s, hs, hfinish⟩ := Result.bind_eq_ok_iff.mp h
  have hsource := foldlM_related
    (R := fun s t : ParseState => t.profile.sourceConfig = s.profile.sourceConfig) (fun _ => rfl)
    (fun _ _ _ hst htu => htu.trans hst) (fun _ _ _ _ => applyItem_source) hs
  exact (finish_keeps hfinish).1.trans hsource

/-- For every text: without its dangerous lines it parses to the same report, but
for the source and the rejected directives; these are the keywords of those lines;
and a strict parse succeeds if the other finds none, with the same report. -/
theorem dangerous_without_influence (files : SideFiles) (options : OvpnParseOptions)
    (text : List Char) :
    parseOvpn files { options with strict := false } (withoutDangerous text) =
      (parseOvpn files { options with strict := false } text).map (fun report =>
        report.put (String.ofList (withoutDangerous text)) []) ∧
    (∀ report, parseOvpn files { options with strict := false } text = .ok report →
      report.rejectedDirectives = dangerousKeywords none (Str.split '\n' text)) ∧
    ∀ report, parseOvpn files { options with strict := true } text = .ok report ↔
      parseOvpn files { options with strict := false } text = .ok report ∧
        report.rejectedDirectives = [] := by
  refine ⟨?_, fun report h => ?_, fun report => ⟨fun h => ?_, fun ⟨h, hnone⟩ => ?_⟩⟩
  · rw [parseOvpn_eq, parseOvpn_eq, items_withoutDangerous, initial_put _ text, foldlM_put rfl]
    cases (items (Str.split '\n' text)).foldlM
        (ParseState.applyItem files { options with strict := false })
        (.initial { options with strict := false } text) with
    | error status => rfl
    | ok s => exact finish_put s _ _
  · rw [rejected_eq rfl h, (items_kept _).2]
  · rw [parseOvpn_eq] at h
    obtain ⟨s, hs, hfinish⟩ := Result.bind_eq_ok_iff.mp h
    obtain ⟨hrun, hnone⟩ := foldlM_strict.mp hs
    have hlenient : parseOvpn files { options with strict := false } text = .ok report := by
      rw [parseOvpn_eq]
      exact Result.bind_eq_ok_iff.mpr ⟨s, hrun, hfinish⟩
    refine ⟨hlenient, ?_⟩
    rw [rejected_eq rfl hlenient, hnone]
  · rw [rejected_eq rfl h] at hnone
    rw [parseOvpn_eq] at h ⊢
    obtain ⟨s, hs, hfinish⟩ := Result.bind_eq_ok_iff.mp h
    exact Result.bind_eq_ok_iff.mpr ⟨s, foldlM_strict.mpr ⟨hs, hnone⟩, hfinish⟩

end NovaVpn.Profiles
