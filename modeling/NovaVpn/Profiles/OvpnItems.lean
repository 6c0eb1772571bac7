import NovaVpn.Profiles.OvpnParser

/-!
# A configuration as a list of items

What the parser takes from the lines does not depend on what it makes of them:
`items` is the list of directives and inline blocks, in order, with an
unterminated block at the end if there is one, and `parseLines_eq` says that the
parser applies one after the other.
-/

namespace NovaVpn.Profiles

/-- What a configuration consists of. -/
inductive Item where
  | directive (keyword : String) (args : List String)
  | block (tag body : List Char)
  | unterminated (tag : List Char)
  deriving DecidableEq, Repr

/-- The directive on a trimmed line, if there is one. -/
def directiveOf (raw : List Char) : Option Item :=
  (tokenizeOvpnLine raw 0).map fun d => .directive d.keyword d.args

/-- The items of the lines, after `skip` of them. -/
def itemsAfter : (skip : Nat) → List (List Char) → List Item
  | _, [] => []
  | skip + 1, _ :: rest => itemsAfter skip rest
  | 0, line :: rest =>
    match openingTag (Str.trim line) with
    | some tag =>
      match readInlineBlock tag rest with
      | none => [.unterminated tag]
      | some (body, n) => .block tag body :: itemsAfter n rest
    | none => (directiveOf (Str.trim line)).toList ++ itemsAfter 0 rest

def items (lines : List (List Char)) : List Item := itemsAfter 0 lines

theorem itemsAfter_eq (n : Nat) (lines : List (List Char)) :
    itemsAfter n lines = items (lines.drop n) := by
  induction n generalizing lines with
  | zero => rfl
  | succ n ih =>
    cases lines with
    | nil => rfl
    | cons line rest => exact ih rest

theorem items_cons (line : List Char) (rest : List (List Char)) :
    items (line :: rest) =
      match openingTag (Str.trim line) with
      | some tag =>
        match readInlineBlock tag rest with
        | none => [.unterminated tag]
        | some (body, n) => .block tag body :: items (rest.drop n)
      | none => (directiveOf (Str.trim line)).toList ++ items rest := by
  have h0 : itemsAfter 0 rest = items rest := rfl
  rw [items, itemsAfter, h0]
  simp only [itemsAfter_eq]

/-- What the parser makes of an item. -/
def ParseState.applyItem (files : SideFiles) (options : OvpnParseOptions) (s : ParseState) :
    Item → Result ParseState
  | .directive keyword args => s.applyDirective files options { keyword, args }
  | .block tag body => .ok (s.applyBlock tag body)
  | .unterminated tag =>
    .error (Err.make .parseError
      ("unterminated <" ++ String.ofList tag ++ "> block in configuration"))

/-! ## Lines without a directive -/

/-- A line that starts with a comment has no directive and opens no block. -/
theorem directiveOf_comment {c : Char} {raw : List Char} (hc : c = '#' ∨ c = ';') :
    directiveOf (c :: raw) = none ∧ openingTag (c :: raw) = none := by
  have hscan : TokenState.scan {} (c :: raw) = {} := by
    rw [TokenState.scan.eq_def]
    rcases hc with rfl | rfl <;> rfl
  refine ⟨by simp [directiveOf, tokenizeOvpnLine, hscan, TokenState.close], ?_⟩
  rcases hc with rfl | rfl <;> simp [openingTag]

theorem blank_line {raw : List Char}
    (h : (raw.isEmpty || raw.head? = some '#' || raw.head? = some ';') = true) :
    directiveOf raw = none ∧ openingTag raw = none := by
  cases raw with
  | nil => exact ⟨rfl, rfl⟩
  | cons c raw =>
    refine directiveOf_comment ?_
    simpa using h

/-- The line number is not looked at. -/
theorem directiveOf_eq (raw : List Char) (n : Nat) :
    directiveOf raw = (tokenizeOvpnLine raw n).map fun d => .directive d.keyword d.args := by
  unfold directiveOf tokenizeOvpnLine
  split <;> rfl

/-- The parser applies the items one after the other. -/
theorem parseLines_eq (files : SideFiles) (options : OvpnParseOptions) (i skip : Nat)
    (s : ParseState) (lines : List (List Char)) :
    parseLines files options i skip s lines =
      (items (lines.drop skip)).foldlM (ParseState.applyItem files options) s := by
  induction lines generalizing i skip s with
  | nil => simp [parseLines, items, itemsAfter, pure, Except.pure]
  | cons line rest ih =>
    cases skip with
    | succ skip => exact ih (i + 1) skip s
    | zero =>
      rw [parseLines, List.drop_zero, items_cons]
      split
      · rename_i hblank
        obtain ⟨hd, ht⟩ := blank_line hblank
        rw [ht, hd, ih]
        rfl
      · cases ht : openingTag (Str.trim line) with
        | some tag =>
          dsimp only
          cases readInlineBlock tag rest with
          | none => rfl
          | some block => exact ih (i + 1) block.2 _
        | none =>
          dsimp only
          rw [directiveOf_eq _ (i + 1)]
          cases tokenizeOvpnLine (Str.trim line) (i + 1) with
          | none => exact ih (i + 1) 0 s
          | some d =>
            simp only [Option.map_some, Option.toList_some, List.singleton_append, List.foldlM_cons,
              ParseState.applyItem]
            have hd : s.applyDirective files options { keyword := d.keyword, args := d.args } =
                s.applyDirective files options d := rfl
            rw [hd]
            cases s.applyDirective files options d with
            | error status => rfl
            | ok s' => exact ih (i + 1) 0 s'

theorem parseOvpn_eq (files : SideFiles) (options : OvpnParseOptions) (text : List Char) :
    parseOvpn files options text =
      (items (Str.split '\n' text)).foldlM (ParseState.applyItem files options)
        (.initial options text) >>= ParseState.finish := by
  rw [parseOvpn, parseLines_eq, List.drop_zero]

end NovaVpn.Profiles
