import NovaVpn.Profiles.OvpnParser

/-!
# What a line is split into

The arguments of a directive are what the tokeniser makes of the rest of its
line (`tokens`). A text that is written there as it is comes back as an argument
only if it is `Plain`: a separator, a comment character or a quote in it is
lost (`plain_of_mem_tokens`), and a text without any of these is one token
(`tokens_plain`).
-/

namespace NovaVpn.Profiles

/-- A character that ends a token. -/
def isSeparator (c : Char) : Bool := c = ' ' || c = '\t' || c = '\r' || c = '\n'

def isQuote (c : Char) : Bool := c = '"' || c = '\''

/-- A character that starts a comment. -/
def isComment (c : Char) : Bool := c = '#' || c = ';'

/-- A character that stands for itself wherever it is. -/
def isPlain (c : Char) : Bool := !isSeparator c && !isQuote c && !isComment c

/-- A text that stands for itself. -/
def Plain (text : List Char) : Prop := ∀ c ∈ text, isPlain c = true

namespace TokenState

variable {s : TokenState} {c : Char} {rest : List Char}

/-- All characters of the tokens so far. -/
def chars (s : TokenState) : List Char := s.tokens.flatten ++ s.current

theorem chars_push (s : TokenState) (c : Char) : (s.push c).chars = s.chars ++ [c] :=
  (List.append_assoc ..).symm

theorem chars_close (s : TokenState) : s.close.chars = s.chars := by
  unfold close
  split
  · simp [chars]
  · rfl

/-- The later state has some characters of the line more, in its order. -/
def Keeps (s : TokenState) (line : List Char) (t : TokenState) : Prop :=
  ∃ kept, kept.Sublist line ∧ t.chars = s.chars ++ kept

theorem Keeps.nil (s : TokenState) (line : List Char) : Keeps s line s :=
  ⟨[], List.nil_sublist line, (List.append_nil s.chars).symm⟩

/-- The first character is dropped. -/
theorem Keeps.skip {s s' t : TokenState} (c : Char) (h : Keeps s' rest t) (hs : s'.chars = s.chars) :
    Keeps s (c :: rest) t := by
  obtain ⟨kept, hkept, ht⟩ := h
  exact ⟨kept, hkept.cons c, by rw [ht, hs]⟩

/-- The first character is kept. -/
theorem Keeps.take {s t : TokenState} (h : Keeps (s.push c) rest t) : Keeps s (c :: rest) t := by
  obtain ⟨kept, hkept, ht⟩ := h
  exact ⟨c :: kept, hkept.cons_cons c, by rw [ht, chars_push, List.append_assoc]; rfl⟩

attribute [local simp] scan

theorem scan_keeps (s : TokenState) (line : List Char) : Keeps s line (scan s line) := by
  fun_induction scan s line with
  | case1 s => exact .nil s []
  | case2 s c rest => exact .nil s (c :: rest)
  | case3 s _ d rest _ ih => exact ih.take.skip '\\' rfl
  | case4 s => exact (Keeps.nil (s.push '\\') []).take
  | case5 s rest _ _ _ ih => exact ih.skip '"' rfl
  | case6 s c rest _ _ _ _ ih => exact ih.take
  | case7 s rest _ _ _ ih => exact ih.skip '\'' rfl
  | case8 s c rest _ _ _ _ ih => exact ih.take
  | case9 s rest _ _ _ ih => exact ih.skip '"' rfl
  | case10 s rest _ _ _ _ ih => exact ih.skip '\'' rfl
  | case11 s c rest _ _ _ _ _ _ ih => exact ih.skip c (chars_close s)
  | case12 s c rest _ _ _ _ _ _ ih =>
    obtain ⟨kept, hkept, ht⟩ := ih
    exact Keeps.take ⟨kept, hkept, ht⟩

/-! ## One character -/

theorem scan_escape (hd : s.inDouble = true) (d : Char) (rest : List Char) :
    scan s ('\\' :: d :: rest) = scan (s.push d) rest := by
  rw [scan.eq_def]
  simp [hd]

theorem scan_escape_end (hd : s.inDouble = true) : scan s ['\\'] = s.push '\\' := by
  rw [scan.eq_def]
  simp [hd]

theorem scan_double (hd : s.inDouble = true) (hc : c ≠ '\\') (rest : List Char) :
    scan s (c :: rest) =
      if c = '"' then scan { s with inDouble := false } rest else scan (s.push c) rest := by
  rw [scan.eq_def]
  simp [hd, hc]

theorem scan_single (hd : s.inDouble = false) (hs : s.inSingle = true) (c : Char)
    (rest : List Char) :
    scan s (c :: rest) =
      if c = '\'' then scan { s with inSingle := false } rest else scan (s.push c) rest := by
  rw [scan.eq_def]
  simp [hd, hs]

/-- The scan is in no quoted part. -/
def Outside (s : TokenState) : Prop := s.inDouble = false ∧ s.inSingle = false

theorem Outside.close (h : s.Outside) : s.close.Outside := by
  unfold TokenState.close
  split
  · exact h
  · exact h

theorem scan_comment (h : s.Outside) (hc : isComment c = true) (rest : List Char) :
    scan s (c :: rest) = s := by
  rw [scan.eq_def]
  simp only [isComment] at hc
  simp [h.1, h.2, hc]

theorem scan_quote (h : s.Outside) (hc : isQuote c = true) (rest : List Char) :
    scan s (c :: rest) = scan { s with inDouble := c = '"', inSingle := c = '\'', inToken := true } rest := by
  rw [scan.eq_def]
  obtain ⟨hd, hs⟩ := h
  simp only [isQuote, Bool.or_eq_true, decide_eq_true_eq] at hc
  rcases hc with rfl | rfl <;> simp [hd, hs]

theorem scan_separator (h : s.Outside) (hc : isSeparator c = true) (rest : List Char) :
    scan s (c :: rest) = scan s.close rest := by
  rw [scan.eq_def]
  obtain ⟨hd, hs⟩ := h
  simp only [isSeparator, Bool.or_eq_true, decide_eq_true_eq, or_assoc] at hc
  rcases hc with rfl | rfl | rfl | rfl <;> simp [hd, hs]

theorem scan_plain (h : s.Outside) (hc : isPlain c = true) (rest : List Char) :
    scan s (c :: rest) = scan { s.push c with inToken := true } rest := by
  rw [scan.eq_def]
  obtain ⟨hd, hs⟩ := h
  simp only [isPlain, isSeparator, isQuote, isComment, Bool.and_eq_true, Bool.not_eq_true',
    Bool.or_eq_false_iff, decide_eq_false_iff_not] at hc
  simp [hd, hs, hc]

/-- A character is one of four kinds. -/
theorem kind (c : Char) :
    isComment c = true ∨ isQuote c = true ∨ isSeparator c = true ∨ isPlain c = true := by
  unfold isPlain
  cases isComment c <;> cases isQuote c <;> cases isSeparator c <;> simp

/-! ## Tokens before the line -/

/-- The state with more tokens in front. -/
def after (tokens : List (List Char)) (s : TokenState) : TokenState :=
  { s with tokens := tokens ++ s.tokens }

theorem close_after (tokens : List (List Char)) (s : TokenState) :
    (s.after tokens).close = s.close.after tokens := by
  unfold close after
  split <;> simp

theorem scan_after (tokens : List (List Char)) (s : TokenState) (line : List Char) :
    scan (s.after tokens) line = (scan s line).after tokens := by
  induction h : line.length using Nat.strongRecOn generalizing s line with
  | ind n ih =>
    cases line with
    | nil => rfl
    | cons c rest =>
      have hrest : ∀ s, scan (after tokens s) rest = (scan s rest).after tokens := fun s =>
        ih rest.length (by rw [← h]; simp) s rest rfl
      by_cases hd : s.inDouble = true
      · by_cases hc : c = '\\'
        · subst hc
          cases rest with
          | nil =>
            rw [scan_escape_end hd, scan_escape_end (s := after tokens s) hd]
            rfl
          | cons d rest =>
            rw [scan_escape hd, scan_escape (s := after tokens s) hd]
            exact ih rest.length (by rw [← h, List.length_cons, List.length_cons]; omega) (s.push d) rest rfl
        · rw [scan_double hd hc, scan_double (s := after tokens s) hd hc]
          split
          · exact hrest { s with inDouble := false }
          · exact hrest (s.push c)
      · have hd := eq_false_of_ne_true hd
        by_cases hs : s.inSingle = true
        · rw [scan_single hd hs, scan_single (s := after tokens s) hd hs]
          split
          · exact hrest { s with inSingle := false }
          · exact hrest (s.push c)
        · have hout : s.Outside := ⟨hd, eq_false_of_ne_true hs⟩
          have hout' : (after tokens s).Outside := hout
          rcases kind c with hc | hc | hc | hc
          · rw [scan_comment hout hc, scan_comment hout' hc]
          · rw [scan_quote hout hc, scan_quote hout' hc]
            exact hrest { s with inDouble := c = '"', inSingle := c = '\'', inToken := true }
          · rw [scan_separator hout hc, scan_separator hout' hc, close_after]
            exact hrest s.close
          · rw [scan_plain hout hc, scan_plain hout' hc]
            exact hrest { s.push c with inToken := true }

/-! ## Plain text -/

theorem scan_plain_append {text : List Char} (h : s.Outside) (hplain : Plain text)
    (rest : List Char) :
    scan s (text ++ rest) =
      scan { s with current := s.current ++ text, inToken := s.inToken || !text.isEmpty } rest := by
  induction text generalizing s with
  | nil => simp
  | cons c text ih =>
    have hc := hplain c List.mem_cons_self
    have hrest := @ih { s.push c with inToken := true } h fun c hc => hplain c (List.mem_cons_of_mem _ hc)
    rw [List.cons_append, scan_plain h hc, hrest]
    simp [push]

/-- A quote of the line is lost, or only plain characters are kept. -/
theorem scan_loses_quote (h : s.Outside) (line : List Char) :
    ∃ kept, (scan s line).chars = s.chars ++ kept ∧
      (kept.countP isQuote < line.countP isQuote ∨ Plain kept) := by
  have hnil : Plain [] := fun c hc => by cases hc
  induction line generalizing s with
  | nil => exact ⟨[], by simp [scan], Or.inr hnil⟩
  | cons c rest ih =>
    rcases kind c with hc | hc | hc | hc
    · rw [scan_comment h hc]
      exact ⟨[], by simp, Or.inr hnil⟩
    · obtain ⟨kept, hkept, hchars⟩ := scan_keeps
        { s with inDouble := c = '"', inSingle := c = '\'', inToken := true } rest
      refine ⟨kept, by rw [scan_quote h hc, hchars]; rfl, Or.inl ?_⟩
      rw [List.countP_cons_of_pos hc]
      exact Nat.lt_succ_of_le hkept.countP_le
    · obtain ⟨kept, hchars, hkept⟩ := ih h.close
      refine ⟨kept, by rw [scan_separator h hc, hchars, chars_close], hkept.imp_left fun hlt => ?_⟩
      exact Nat.lt_of_lt_of_le hlt (List.sublist_cons_self c rest).countP_le
    · obtain ⟨kept, hchars, hkept⟩ := @ih { s.push c with inToken := true } h
      have hquote : isQuote c = false := by
        cases hq : isQuote c with
        | false => rfl
        | true => simp [isPlain, hq] at hc
      refine ⟨c :: kept, ?_, ?_⟩
      · have hpush : chars { s.push c with inToken := true } = s.chars ++ [c] := chars_push s c
        rw [scan_plain h hc, hchars, hpush, List.append_assoc]
        rfl
      · rw [List.countP_cons_of_neg (by simp [hquote]), List.countP_cons_of_neg (by simp [hquote])]
        exact hkept.imp_right fun hplain => List.forall_mem_cons.mpr ⟨hc, hplain⟩

/-- There is a token, or one is being read. -/
def Started (s : TokenState) : Prop := s.inToken = true ∨ s.tokens ≠ []

theorem Started.tokens_close (h : s.Started) : s.close.tokens ≠ [] := by
  unfold close
  split
  next => exact List.append_ne_nil_of_right_ne_nil _ (List.cons_ne_nil _ _)
  next hno => exact h.resolve_left hno

theorem Started.scan (h : s.Started) (line : List Char) : (scan s line).Started := by
  fun_induction TokenState.scan s line with
  | case1 s => exact h
  | case2 s c rest => exact h
  | case3 s _ d rest _ ih => exact ih h
  | case4 s => exact h
  | case5 s rest _ _ _ ih => exact ih h
  | case6 s c rest _ _ _ _ ih => exact ih h
  | case7 s rest _ _ _ ih => exact ih h
  | case8 s c rest _ _ _ _ ih => exact ih h
  | case9 s rest _ _ _ ih => exact ih (.inl rfl)
  | case10 s rest _ _ _ _ ih => exact ih (.inl rfl)
  | case11 s c rest _ _ _ _ _ _ ih => exact ih (.inr h.tokens_close)
  | case12 s c rest _ _ _ _ _ _ ih => exact ih (.inl rfl)

end TokenState

/-! ## The tokens of a line -/

/-- What the tokeniser splits a line into. -/
def tokens (line : List Char) : List (List Char) := (TokenState.scan {} line).close.tokens

variable {line token text : List Char}

theorem tokens_nil : tokens [] = [] := rfl

theorem tokenizeOvpnLine_eq (line : List Char) (n : Nat) :
    tokenizeOvpnLine line n = (tokens line).head?.map fun keyword =>
      { keyword := String.ofList (Str.toLower keyword),
        args := (tokens line).tail.map String.ofList, lineNumber := n } := by
  unfold tokenizeOvpnLine tokens
  cases (TokenState.scan {} line).close.tokens <;> rfl

/-- A line that starts with neither white space nor a comment has a token. -/
theorem tokens_ne_nil {c : Char} (hcomment : isComment c = false) (hsep : isSeparator c = false)
    (line : List Char) : tokens (c :: line) ≠ [] := by
  unfold tokens
  obtain h | h | h | h := TokenState.kind c
  · rw [hcomment] at h
    cases h
  · rw [TokenState.scan_quote ⟨rfl, rfl⟩ h]
    exact (TokenState.Started.scan (.inl rfl) line).tokens_close
  · rw [hsep] at h
    cases h
  · rw [TokenState.scan_plain ⟨rfl, rfl⟩ h]
    exact (TokenState.Started.scan (.inl rfl) line).tokens_close

theorem sublist_chars (h : token ∈ tokens line) :
    token.Sublist (TokenState.scan {} line).chars := by
  rw [← TokenState.chars_close]
  exact (List.sublist_flatten_of_mem h).trans (List.sublist_append_left ..)

/-- A token has no characters but those of its line. -/
theorem mem_of_mem_token {c : Char} (h : token ∈ tokens line) (hc : c ∈ token) : c ∈ line := by
  obtain ⟨kept, hkept, hchars⟩ := TokenState.scan_keeps {} line
  rw [show TokenState.chars {} ++ kept = kept from rfl] at hchars
  have hmem := (sublist_chars h).subset hc
  rw [hchars] at hmem
  exact hkept.subset hmem

/-- A token with all the quotes of its line is plain. -/
theorem plain_of_mem_tokens (h : token ∈ tokens line)
    (hquotes : line.countP isQuote ≤ token.countP isQuote) : Plain token := by
  obtain ⟨kept, hchars, hkept⟩ := @TokenState.scan_loses_quote {} ⟨rfl, rfl⟩ line
  rw [show TokenState.chars {} ++ kept = kept from rfl] at hchars
  have hsub := sublist_chars h
  rw [hchars] at hsub
  rcases hkept with hlost | hplain
  · have := hsub.countP_le (p := isQuote)
    omega
  · exact fun c hc => hplain c (hsub.subset hc)

/-- A plain text is a token. -/
theorem tokens_plain (hplain : Plain text) (hne : text ≠ []) : tokens text = [text] := by
  have hscan := @TokenState.scan_plain_append {} text ⟨rfl, rfl⟩ hplain []
  rw [List.append_nil] at hscan
  have hempty : text.isEmpty = false := by simpa using hne
  simp [tokens, hscan, TokenState.scan, TokenState.close, hempty]

theorem tokens_plain_cons {c : Char} (hplain : Plain text) (hne : text ≠ [])
    (hc : isSeparator c = true) (line : List Char) :
    tokens (text ++ c :: line) = text :: tokens line := by
  have hempty : text.isEmpty = false := by simpa using hne
  have hscan := @TokenState.scan_plain_append {} text ⟨rfl, rfl⟩ hplain (c :: line)
  rw [TokenState.scan_separator ⟨rfl, rfl⟩ hc] at hscan
  have hclose : TokenState.close { current := text, inToken := true } =
      TokenState.after [text] {} := rfl
  simp only [List.nil_append, Bool.false_or, hempty, Bool.not_false] at hscan
  rw [tokens, hscan, hclose, TokenState.scan_after, TokenState.close_after]
  rfl

end NovaVpn.Profiles
