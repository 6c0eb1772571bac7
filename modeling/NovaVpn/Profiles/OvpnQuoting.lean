import NovaVpn.Profiles.OvpnTokens

/-!
# Quoted tokens

A text in quotes is one token whatever its characters are: in double quotes
with a backslash before each `"` and `\`, in single quotes if it has none of
these (`scan_quoted`). So a line of quoted tokens is tokenised to their texts
(`tokenizeOvpnLine_quoted`).
-/

namespace NovaVpn.Profiles

/-- The two kinds of quotes. -/
inductive Quote where
  | double
  | single
  deriving DecidableEq

/-- The text with a backslash before each `"` and `\`. -/
def escaped : List Char → List Char
  | [] => []
  | c :: text => if c = '"' ∨ c = '\\' then '\\' :: c :: escaped text else c :: escaped text

namespace Quote

/-- The text can be written in these quotes. -/
def Fits : Quote → List Char → Prop
  | double, _ => True
  | single, text => '\'' ∉ text

def quoted : Quote → List Char → List Char
  | double, text => '"' :: escaped text ++ ['"']
  | single, text => '\'' :: text ++ ['\'']

end Quote

/-- A run of blanks and tabs. -/
def Blank (run : List Char) : Prop := ∀ c ∈ run, c = ' ' ∨ c = '\t'

/-- Nothing, or a comment up to the end of the line. -/
def Comment (text : List Char) : Prop := ∀ c ∈ text.head?, isComment c = true

/-- An argument in quotes, with what separates it from the token before. -/
structure QuotedArg where
  gap : List Char
  quote : Quote
  text : List Char
  blank : Blank gap
  gap_ne : gap ≠ []
  fits : quote.Fits text

def QuotedArg.written (arg : QuotedArg) : List Char := arg.gap ++ arg.quote.quoted arg.text

theorem isSeparator_of_blank {run : List Char} (h : Blank run) {c : Char} (hc : c ∈ run) :
    isSeparator c = true := by
  rcases h c hc with rfl | rfl <;> decide

namespace TokenState

variable {s : TokenState} {text : List Char}

/-- Inside double quotes the escaped text is read up to the closing quote. -/
theorem scan_escaped (hd : s.inDouble = true) (text rest : List Char) :
    scan s (escaped text ++ '"' :: rest) =
      scan { s with current := s.current ++ text, inDouble := false } rest := by
  induction text generalizing s with
  | nil =>
    rw [escaped, List.nil_append, scan_double hd (by decide), if_pos rfl, List.append_nil]
  | cons c text ih =>
    have hrest := @ih (s.push c) hd
    have hpush : (s.push c).current ++ text = s.current ++ c :: text := List.append_cons .. |>.symm
    rw [hpush] at hrest
    rw [escaped]
    split
    · exact (scan_escape hd c _).trans hrest
    next hc =>
      rw [not_or] at hc
      exact (scan_double hd hc.2 _).trans ((if_neg hc.1).trans hrest)

/-- Inside single quotes every character but the quote stands for itself. -/
theorem scan_verbatim (hd : s.inDouble = false) (hs : s.inSingle = true) (hfits : '\'' ∉ text)
    (rest : List Char) :
    scan s (text ++ '\'' :: rest) =
      scan { s with current := s.current ++ text, inSingle := false } rest := by
  induction text generalizing s with
  | nil => rw [List.nil_append, scan_single hd hs, if_pos rfl, List.append_nil]
  | cons c text ih =>
    rw [List.mem_cons, not_or] at hfits
    have hrest := @ih (s.push c) hd hs hfits.2
    have hpush : (s.push c).current ++ text = s.current ++ c :: text := List.append_cons .. |>.symm
    rw [hpush] at hrest
    rw [List.cons_append, scan_single hd hs, if_neg (Ne.symm hfits.1), hrest]
    rfl

/-- A quoted text is read to the token that is being read. -/
theorem scan_quoted (h : s.Outside) {quote : Quote} (hfits : quote.Fits text) (rest : List Char) :
    scan s (quote.quoted text ++ rest) =
      scan { s with current := s.current ++ text, inToken := true } rest := by
  obtain ⟨tokens, current, inToken, inDouble, inSingle⟩ := s
  obtain ⟨rfl, rfl⟩ : inDouble = false ∧ inSingle = false := h
  cases quote with
  | double =>
    show scan _ ('"' :: ((escaped text ++ ['"']) ++ rest)) = _
    rw [scan_quote ⟨rfl, rfl⟩ (by decide), List.append_assoc, List.singleton_append,
      scan_escaped rfl]
    rfl
  | single =>
    show scan _ ('\'' :: ((text ++ ['\'']) ++ rest)) = _
    rw [scan_quote ⟨rfl, rfl⟩ (by decide), List.append_assoc, List.singleton_append,
      scan_verbatim rfl rfl hfits]
    rfl

theorem close_close (s : TokenState) : s.close.close = s.close := by
  unfold close
  split
  · rfl
  · rfl

/-- A run of blanks and tabs ends the token that is being read. -/
theorem scan_blank (h : s.Outside) {run : List Char} (hrun : Blank run) (hne : run ≠ [])
    (rest : List Char) : scan s (run ++ rest) = scan s.close rest := by
  induction run generalizing s with
  | nil => exact absurd rfl hne
  | cons c run ih =>
    rw [List.cons_append, scan_separator h (isSeparator_of_blank hrun List.mem_cons_self)]
    by_cases hnil : run = []
    · rw [hnil, List.nil_append]
    · rw [ih h.close (fun c hc => hrun c (List.mem_cons_of_mem _ hc)) hnil, close_close]

/-- The tokens of a line whose rest is blank up to a comment. -/
theorem close_scan_end (h : s.Outside) {trail comment : List Char} (htrail : Blank trail)
    (hcomment : Comment comment) : (scan s (trail ++ comment)).close = s.close := by
  have hend : ∀ t : TokenState, t.Outside → scan t comment = t := by
    intro t ht
    cases comment with
    | nil => rfl
    | cons c rest => exact scan_comment ht (hcomment c rfl) rest
  by_cases hnil : trail = []
  · rw [hnil, List.nil_append, hend s h]
  · rw [scan_blank h htrail hnil, hend s.close h.close, close_close]

/-- A token is being read that so far is `text`. -/
def reading (tokens : List (List Char)) (text : List Char) : TokenState :=
  { tokens, current := text, inToken := true }

/-- The arguments are read one after the other. -/
theorem tokens_scan_args (done : List (List Char)) (text : List Char) (args : List QuotedArg)
    {trail comment : List Char} (htrail : Blank trail) (hcomment : Comment comment) :
    (scan (reading done text) (args.flatMap QuotedArg.written ++ (trail ++ comment))).close.tokens =
      done ++ text :: args.map QuotedArg.text := by
  induction args generalizing done text with
  | nil =>
    rw [List.flatMap_nil, List.nil_append, close_scan_end ⟨rfl, rfl⟩ htrail hcomment]
    rfl
  | cons arg args ih =>
    have hgap := @scan_blank (reading done text) ⟨rfl, rfl⟩ _ arg.blank arg.gap_ne
    have hquoted := @scan_quoted (reading done text).close _ ⟨rfl, rfl⟩ _ arg.fits
    have hstate : ({ (reading done text).close with
        current := (reading done text).close.current ++ arg.text, inToken := true } : TokenState) =
          reading (done ++ [text]) arg.text := rfl
    rw [hstate] at hquoted
    rw [List.flatMap_cons, QuotedArg.written, List.append_assoc, List.append_assoc, hgap, hquoted,
      ih, List.append_assoc, List.singleton_append, List.map_cons]

end TokenState

open TokenState in
/-- A line of quoted tokens, with blanks and tabs around them and a comment at
its end, is tokenised to the texts that were quoted. -/
theorem tokenizeOvpnLine_quoted {lead keyword trail comment : List Char} {quote : Quote}
    (hlead : Blank lead) (hkeyword : quote.Fits keyword) (args : List QuotedArg)
    (htrail : Blank trail) (hcomment : Comment comment) (lineNumber : Nat) :
    tokenizeOvpnLine
        (lead ++ (quote.quoted keyword ++ (args.flatMap QuotedArg.written ++ (trail ++ comment))))
        lineNumber =
      some { keyword := String.ofList (Str.toLower keyword),
             args := args.map fun arg => String.ofList arg.text, lineNumber } := by
  have hstart : ∀ rest, scan {} (lead ++ (quote.quoted keyword ++ rest)) =
      scan (reading [] keyword) rest := by
    intro rest
    have hquoted := @scan_quoted {} _ ⟨rfl, rfl⟩ _ hkeyword rest
    by_cases hnil : lead = []
    · rw [hnil, List.nil_append, hquoted]
      rfl
    · rw [@scan_blank {} ⟨rfl, rfl⟩ _ hlead hnil]
      exact hquoted
  have htokens : tokens
      (lead ++ (quote.quoted keyword ++ (args.flatMap QuotedArg.written ++ (trail ++ comment)))) =
        keyword :: args.map QuotedArg.text := by
    rw [tokens, hstart, tokens_scan_args [] keyword args htrail hcomment, List.nil_append]
  rw [tokenizeOvpnLine_eq, htokens, List.head?_cons, List.tail_cons, List.map_map]
  rfl

/-- Both kinds of quotes, an empty argument and a comment that follows a quote. -/
theorem tokenizeOvpnLine_quoted_setenv :
    tokenizeOvpnLine "\t\"SetEnv\" \t'#1' \"\" \"a\\\"b\\\\\";'".toList 3 =
      some { keyword := "setenv", args := ["#1", "", "a\"b\\"], lineNumber := 3 } :=
  @tokenizeOvpnLine_quoted "\t".toList "SetEnv".toList [] ";'".toList .double (by simp [Blank])
    trivial
    [⟨" \t".toList, .single, "#1".toList, by simp [Blank], by decide, by simp [Quote.Fits]⟩,
      ⟨" ".toList, .double, [], by simp [Blank], by decide, trivial⟩,
      ⟨" ".toList, .double, "a\"b\\".toList, by simp [Blank], by decide, trivial⟩]
    (by simp [Blank]) (by simp [Comment, isComment]) 3

end NovaVpn.Profiles
