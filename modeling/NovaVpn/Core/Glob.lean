import Mathlib.Data.List.Forall2
import NovaVpn.Core.Text

/-!
# Wildcards

What a pattern with `*` and `?` matches (`Glob`), and what `globMatch` makes of
it. The matcher compares a character of the pattern with one of the text before
it looks whether the former is a star. A star that meets a star of the text is
therefore taken for that one character and not kept to go back to, so that `*`
does not match `*a`. Everything else it finds: that it keeps only the last star
loses no match (`globMatch_iff`).
-/

namespace NovaVpn.Str

/-- A character of a pattern stands for one of the text. -/
def Meets (p c : Char) : Prop := p = '?' ∨ p.toLower = c.toLower

/-- The text can be split so that each star of the pattern stands for some part
of it, and every other character for one character. -/
inductive Glob : List Char → List Char → Prop
  | nil : Glob [] []
  | char {p c : Char} {pattern text : List Char} (hp : p ≠ '*') (h : Meets p c)
      (rest : Glob pattern text) : Glob (p :: pattern) (c :: text)
  | star {pattern text : List Char} (part : List Char) (rest : Glob pattern text) :
      Glob ('*' :: pattern) (part ++ text)

/-- The same, but a star before which the text has a star stands for just that
character. -/
inductive StarGlob : List Char → List Char → Prop
  | nil : StarGlob [] []
  | char {p c : Char} {pattern text : List Char} (hp : p ≠ '*') (h : Meets p c)
      (rest : StarGlob pattern text) : StarGlob (p :: pattern) (c :: text)
  | literal {pattern text : List Char} (rest : StarGlob pattern text) :
      StarGlob ('*' :: pattern) ('*' :: text)
  | star {pattern text : List Char} (part : List Char)
      (hpart : (part ++ text).head? ≠ some '*') (rest : StarGlob pattern text) :
      StarGlob ('*' :: pattern) (part ++ text)

theorem StarGlob.glob {pattern text : List Char} (h : StarGlob pattern text) :
    Glob pattern text := by
  induction h with
  | nil => exact .nil
  | char hp h _ ih => exact .char hp h ih
  | literal _ ih => exact .star ['*'] ih
  | star part _ _ ih => exact .star part ih

theorem meets_star {c : Char} : Meets '*' c ↔ c = '*' := by
  constructor
  · rintro (h | h)
    · cases h
    · exact eq_of_toLower h.symm (by decide)
  · rintro rfl
    exact Or.inr rfl

variable {p c : Char} {pattern text : List Char}

/-- A character that meets one of the text takes it. -/
theorem starGlob_cons (h : Meets p c) :
    StarGlob (p :: pattern) (c :: text) ↔ StarGlob pattern text := by
  constructor
  · intro hglob
    generalize htext : c :: text = t at hglob
    cases hglob with
    | char _ _ rest =>
      cases htext
      exact rest
    | literal rest =>
      cases htext
      exact rest
    | star part hpart rest =>
      rw [← htext, meets_star.mp h] at hpart
      exact absurd rfl hpart
  · intro rest
    by_cases hp : p = '*'
    · subst hp
      rw [meets_star.mp h]
      exact .literal rest
    · exact .char hp h rest

/-- A star that does not meet one stands for any part. -/
theorem starGlob_star (hc : c ≠ '*') : StarGlob ('*' :: pattern) (c :: text) ↔
    ∃ rest, rest <:+ c :: text ∧ StarGlob pattern rest := by
  constructor
  · intro hglob
    generalize htext : c :: text = t at hglob
    cases hglob with
    | char hp => exact absurd rfl hp
    | literal =>
      cases htext
      exact absurd rfl hc
    | star part _ rest => exact ⟨_, ⟨part, rfl⟩, rest⟩
  · rintro ⟨rest, ⟨part, heq⟩, h⟩
    have hhead : (part ++ rest).head? ≠ some '*' := by
      rw [heq]
      exact fun h => hc (Option.some.inj h)
    rw [← heq]
    exact .star part hhead h

theorem not_starGlob_cons (h : ¬ Meets p c) (hp : p ≠ '*') :
    ¬ StarGlob (p :: pattern) (c :: text) := by
  intro hglob
  generalize htext : c :: text = t at hglob
  cases hglob with
  | char _ h' =>
    cases htext
    exact h h'
  | literal => exact hp rfl
  | star => exact hp rfl

/-- Behind a star there is a match of the rest of the pattern. -/
theorem StarGlob.rest_of_star (h : StarGlob ('*' :: pattern) text) :
    ∃ rest, rest <:+ text ∧ StarGlob pattern rest := by
  cases h with
  | char hp => exact absurd rfl hp
  | literal rest => exact ⟨_, ⟨['*'], rfl⟩, rest⟩
  | star part _ rest => exact ⟨_, ⟨part, rfl⟩, rest⟩

theorem starGlob_nil : StarGlob pattern [] ↔ (pattern.all fun p => p == '*') = true := by
  constructor
  · intro h
    generalize htext : ([] : List Char) = t at h
    induction h with
    | nil => rfl
    | char => cases htext
    | literal => cases htext
    | star part _ _ ih =>
      rw [List.all_cons, ih (List.append_eq_nil_iff.mp htext.symm).2.symm]
      rfl
  · intro h
    induction pattern with
    | nil => exact .nil
    | cons p pattern ih =>
      rw [List.all_cons, Bool.and_eq_true, beq_iff_eq] at h
      rw [h.1]
      exact .star [] (by simp) (ih h.2)

/-- No match is lost by going on from where the first characters of the pattern
were taken one for one: from a later place they take no less of the text. -/
theorem StarGlob.behind {taken part place : List Char} (htaken : List.Forall₂ Meets taken part)
    (hplace : place <:+ part ++ text) (h : StarGlob (taken ++ pattern) place) :
    ∃ rest, rest <:+ text ∧ StarGlob pattern rest := by
  induction htaken generalizing place with
  | nil => exact ⟨place, hplace, h⟩
  | @cons p c taken part hmeets _ ih =>
    rw [List.cons_append] at h hplace
    rcases List.suffix_cons_iff.mp hplace with rfl | hplace
    · exact ih (List.suffix_refl _) ((starGlob_cons hmeets).mp h)
    · generalize hpattern : p :: (taken ++ pattern) = whole at h
      cases h with
      | nil => cases hpattern
      | char _ _ rest =>
        cases hpattern
        exact ih ((List.suffix_cons _ _).trans hplace) rest
      | literal rest =>
        cases hpattern
        exact ih ((List.suffix_cons _ _).trans hplace) rest
      | star part' _ rest =>
        cases hpattern
        exact ih ((List.suffix_append part' _).trans hplace) rest

/-! ## The loop -/

/-- The pattern behind the last star and the text from which it tries that, with
what has been taken of both since. -/
def Resumes (pattern text : List Char) (star : Option (List Char × List Char)) : Prop :=
  ∀ s ∈ star, ∃ taken part, List.Forall₂ Meets taken part ∧ s.1 = taken ++ pattern ∧
    s.2 = part ++ text

/-- There is a match from a later place than the one that is being tried. -/
def Later (star : Option (List Char × List Char)) : Prop :=
  ∃ behind first place rest, star = some (behind, first :: place) ∧ rest <:+ place ∧
    StarGlob behind rest

variable {star : Option (List Char × List Char)}

theorem Later.rest (h : Later star) (hstar : Resumes pattern text star) :
    ∃ rest, rest <:+ text ∧ StarGlob pattern rest := by
  obtain ⟨behind, first, place, rest, rfl, hrest, hglob⟩ := h
  obtain ⟨taken, part, htaken, hpattern, htext⟩ := hstar _ rfl
  simp only at hpattern htext
  subst hpattern
  refine hglob.behind htaken ?_
  rw [← htext]
  exact hrest.trans (List.suffix_cons ..)

theorem Resumes.cons (hstar : Resumes (p :: pattern) (c :: text) star) (h : Meets p c) :
    Resumes pattern text star := by
  intro s hs
  obtain ⟨taken, part, htaken, hpattern, htext⟩ := hstar s hs
  refine ⟨taken ++ [p], part ++ [c], List.rel_append htaken (.cons h .nil), ?_, ?_⟩
  · rw [hpattern, List.append_assoc]
    rfl
  · rw [htext, List.append_assoc]
    rfl

theorem resumes_self (pattern text : List Char) : Resumes pattern text (some (pattern, text)) := by
  intro s hs
  cases hs
  exact ⟨[], [], .nil, rfl, rfl⟩

/-- What is found from the places behind a star. -/
theorem later_cons {behind rest : List Char} {first : Char} :
    Later (some (behind, first :: rest)) ↔ ∃ later, later <:+ rest ∧ StarGlob behind later := by
  constructor
  · rintro ⟨_, _, _, later, heq, hlater, hglob⟩
    cases heq
    exact ⟨later, hlater, hglob⟩
  · rintro ⟨later, hlater, hglob⟩
    exact ⟨_, _, _, later, rfl, hlater, hglob⟩

theorem starGlob_or_later {behind rest : List Char} :
    StarGlob behind rest ∨ Later (some (behind, rest)) ↔
      ∃ later, later <:+ rest ∧ StarGlob behind later := by
  constructor
  · rintro (hglob | ⟨_, _, _, later, heq, hlater, hglob⟩)
    · exact ⟨rest, List.suffix_refl _, hglob⟩
    · cases heq
      exact ⟨later, hlater.trans (List.suffix_cons ..), hglob⟩
  · rintro ⟨later, hlater, hglob⟩
    cases rest with
    | nil =>
      rw [List.suffix_nil.mp hlater] at hglob
      exact Or.inl hglob
    | cons first rest =>
      rcases List.suffix_cons_iff.mp hlater with rfl | hlater
      · exact Or.inl hglob
      · exact Or.inr (later_cons.mpr ⟨later, hlater, hglob⟩)

/-- The loop at a text that is not at its end. -/
theorem globLoop_meets {fuel : Nat} (h : Meets p c) :
    globLoop (fuel + 1) (p :: pattern) (c :: text) star = globLoop fuel pattern text star := by
  have hany : ((p :: pattern).head?.any fun p => p == '?' || p.toLower == c.toLower) = true := by
    simpa [Meets] using h
  simp only [globLoop]
  rw [if_pos hany, List.tail_cons]

theorem globLoop_star {fuel : Nat} (hc : c ≠ '*') :
    globLoop (fuel + 1) ('*' :: pattern) (c :: text) star =
      globLoop fuel pattern (c :: text) (some (pattern, c :: text)) := by
  have hany : ¬ (('*' :: pattern).head?.any fun p => p == '?' || p.toLower == c.toLower) = true := by
    intro h
    refine hc (meets_star.mp ?_)
    simpa [Meets] using h
  simp only [globLoop]
  rw [if_neg hany, if_pos List.head?_cons, List.tail_cons]

/-- A place where the pattern cannot go on. -/
def Stuck (pattern : List Char) (c : Char) : Prop :=
  ∀ p ∈ pattern.head?, p ≠ '*' ∧ ¬ Meets p c

theorem Stuck.heads (h : Stuck pattern c) :
    (¬ (pattern.head?.any fun p => p == '?' || p.toLower == c.toLower) = true) ∧
      pattern.head? ≠ some '*' := by
  refine ⟨?_, fun heq => (h '*' heq).1 rfl⟩
  cases pattern with
  | nil => simp
  | cons p pattern => simpa [Meets] using (h p rfl).2

/-- The next place behind the last star. -/
theorem globLoop_back {fuel : Nat} {behind rest : List Char} {first : Char}
    (h : Stuck pattern c) :
    globLoop (fuel + 1) pattern (c :: text) (some (behind, first :: rest)) =
      globLoop fuel behind rest (some (behind, rest)) := by
  simp only [globLoop]
  rw [if_neg h.heads.1, if_neg h.heads.2]

theorem globLoop_fail {fuel : Nat} (h : Stuck pattern c)
    (hnone : ∀ behind first rest, star ≠ some (behind, first :: rest)) :
    globLoop (fuel + 1) pattern (c :: text) star = some false := by
  simp only [globLoop]
  rw [if_neg h.heads.1, if_neg h.heads.2]

theorem not_starGlob_of_stuck (h : Stuck pattern c) : ¬ StarGlob pattern (c :: text) := by
  cases pattern with
  | nil =>
    intro hglob
    generalize htext : c :: text = t at hglob
    cases hglob
    cases htext
  | cons p pattern => exact not_starGlob_cons (h p rfl).2 (h p rfl).1

theorem globLoop_iff {fuel : Nat} {b : Bool} (hstar : Resumes pattern text star)
    (h : globLoop fuel pattern text star = some b) :
    b = true ↔ StarGlob pattern text ∨ Later star := by
  induction fuel generalizing pattern text star with
  | zero => cases h
  | succ fuel ih =>
    cases text with
    | nil =>
      -- the rest of the pattern is stars, and a later place would need that, too
      rw [globLoop] at h
      cases h
      rw [← starGlob_nil, or_iff_left_of_imp]
      intro hlater
      obtain ⟨rest, hrest, hglob⟩ := hlater.rest hstar
      rwa [List.suffix_nil.mp hrest] at hglob
    | cons c text =>
      by_cases hstuck : Stuck pattern c
      · rw [or_iff_right (not_starGlob_of_stuck hstuck)]
        by_cases hback : ∃ behind first rest, star = some (behind, first :: rest)
        · obtain ⟨behind, first, rest, rfl⟩ := hback
          rw [globLoop_back hstuck] at h
          rw [ih (resumes_self behind rest) h, starGlob_or_later, later_cons]
        · have hnone : ∀ behind first rest, star ≠ some (behind, first :: rest) :=
            fun behind first rest heq => hback ⟨behind, first, rest, heq⟩
          rw [globLoop_fail hstuck hnone] at h
          cases h
          refine iff_of_false (by decide) ?_
          rintro ⟨behind, first, place, _, heq, -⟩
          exact hnone behind first place heq
      · obtain ⟨p, pattern, rfl⟩ : ∃ p ps, pattern = p :: ps := by
          cases pattern with
          | nil => exact absurd (fun p hp => by cases hp) hstuck
          | cons p ps => exact ⟨p, ps, rfl⟩
        by_cases hmeets : Meets p c
        · rw [globLoop_meets hmeets] at h
          rw [ih (hstar.cons hmeets) h, starGlob_cons hmeets]
        · -- a star that stands for any part; from now on it is the last one
          have hp : p = '*' := by
            refine not_not.mp fun hp => hstuck fun q hq => ?_
            cases hq
            exact ⟨hp, hmeets⟩
          subst hp
          have hc : c ≠ '*' := fun hc => hmeets (meets_star.mpr hc)
          rw [globLoop_star hc] at h
          rw [ih (resumes_self pattern (c :: text)) h, starGlob_or_later, starGlob_star hc,
            or_iff_left_of_imp]
          intro hlater
          obtain ⟨later, hlater', hglob⟩ := hlater.rest hstar
          obtain ⟨rest, hrest', hglob'⟩ := hglob.rest_of_star
          exact ⟨rest, hrest'.trans hlater', hglob'⟩

/-- The matcher comes to its end, and finds the matches in which a star that
meets a star stands for it alone. -/
theorem globMatch_iff (pattern text : List Char) :
    globMatch pattern text = true ↔ StarGlob pattern text := by
  obtain ⟨b, hb⟩ := Option.isSome_iff_exists.mp (globMatch_isSome pattern text)
  have hnone : Resumes pattern text none := fun s hs => by cases hs
  have hlater : ¬ Later none := by
    rintro ⟨_, _, _, _, h, -⟩
    cases h
  rw [globMatch, hb, Option.getD_some, globLoop_iff hnone hb, or_iff_left hlater]

/-- A pattern without wildcards matches what is equal to it up to the case of
ASCII letters. -/
theorem globMatch_plain {pattern : List Char} (h : ∀ p ∈ pattern, p ≠ '*' ∧ p ≠ '?')
    (text : List Char) : globMatch pattern text = equalsIgnoreCase pattern text := by
  rw [Bool.eq_iff_iff, globMatch_iff, equalsIgnoreCase, decide_eq_true_eq, toLower, toLower]
  induction pattern generalizing text with
  | nil =>
    constructor
    · intro hglob
      cases hglob
      rfl
    · intro heq
      rw [List.map_eq_nil_iff.mp heq.symm]
      exact .nil
  | cons p pattern ih =>
    obtain ⟨hp, hrest⟩ := List.forall_mem_cons.mp h
    cases text with
    | nil => simp [starGlob_nil, hp.1]
    | cons c text =>
      by_cases hmeets : Meets p c
      · rw [starGlob_cons hmeets, ih hrest, List.map_cons, List.map_cons,
          hmeets.resolve_left hp.2, List.cons_eq_cons, and_iff_right rfl]
      · refine iff_of_false (not_starGlob_cons hmeets hp.1) fun heq => hmeets ?_
        exact Or.inr (List.cons.inj heq).1

/-- The matcher is right about a pattern and a text exactly if some match takes
each star that meets a star for it alone, or there is none. -/
theorem globMatch_right_iff (pattern text : List Char) :
    ((globLoop ((text.length + 2) * (pattern.length + text.length + 1)) pattern text none).isSome ∧
      (globMatch pattern text = true ↔ Glob pattern text)) ↔
    (Glob pattern text → StarGlob pattern text) := by
  rw [and_iff_right (globMatch_isSome pattern text), globMatch_iff]
  exact ⟨fun h => h.mpr, fun h => ⟨StarGlob.glob, h⟩⟩

/-- A star matches every text, but not this one. -/
theorem star_misses : ¬ ∀ pattern text, globMatch pattern text = true ↔ Glob pattern text := by
  intro h
  have hglob : Glob ['*'] ['*', 'a'] := .star ['*', 'a'] .nil
  have hmatch := (h ['*'] ['*', 'a']).mpr hglob
  exact absurd hmatch (by decide +kernel)

end NovaVpn.Str
