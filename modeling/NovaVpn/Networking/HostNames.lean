import NovaVpn.Networking.IpAddress

/-!
# Host names

`isValidHostName` goes through a text once and keeps the length of the label it
is in and the character before. `isValidHostName_iff`: the texts that it accepts
are those of the grammar, labels joined by dots.
-/

namespace NovaVpn.Net

/-- A character that a label can have. -/
def LabelChar (c : Char) : Prop :=
  ('a' ≤ c ∧ c ≤ 'z') ∨ ('A' ≤ c ∧ c ≤ 'Z') ∨ ('0' ≤ c ∧ c ≤ '9') ∨ c = '-' ∨ c = '_'

/-- A label of a host name. -/
structure Label (label : List Char) : Prop where
  nonempty : 1 ≤ label.length
  short : label.length ≤ 63
  chars : ∀ c ∈ label, LabelChar c
  head : label.head? ≠ some '-'
  last : label.getLast? ≠ some '-'

/-- A host name: labels joined by single dots. -/
def HostName (text : List Char) : Prop :=
  text.length ≤ 253 ∧
    ∃ labels, labels ≠ [] ∧ (∀ label ∈ labels, Label label) ∧ text = ['.'].intercalate labels

theorem not_labelChar_dot : ¬ LabelChar '.' := by
  unfold LabelChar
  decide

/-- What the loop lets through. -/
theorem labelChar_iff (c : Char) : LabelChar c ↔ ¬ (!isAlnum c && c ≠ '-' && c ≠ '_') = true := by
  simp only [LabelChar, isAlnum, Bool.and_eq_true, Bool.not_eq_true', Bool.or_eq_false_iff,
    Bool.and_eq_false_iff, decide_eq_true_eq, decide_eq_false_iff_not]
  grind

/-! ## The labels of a text -/

theorem hostName_iff (text : List Char) :
    HostName text ↔ text.length ≤ 253 ∧ ∀ label ∈ Str.split '.' text, Label label := by
  refine and_congr_right fun _ => ⟨?_, fun h => ?_⟩
  · rintro ⟨labels, hne, hlabels, rfl⟩
    have hdot : ∀ label ∈ labels, '.' ∉ label := fun label hl hmem =>
      not_labelChar_dot ((hlabels label hl).chars _ hmem)
    rwa [Str.split_intercalate hdot hne]
  · exact ⟨Str.split '.' text, List.splitOn_ne_nil '.' text, h, (List.intercalate_splitOn '.').symm⟩

/-! ## The loop -/

/-- What the loop has read of a label that it has not come to the end of. -/
structure Begun (label : List Char) : Prop where
  short : label.length ≤ 63
  chars : ∀ c ∈ label, LabelChar c
  head : label.head? ≠ some '-'

namespace Begun

variable {label : List Char} {c : Char}

theorem nil : Begun [] := ⟨by simp, by simp, by simp⟩

theorem notMem (h : Begun label) : '.' ∉ label := fun hmem =>
  not_labelChar_dot (h.chars _ hmem)

/-- It is a label if it is not empty and does not end with a hyphen. -/
theorem label_iff (h : Begun label) :
    Label label ↔ label.length ≠ 0 ∧ label.getLastD '.' ≠ '-' := by
  cases label with
  | nil => exact ⟨fun hl => absurd hl.nonempty (by simp), fun hl => absurd rfl hl.1⟩
  | cons c cs =>
    have hlast : (c :: cs).getLast? = some ((c :: cs).getLastD '.') := by
      rw [List.getLast?_cons, List.getLastD_cons, List.getLastD_eq_getLast?]
    constructor
    · intro hl
      exact ⟨by simp, fun heq => hl.last (hlast.trans (congrArg some heq))⟩
    · intro hl
      exact ⟨by simp, h.short, h.chars, h.head, fun heq => hl.2 (Option.some.inj (hlast.symm.trans heq))⟩

/-- One more character. -/
theorem concat (h : Begun label) (hc : LabelChar c) (hhead : ¬ (label.length = 0 ∧ c = '-'))
    (hlen : label.length + 1 ≤ 63) : Begun (label ++ [c]) := by
  refine ⟨by simpa using hlen, fun d hd => ?_, fun hd => ?_⟩
  · rcases List.mem_append.mp hd with hd | hd
    · exact h.chars d hd
    · rwa [List.mem_singleton.mp hd]
  · cases label with
    | nil => exact hhead ⟨rfl, Option.some.inj hd⟩
    | cons d ds => exact h.head hd

end Begun

/-- The beginning of a label. -/
theorem Label.begun {front label : List Char} (h : Label label) (hfront : front <+: label) :
    Begun front := by
  refine ⟨Nat.le_trans hfront.length_le h.short, fun c hc => h.chars c (hfront.subset hc), fun hhead => ?_⟩
  obtain ⟨behind, rfl⟩ := hfront
  exact h.head (by rw [List.head?_append, hhead]; rfl)

/-- A part without a dot is the beginning of the first piece. -/
theorem begun_of_split {front rest : List Char} (hdot : '.' ∉ front)
    (h : ∀ l ∈ Str.split '.' (front ++ rest), Label l) : Begun front := by
  unfold Str.split at h
  by_cases hmem : '.' ∈ rest
  · obtain ⟨first, behind, rfl, hfirst⟩ := List.eq_append_cons_of_mem hmem
    have hnot : '.' ∉ front ++ first := fun hd => (List.mem_append.mp hd).elim hdot hfirst
    rw [← List.append_assoc, List.splitOn_append_cons_self_of_not_mem hnot] at h
    exact (h _ List.mem_cons_self).begun (List.prefix_append ..)
  · have hnot : '.' ∉ front ++ rest := fun hd => (List.mem_append.mp hd).elim hdot hmem
    rw [List.splitOn_eq_singleton hnot] at h
    exact (h _ (List.mem_singleton.mpr rfl)).begun (List.prefix_append ..)

/-- The loop goes on behind a character if it can belong to the label. -/
theorem hostLabels_concat {label : List Char} (h : Begun label) {c : Char} (hc : c ≠ '.')
    (rest : List Char) :
    hostLabels (label.getLastD '.') label.length (c :: rest) = true ↔
      Begun (label ++ [c]) ∧
        hostLabels ((label ++ [c]).getLastD '.') (label ++ [c]).length rest = true := by
  rw [hostLabels, if_neg hc, List.getLastD_concat, List.length_append, List.length_singleton]
  by_cases hchar : LabelChar c
  · rw [if_neg ((labelChar_iff c).mp hchar)]
    by_cases hhead : label.length = 0 ∧ c = '-'
    · rw [if_pos (by simpa using hhead)]
      refine iff_of_false Bool.false_ne_true fun hb => hb.1.head ?_
      rw [List.length_eq_zero_iff.mp hhead.1, hhead.2]
      rfl
    · rw [if_neg (by simpa using hhead)]
      by_cases hlen : label.length + 1 ≤ 63
      · rw [if_neg (by omega), and_iff_right (h.concat hchar hhead hlen)]
      · rw [if_pos (by omega)]
        exact iff_of_false Bool.false_ne_true fun hb => hlen (by simpa using hb.1.short)
  · rw [if_pos (Decidable.not_not.mp fun hneg => hchar ((labelChar_iff c).mpr hneg))]
    exact iff_of_false Bool.false_ne_true fun hb => hchar (hb.1.chars c (by simp))

/-- Behind a part of a label, the loop finds whether that and the rest are
labels. -/
theorem hostLabels_iff {label : List Char} (h : Begun label) (rest : List Char) :
    hostLabels (label.getLastD '.') label.length rest = true ↔
      ∀ l ∈ Str.split '.' (label ++ rest), Label l := by
  induction rest generalizing label with
  | nil =>
    rw [List.append_nil, Str.split, List.splitOn_eq_singleton h.notMem, List.forall_mem_singleton,
      h.label_iff, hostLabels]
    simp [Nat.pos_iff_ne_zero]
  | cons c cs ih =>
    by_cases hc : c = '.'
    · -- the label ends here
      subst hc
      rw [hostLabels, if_pos rfl, Str.split, List.splitOn_append_cons_self_of_not_mem h.notMem,
        List.forall_mem_cons, h.label_iff]
      split
      next hlen => exact iff_of_false Bool.false_ne_true fun hl => hl.1.1 hlen
      next hlen =>
        split
        next hlast => exact iff_of_false Bool.false_ne_true fun hl => hl.1.2 hlast
        next hlast =>
          rw [and_iff_right ⟨hlen, hlast⟩]
          exact ih .nil
    · rw [hostLabels_concat h hc, List.append_cons label c cs]
      have hdot : '.' ∉ label ++ [c] := by
        simpa [h.notMem] using fun heq => hc heq.symm
      exact ⟨fun hl => (ih hl.1).mp hl.2, fun hl =>
        ⟨begun_of_split hdot hl, (ih (begun_of_split hdot hl)).mpr hl⟩⟩

/-- The loop accepts the host names and no other text. -/
theorem isValidHostName_iff (text : List Char) : isValidHostName text = true ↔ HostName text := by
  have hloop : hostLabels '.' 0 text = true ↔ ∀ label ∈ Str.split '.' text, Label label :=
    hostLabels_iff .nil text
  rw [hostName_iff, isValidHostName]
  split
  next hlen =>
    rw [Bool.or_eq_true, List.isEmpty_iff, decide_eq_true_eq] at hlen
    refine iff_of_false Bool.false_ne_true fun h => ?_
    rcases hlen with rfl | hlong
    · exact absurd (h.2 [] (by simp [Str.split])).nonempty (by simp)
    · exact absurd h.1 (by omega)
  next hlen =>
    rw [Bool.or_eq_true, List.isEmpty_iff, decide_eq_true_eq, not_or] at hlen
    rw [and_iff_right (by omega), ← hloop]
    split
    next hdot =>
      rw [Bool.or_eq_true, decide_eq_true_eq, decide_eq_true_eq] at hdot
      refine iff_of_false Bool.false_ne_true fun h => ?_
      rcases hdot with hdot | hdot
      · -- the first label is empty
        obtain ⟨rest, rfl⟩ := List.head?_eq_some_iff.mp hdot
        simp [hostLabels] at h
      · -- the last one is
        obtain ⟨front, rfl⟩ := List.getLast?_eq_some_iff.mp hdot
        have hmem : [] ∈ Str.split '.' (front ++ ['.']) := by
          rw [Str.split, List.splitOn_append_cons_self]
          simp
        exact absurd (hloop.mp h [] hmem).nonempty (by simp)
    next => rfl

end NovaVpn.Net
