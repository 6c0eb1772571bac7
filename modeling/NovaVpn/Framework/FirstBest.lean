import Mathlib.Data.List.MinMax

/-!
# The first of the best

A loop that keeps the best so far of the elements that apply ends with the one
that outranks all that apply before it and is outranked by none behind it
(`FirstBest.of_foldl`). There is at most one such element (`FirstBest.unique`),
and a permutation that leaves the order of equally ranked elements alone does
not change it (`FirstBest.eq_of_perm`). Where elements of two kinds apply, the
best of them all is the best of one kind, as one of the two precedes the other
(`FirstBest.or_of_precedes`).
-/

namespace NovaVpn.Framework

variable {α β : Type} [LinearOrder β]

/-- A turn of a loop that keeps the best so far of the elements that apply. -/
structure KeepsBest (better : Option α → α → Option α) (applies : α → Bool) (rank : α → β) :
    Prop where
  skip : ∀ best a, applies a = false → better best a = best
  first : ∀ a, applies a = true → better none a = some a
  next : ∀ b a, applies a = true → better (some b) a = if rank b < rank a then some a else some b

namespace KeepsBest

variable {better : Option α → α → Option α} {applies : α → Bool} {rank : α → β}

/-- Such a loop finds the first of the elements that apply whose rank no other
exceeds. -/
theorem foldl_eq_argmax (h : KeepsBest better applies rank) (l : List α) :
    l.foldl better none = (l.filter applies).argmax rank := by
  unfold List.argmax
  generalize (none : Option α) = best
  induction l generalizing best with
  | nil => rfl
  | cons a l ih =>
    rw [List.foldl_cons, ih, List.filter_cons]
    by_cases ha : applies a = true
    · rw [if_pos ha, List.foldl_cons]
      cases best with
      | none => rw [h.first a ha, List.argAux]
      | some b => rw [h.next b a ha, List.argAux]
    · rw [if_neg ha, h.skip best a (Bool.eq_false_of_not_eq_true ha)]

/-- It ends with nothing when nothing applies. -/
theorem foldl_eq_none (h : KeepsBest better applies rank) {l : List α} :
    l.foldl better none = none ↔ ∀ a ∈ l, applies a = false := by
  rw [h.foldl_eq_argmax l, List.argmax_eq_none, List.filter_eq_nil_iff]
  simp only [Bool.not_eq_true]

end KeepsBest

/-- The element applies, outranks what applies before it, and is outranked by
nothing that applies after it. -/
def FirstBest (applies : α → Prop) (rank : α → β) (l : List α) (best : α) : Prop :=
  ∃ before after, l = before ++ best :: after ∧ applies best ∧
    (∀ a ∈ before, applies a → rank a < rank best) ∧ ∀ a ∈ after, applies a → rank a ≤ rank best

/-- Two elements that stand in one order in the first list and in the other in
the second. -/
def Reorders (l l' : List α) (a b : α) : Prop := [a, b].Sublist l ∧ [b, a].Sublist l'

/-- The first stands in the list and none of the second before it. -/
def Before (l : List α) (a b : α) : Prop := ∃ first rest, l = first ++ a :: rest ∧ b ∉ first

theorem Before.cons {l : List α} {a b c : α} (h : Before l a b) (hne : b ≠ c) :
    Before (c :: l) a b := by
  obtain ⟨first, rest, rfl, hb⟩ := h
  refine ⟨c :: first, rest, rfl, fun hmem => ?_⟩
  rcases List.mem_cons.mp hmem with heq | hmem
  · exact hne heq
  · exact hb hmem

theorem before_total {l : List α} {a b : α} (ha : a ∈ l) (hb : b ∈ l) :
    Before l a b ∨ Before l b a := by
  induction l with
  | nil => cases ha
  | cons c l ih =>
    by_cases hac : a = c
    · exact Or.inl ⟨[], l, by rw [hac]; rfl, List.not_mem_nil⟩
    · by_cases hbc : b = c
      · exact Or.inr ⟨[], l, by rw [hbc]; rfl, List.not_mem_nil⟩
      · have hin := ih (List.mem_of_ne_of_mem hac ha) (List.mem_of_ne_of_mem hbc hb)
        exact hin.imp (fun h => h.cons hbc) (fun h => h.cons hac)

/-- What stands before the first of one list and what stands before an element
of the same list that is not behind it. -/
theorem prefix_of_split {first first' rest rest' : List α} {a b : α}
    (h : first ++ a :: rest = first' ++ b :: rest') (hb : b ∉ first) : first <+: first' := by
  rcases List.append_eq_append_iff.mp h with ⟨part, hpart, -⟩ | ⟨part, hpart, hrest⟩
  · exact ⟨part, hpart.symm⟩
  · cases part with
    | nil => exact ⟨[], by rw [hpart, List.append_nil, List.append_nil]⟩
    | cons c part =>
      obtain rfl : b = c := (List.cons.inj hrest).1
      exact absurd (by rw [hpart]; simp) hb

theorem Before.trans {l : List α} {a b c : α} (h : Before l a b) (h' : Before l b c) :
    Before l a c := by
  obtain ⟨first, rest, hl, hb⟩ := h
  obtain ⟨first', rest', hl', hc⟩ := h'
  have hfront := prefix_of_split (hl.symm.trans hl') hb
  exact ⟨first, rest, hl, fun hmem => hc (hfront.subset hmem)⟩

/-- The first outranks the second, or ranks as high and stands before it. -/
def Precedes (rank : α → β) (l : List α) (a b : α) : Prop :=
  rank b < rank a ∨ (rank b = rank a ∧ Before l a b)

theorem precedes_total (rank : α → β) {l : List α} {a b : α} (ha : a ∈ l) (hb : b ∈ l) :
    Precedes rank l a b ∨ Precedes rank l b a := by
  rcases lt_trichotomy (rank b) (rank a) with hlt | heq | hlt
  · exact Or.inl (Or.inl hlt)
  · exact (before_total ha hb).imp (fun h => Or.inr ⟨heq, h⟩) (fun h => Or.inr ⟨heq.symm, h⟩)
  · exact Or.inr (Or.inl hlt)

namespace FirstBest

variable {applies : α → Prop} {rank : α → β} {l l' : List α} {best best' : α}

theorem mem (h : FirstBest applies rank l best) : best ∈ l := by
  obtain ⟨before, after, rfl, -⟩ := h
  simp

theorem app (h : FirstBest applies rank l best) : applies best := by
  obtain ⟨-, -, -, happ, -⟩ := h
  exact happ

/-- No element that applies outranks the best. -/
theorem le (h : FirstBest applies rank l best) {a : α} (ha : a ∈ l) (happ : applies a) :
    rank a ≤ rank best := by
  obtain ⟨before, after, rfl, -, hbefore, hafter⟩ := h
  rw [List.mem_append, List.mem_cons] at ha
  rcases ha with ha | rfl | ha
  · exact le_of_lt (hbefore a ha happ)
  · exact le_refl _
  · exact hafter a ha happ

/-- Another that ranks as high comes later. -/
theorem sublist (h : FirstBest applies rank l best) {a : α} (ha : a ∈ l) (happ : applies a)
    (hrank : rank a = rank best) (hne : a ≠ best) : [best, a].Sublist l := by
  obtain ⟨before, after, rfl, -, hbefore, -⟩ := h
  rw [List.mem_append, List.mem_cons] at ha
  rcases ha with ha | heq | ha
  · exact absurd hrank (ne_of_lt (hbefore a ha happ))
  · exact absurd heq hne
  · exact ((List.singleton_sublist.mpr ha).cons_cons best).trans
      (List.sublist_append_right before (best :: after))

/-- Only how the elements that apply compare matters. -/
theorem of_rank {γ : Type} [LinearOrder γ] {rank' : α → γ} (h : FirstBest applies rank l best)
    (hrank : ∀ a b, applies a → applies b → (rank a < rank b ↔ rank' a < rank' b)) :
    FirstBest applies rank' l best := by
  obtain ⟨before, after, hl, happ, hbefore, hafter⟩ := h
  refine ⟨before, after, hl, happ, fun a ha haa => ?_, fun a ha haa => ?_⟩
  · exact (hrank a best haa happ).mp (hbefore a ha haa)
  · rw [← not_lt, ← hrank best a happ haa, not_lt]
    exact hafter a ha haa

/-- Two lists of the same elements have the same best one unless two that rank
alike changed places. -/
theorem eq_of_perm (hperm : l.Perm l')
    (hkept : ∀ a b, applies a → applies b → rank a = rank b → ¬ Reorders l l' a b)
    (h : FirstBest applies rank l best) (h' : FirstBest applies rank l' best') : best = best' := by
  have hmem := hperm.mem_iff.mpr h'.mem
  have hmem' := hperm.mem_iff.mp h.mem
  have hrank : rank best = rank best' := le_antisymm (h'.le hmem' h.app) (h.le hmem h'.app)
  by_cases heq : best = best'
  · exact heq
  · have hfirst := h.sublist hmem h'.app hrank.symm (Ne.symm heq)
    have hsecond := h'.sublist hmem' h.app hrank heq
    exact absurd ⟨hfirst, hsecond⟩ (hkept best best' h.app h'.app hrank)

theorem of_argmax {applies : α → Bool} (h : (l.filter applies).argmax rank = some best) :
    FirstBest (fun a => applies a = true) rank l best := by
  induction l using List.reverseRecOn generalizing best with
  | nil => cases h
  | append_singleton l a ih =>
    rw [List.filter_append, List.filter_cons, List.filter_nil] at h
    by_cases ha : applies a = true
    · rw [if_pos ha, List.argmax_concat] at h
      cases hm : (l.filter applies).argmax rank with
      | none =>
        rw [hm] at h
        obtain rfl : a = best := Option.some.inj h
        have hnone := List.filter_eq_nil_iff.mp (List.argmax_eq_none.mp hm)
        exact ⟨l, [], rfl, ha, fun r hr happ => absurd happ (hnone r hr), by simp⟩
      | some c =>
        rw [hm] at h
        have hc := ih hm
        by_cases hlt : rank c < rank a
        · obtain rfl : a = best := Option.some.inj ((if_pos hlt).symm.trans h)
          exact ⟨l, [], rfl, ha, fun r hr happ => lt_of_le_of_lt (hc.le hr happ) hlt, by simp⟩
        · obtain rfl : c = best := Option.some.inj ((if_neg hlt).symm.trans h)
          obtain ⟨before, after, rfl, happ, hbefore, hafter⟩ := hc
          refine ⟨before, after ++ [a], by simp, happ, hbefore, fun r hr hra => ?_⟩
          rcases List.mem_append.mp hr with hr | hr
          · exact hafter r hr hra
          · rw [List.mem_singleton.mp hr]
            exact not_lt.mp hlt
    · rw [if_neg ha, List.append_nil] at h
      obtain ⟨before, after, rfl, happ, hbefore, hafter⟩ := ih h
      refine ⟨before, after ++ [a], by simp, happ, hbefore, fun r hr hra => ?_⟩
      rcases List.mem_append.mp hr with hr | hr
      · exact hafter r hr hra
      · rw [List.mem_singleton.mp hr] at hra
        exact absurd hra ha

/-- What a loop that keeps the best so far ends with. -/
theorem of_foldl {better : Option α → α → Option α} {applies : α → Bool}
    (hkeeps : KeepsBest better applies rank) (h : l.foldl better none = some best) :
    FirstBest (fun a => applies a = true) rank l best :=
  of_argmax ((hkeeps.foldl_eq_argmax l).symm.trans h)

/-- There is a best one as soon as one applies. -/
theorem exists_of_mem (rank : α → β) {a : α} (ha : a ∈ l) (happ : applies a) :
    ∃ best, FirstBest applies rank l best := by
  classical
  cases h : (l.filter fun a => decide (applies a)).argmax rank with
  | none =>
    have hnil := List.filter_eq_nil_iff.mp (List.argmax_eq_none.mp h) a ha
    exact absurd (decide_eq_true happ) hnil
  | some best => exact ⟨best, by simpa only [decide_eq_true_eq] using of_argmax h⟩

theorem of_iff {applies' : α → Prop} (h : FirstBest applies rank l best)
    (hiff : ∀ a ∈ l, applies a ↔ applies' a) : FirstBest applies' rank l best := by
  have hmem := h.mem
  obtain ⟨before, after, rfl, happ, hbefore, hafter⟩ := h
  refine ⟨before, after, rfl, (hiff best hmem).mp happ, fun a ha haa => ?_, fun a ha haa => ?_⟩
  · exact hbefore a ha ((hiff a (by simp [ha])).mpr haa)
  · exact hafter a ha ((hiff a (by simp [ha])).mpr haa)

/-- Only what applies in the list and how it ranks there matters. -/
theorem congr {applies' : α → Prop} {rank' : α → β} (hiff : ∀ a ∈ l, applies a ↔ applies' a)
    (hrank : ∀ a ∈ l, applies a → rank a = rank' a) :
    FirstBest applies rank l best ↔ FirstBest applies' rank' l best := by
  refine exists_congr fun before => exists_congr fun after => and_congr_right fun hl => ?_
  subst hl
  have hbefore : ∀ a ∈ before, a ∈ before ++ best :: after := fun a ha => by simp [ha]
  have hafter : ∀ a ∈ after, a ∈ before ++ best :: after := fun a ha => by simp [ha]
  have hbest : best ∈ before ++ best :: after := by simp
  rw [hiff best hbest]
  refine and_congr_right fun happ => ?_
  have heq := hrank best hbest ((hiff best hbest).mpr happ)
  refine and_congr (forall₂_congr fun a ha => ?_) (forall₂_congr fun a ha => ?_)
  · rw [← hiff a (hbefore a ha), ← heq]
    exact forall_congr' fun haa => by rw [hrank a (hbefore a ha) haa]
  · rw [← hiff a (hafter a ha), ← heq]
    exact forall_congr' fun haa => by rw [hrank a (hafter a ha) haa]

/-- The best one of the images of a list. -/
theorem map {γ : Type} {f : γ → α} {l : List γ} {best : γ}
    (h : FirstBest (fun a => applies (f a)) (fun a => rank (f a)) l best) :
    FirstBest applies rank (l.map f) (f best) := by
  obtain ⟨before, after, rfl, happ, hbefore, hafter⟩ := h
  refine ⟨before.map f, after.map f, by rw [List.map_append, List.map_cons], happ, ?_, ?_⟩
  · exact List.forall_mem_map.mpr hbefore
  · exact List.forall_mem_map.mpr hafter

/-- What stands before the best one has nothing of its rank that applies. -/
theorem rank_lt (h : FirstBest applies rank l best) {a : α} (happ : applies a)
    (hbefore : Before l a best) (hne : a ≠ best) : rank a < rank best := by
  obtain ⟨before, after, hl, -, hlt, -⟩ := h
  obtain ⟨first, rest, hfirst, hbest⟩ := hbefore
  obtain ⟨part, hpart⟩ := prefix_of_split (hfirst.symm.trans hl) hbest
  refine hlt a ?_ happ
  rw [hl, ← hpart, List.append_assoc, List.append_cancel_left_eq] at hfirst
  cases part with
  | nil => exact absurd (List.cons.inj hfirst).1.symm hne
  | cons c part =>
    rw [← hpart, (List.cons.inj hfirst).1]
    simp

/-- There is only one. -/
theorem unique (h : FirstBest applies rank l best) (h' : FirstBest applies rank l best') :
    best = best' := by
  have hrank : rank best = rank best' := le_antisymm (h'.le h.mem h.app) (h.le h'.mem h'.app)
  by_contra hne
  rcases before_total h.mem h'.mem with hbefore | hbefore
  · exact absurd hrank (ne_of_lt (h'.rank_lt h.app hbefore hne))
  · exact absurd hrank.symm (ne_of_lt (h.rank_lt h'.app hbefore (Ne.symm hne)))

/-- The best one precedes all that some element that applies precedes. -/
theorem precedes (h : FirstBest applies rank l best) {a b : α} (ha : a ∈ l) (happ : applies a)
    (hprec : Precedes rank l a b) : Precedes rank l best b := by
  have hle := h.le ha happ
  rcases hprec with hlt | ⟨heq, hbefore⟩
  · exact Or.inl (lt_of_lt_of_le hlt hle)
  · rcases lt_or_eq_of_le hle with hlt | hrank
    · exact Or.inl (lt_of_eq_of_lt heq hlt)
    · refine Or.inr ⟨heq.trans hrank, ?_⟩
      by_cases hne : a = best
      · exact hne ▸ hbefore
      · rcases before_total h.mem ha with hfirst | hfirst
        · exact hfirst.trans hbefore
        · exact absurd hrank (ne_of_lt (h.rank_lt happ hfirst hne))

/-- Of two kinds of elements that apply the best of all is that of the first
kind, where it precedes that of the second. -/
theorem or_of_precedes {applies' : α → Prop} (h : FirstBest applies rank l best)
    (h' : FirstBest applies' rank l best') (hprec : Precedes rank l best best') :
    FirstBest (fun a => applies a ∨ applies' a) rank l best := by
  have hle : rank best' ≤ rank best := hprec.elim le_of_lt (fun h => le_of_eq h.1)
  obtain ⟨before, after, hl, happ, hlt, hafter⟩ := h
  refine ⟨before, after, hl, Or.inl happ, fun a ha haa => ?_, fun a ha haa => ?_⟩
  · rcases haa with haa | haa
    · exact hlt a ha haa
    · have hmem : a ∈ l := by rw [hl]; exact List.mem_append_left _ ha
      rcases hprec with hrank | ⟨hrank, first, rest, hfirst, hno⟩
      · exact lt_of_le_of_lt (h'.le hmem haa) hrank
      · -- the elements before the best of the first kind are before that of the second
        have hself : best ∉ before := fun hself => lt_irrefl _ (hlt best hself happ)
        have hfront := prefix_of_split (hl.symm.trans hfirst) hself
        obtain ⟨before', after', hl', -, hlt', -⟩ := h'
        have hno' : best' ∉ before := fun hmem => hno (hfront.subset hmem)
        have hfront' := prefix_of_split (hl.symm.trans hl') hno'
        exact lt_of_lt_of_le (hlt' a (hfront'.subset ha) haa) hle
  · rcases haa with haa | haa
    · exact hafter a ha haa
    · have hmem : a ∈ l := by rw [hl]; exact List.mem_append_right _ (List.mem_cons_of_mem _ ha)
      exact le_trans (h'.le hmem haa) hle

/-- The loop ends with the best one, where there is one. -/
theorem foldl_eq_some_iff {better : Option α → α → Option α} {applies : α → Bool}
    (hkeeps : KeepsBest better applies rank) :
    l.foldl better none = some best ↔ FirstBest (fun a => applies a = true) rank l best := by
  refine ⟨of_foldl hkeeps, fun h => ?_⟩
  cases hfold : l.foldl better none with
  | none =>
    have hnone := hkeeps.foldl_eq_none.mp hfold best h.mem
    exact absurd (h.app.symm.trans hnone) (by simp)
  | some found => rw [(of_foldl hkeeps hfold).unique h]

end FirstBest

end NovaVpn.Framework
