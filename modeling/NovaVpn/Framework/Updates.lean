import Mathlib.Init

/-!
# Updates that a fold passes on

A step that goes on or fails, folded along a list, from a state and from the
same state with an update made to it. An element passes the update on if its
step commutes with it, and absorbs it if its step makes the same of both states:
then the rest of the list cannot tell them apart. `foldlM_unseen` follows an
update to the first element that absorbs it.
-/

namespace NovaVpn.Framework

variable {S I E : Type}

/-- The step of the element commutes with the update. -/
def Passes (step : S → I → Except E S) (update : S → S) (i : I) : Prop :=
  ∀ s, step (update s) i = (step s i).map update

/-- The step of the element does not depend on whether the update was made. -/
def Absorbs (step : S → I → Except E S) (update : S → S) (i : I) : Prop :=
  ∀ s, step (update s) i = step s i

variable {step : S → I → Except E S} {update : S → S} {i : I} {l : List I}

theorem Passes.cons (h : Passes step update i) (l : List I) (s : S) :
    (i :: l).foldlM step (update s) =
      step s i >>= fun s => l.foldlM step (update s) := by
  rw [List.foldlM_cons, h s]
  cases step s i <;> rfl

theorem Absorbs.cons (h : Absorbs step update i) (l : List I) (s : S) :
    (i :: l).foldlM step (update s) = (i :: l).foldlM step s := by
  rw [List.foldlM_cons, List.foldlM_cons, h s]

theorem foldlM_cons_ok {s t : S} : (i :: l).foldlM step s = .ok t ↔
    ∃ s', step s i = .ok s' ∧ l.foldlM step s' = .ok t := by
  rw [List.foldlM_cons]
  cases step s i with
  | error e => exact ⟨fun h => (by cases h), fun ⟨_, h, _⟩ => (by cases h)⟩
  | ok s' =>
    refine ⟨fun h => ⟨s', rfl, h⟩, fun ⟨_, h, hl⟩ => ?_⟩
    cases h
    exact hl

theorem foldlM_append_ok {l' : List I} {s t : S} : (l ++ l').foldlM step s = .ok t ↔
    ∃ s', l.foldlM step s = .ok s' ∧ l'.foldlM step s' = .ok t := by
  rw [List.foldlM_append]
  cases l.foldlM step s with
  | error e => exact ⟨fun h => (by cases h), fun ⟨_, h, _⟩ => (by cases h)⟩
  | ok s' =>
    refine ⟨fun h => ⟨s', rfl, h⟩, fun ⟨_, h, hl⟩ => ?_⟩
    cases h
    exact hl

/-- Steps that never fail come to the end of the list. -/
theorem foldlM_total (h : ∀ i ∈ l, ∀ s, ∃ t, step s i = .ok t) (s : S) :
    ∃ t, l.foldlM step s = .ok t := by
  induction l generalizing s with
  | nil => exact ⟨s, rfl⟩
  | cons i l ih =>
    obtain ⟨hi, hl⟩ := List.forall_mem_cons.mp h
    obtain ⟨s', hs'⟩ := hi s
    obtain ⟨t, ht⟩ := ih hl s'
    exact ⟨t, foldlM_cons_ok.mpr ⟨s', hs', ht⟩⟩

/-- What holds between the states before and after each step holds between the
first and the last. -/
theorem foldlM_related {R : S → S → Prop} (hrefl : ∀ s, R s s)
    (htrans : ∀ s t u, R s t → R t u → R s u) {s t : S}
    (hstep : ∀ i ∈ l, ∀ s t, step s i = .ok t → R s t) (h : l.foldlM step s = .ok t) : R s t := by
  induction l generalizing s with
  | nil =>
    cases h
    exact hrefl _
  | cons i l ih =>
    obtain ⟨hi, hl⟩ := List.forall_mem_cons.mp hstep
    obtain ⟨s', hs', ht⟩ := foldlM_cons_ok.mp h
    exact htrans s s' t (hi s s' hs') (ih hl ht)

/-- An update that every element passes on is there at the end. -/
theorem foldlM_passes (h : ∀ i ∈ l, Passes step update i) (s : S) :
    l.foldlM step (update s) = (l.foldlM step s).map update := by
  induction l generalizing s with
  | nil => rfl
  | cons i l ih =>
    obtain ⟨hi, hl⟩ := List.forall_mem_cons.mp h
    rw [hi.cons, List.foldlM_cons]
    cases step s i with
    | error e => rfl
    | ok t => exact ih hl t

/-- An update that some element absorbs, if every element passes it on or
absorbs it, is lost. -/
theorem foldlM_absorbs (h : ∀ i ∈ l, Passes step update i ∨ Absorbs step update i)
    (hsome : ∃ i ∈ l, Absorbs step update i) (s : S) :
    l.foldlM step (update s) = l.foldlM step s := by
  induction l generalizing s with
  | nil => exact absurd hsome (by simp)
  | cons i l ih =>
    obtain ⟨hi, hl⟩ := List.forall_mem_cons.mp h
    by_cases habs : Absorbs step update i
    · exact habs.cons l s
    · have hrest : ∃ j ∈ l, Absorbs step update j := by
        obtain ⟨j, hj, hja⟩ := hsome
        rcases List.mem_cons.mp hj with rfl | hj
        · exact absurd hja habs
        · exact ⟨j, hj, hja⟩
      rw [(hi.resolve_right habs).cons, List.foldlM_cons]
      cases step s i with
      | error e => rfl
      | ok t => exact ih hl hrest t

/-- If no element before the first that absorbs the update does anything but pass
it on, the update is lost or there at the end. -/
theorem foldlM_unseen (h : ∀ a i b, l = a ++ i :: b → (∀ j ∈ a, ¬ Absorbs step update j) →
      Passes step update i ∨ Absorbs step update i) (s : S) :
    l.foldlM step (update s) = l.foldlM step s ∨
      l.foldlM step (update s) = (l.foldlM step s).map update := by
  induction l generalizing s with
  | nil => exact .inr rfl
  | cons i l ih =>
    by_cases habs : Absorbs step update i
    · exact .inl (habs.cons l s)
    · have hi := (h [] i l rfl (by simp)).resolve_right habs
      have hrest := ih fun a j b heq ha => h (i :: a) j b (congrArg (i :: ·) heq)
        (List.forall_mem_cons.mpr ⟨habs, ha⟩)
      rw [hi.cons, List.foldlM_cons]
      cases step s i with
      | error e => exact .inl rfl
      | ok t => exact hrest t

end NovaVpn.Framework
