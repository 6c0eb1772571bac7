import Mathlib.Logic.Function.Basic

/-!
# Machines and their runs

A machine is a partial step function: an event that is not possible in a
state has no step. `run` takes a list of events, so that the states it
reaches over all lists are the reachable ones, and `RunMeets` says that every
event of a run meets a condition on itself and the state it happens in.
`run_invariant` is the induction: what every step that meets the condition
keeps, every run that meets it keeps. Many machines keep tables as functions to
`Option`; `update_some_cases` says what is in one after an entry was set.
-/

namespace NovaVpn.Framework

variable {S E : Type}

/-- The state after a list of events, if all of them are possible. -/
def run (step : S → E → Option S) : S → List E → Option S
  | s, [] => some s
  | s, e :: es => (step s e).bind fun s' => run step s' es

/-- Every event of the run meets `ok`, in the state it happens in. -/
def RunMeets (step : S → E → Option S) (ok : S → E → Prop) : S → List E → Prop
  | _, [] => True
  | s, e :: es => ok s e ∧ ∀ s', step s e = some s' → RunMeets step ok s' es

variable {step : S → E → Option S} {ok : S → E → Prop} {I : S → Prop}

/-- Whether a run meets a condition is decided along it. -/
instance decidableRunMeets [∀ s e, Decidable (ok s e)] :
    ∀ s es, Decidable (RunMeets step ok s es)
  | _, [] => isTrue trivial
  | s, e :: es =>
    match hs : step s e with
    | none => decidable_of_iff (ok s e) ⟨fun h => ⟨h, fun _ h' => by simp [hs] at h'⟩, And.left⟩
    | some s' =>
      have := decidableRunMeets s' es
      decidable_of_iff (ok s e ∧ RunMeets step ok s' es)
        (and_congr_right fun _ => by simp [hs])

theorem run_cons {s s' : S} {e : E} {es : List E} :
    run step s (e :: es) = some s' ↔ ∃ s₁, step s e = some s₁ ∧ run step s₁ es = some s' := by
  simp only [run, Option.bind_eq_some_iff]

theorem run_append (step : S → E → Option S) (s : S) (es es' : List E) :
    run step s (es ++ es') = (run step s es).bind fun s' => run step s' es' := by
  induction es generalizing s with
  | nil => rfl
  | cons e es ih =>
    simp only [List.cons_append, run, Option.bind_assoc, ih]

theorem run_invariant
    (hstep : ∀ s e s', I s → ok s e → step s e = some s' → I s') {s s' : S} {es : List E}
    (h : I s) (hok : RunMeets step ok s es) (hr : run step s es = some s') : I s' := by
  induction es generalizing s with
  | nil =>
    simp only [run, Option.some.injEq] at hr
    rwa [← hr]
  | cons e es ih =>
    obtain ⟨s₁, hs, hr⟩ := run_cons.mp hr
    exact ih (hstep s e s₁ h hok.1 hs) (hok.2 s₁ hs) hr

theorem runMeets_true (s : S) (es : List E) : RunMeets step (fun _ _ => True) s es := by
  induction es generalizing s with
  | nil => trivial
  | cons e es ih => exact ⟨trivial, fun s' _ => ih s'⟩

/-- Events that meet the condition in every state. -/
theorem runMeets_of_forall {s : S} {es : List E} (h : ∀ e ∈ es, ∀ s, ok s e) :
    RunMeets step ok s es := by
  induction es generalizing s with
  | nil => trivial
  | cons e es ih =>
    rw [List.forall_mem_cons] at h
    exact ⟨h.1 s, fun _ _ => ih h.2⟩

/-- The events of a run are among those of its list. -/
theorem runMeets_mem {s : S} {es : List E} (h : RunMeets step ok s es) :
    RunMeets step (fun s e => e ∈ es ∧ ok s e) s es := by
  suffices hall : ∀ es', es ⊆ es' → RunMeets step (fun s e => e ∈ es' ∧ ok s e) s es from
    hall es (List.Subset.refl es)
  intro es' hsub
  induction es generalizing s with
  | nil => trivial
  | cons e es ih =>
    rw [List.cons_subset] at hsub
    exact ⟨⟨hsub.1, h.1⟩, fun s' hs => ih (h.2 s' hs) hsub.2⟩

theorem runMeets_append {s : S} {es es' : List E} (h : RunMeets step ok s es)
    (h' : ∀ s', run step s es = some s' → RunMeets step ok s' es') :
    RunMeets step ok s (es ++ es') := by
  induction es generalizing s with
  | nil => exact h' s rfl
  | cons e es ih =>
    refine ⟨h.1, fun s₁ hs => ih (h.2 s₁ hs) fun s' hr => h' s' ?_⟩
    exact run_cons.mpr ⟨s₁, hs, hr⟩

/-- What comes after a part of a run meets the condition from there on. -/
theorem runMeets_split {s s' : S} {es es' : List E} (h : RunMeets step ok s (es ++ es'))
    (hr : run step s es = some s') : RunMeets step ok s' es' := by
  induction es generalizing s with
  | nil =>
    cases hr
    exact h
  | cons e es ih =>
    obtain ⟨s₁, hs, hr⟩ := run_cons.mp hr
    exact ih (h.2 s₁ hs) hr

/-- If each step keeps a property exactly if it meets the condition, so does each
run. -/
theorem run_iff_meets {P : S → Prop}
    (hstep : ∀ s e s', I s → step s e = some s' → I s' ∧ (P s' ↔ P s ∧ ok s e)) {s s' : S}
    {es : List E} (h : I s) (hr : run step s es = some s') :
    P s' ↔ P s ∧ RunMeets step ok s es := by
  induction es generalizing s with
  | nil =>
    cases hr
    exact (and_iff_left trivial).symm
  | cons e es ih =>
    obtain ⟨s₁, hs, hr⟩ := run_cons.mp hr
    obtain ⟨h₁, hP⟩ := hstep s e s₁ h hs
    rw [ih h₁ hr, hP, RunMeets, and_assoc]
    refine and_congr_right fun _ => and_congr_right fun _ =>
      ⟨fun hmeets s₂ hs₂ => ?_, fun hmeets => hmeets s₁ hs⟩
    cases hs.symm.trans hs₂
    exact hmeets

/-- What every step keeps, every run keeps. -/
theorem run_invariant' (hstep : ∀ s e s', I s → step s e = some s' → I s') {s s' : S} {es : List E}
    (h : I s) (hr : run step s es = some s') : I s' :=
  run_invariant (fun s e s' h _ => hstep s e s' h) h (runMeets_true s es) hr

/-! ## Tables -/

section

variable {K V : Type} [DecidableEq K] {f : K → Option V} {k j : K} {v w : V}

theorem update_some_cases (h : Function.update f k (some v) j = some w) :
    (j = k ∧ w = v) ∨ (j ≠ k ∧ f j = some w) := by
  by_cases hne : j = k
  · subst hne
    rw [Function.update_self, Option.some.injEq] at h
    exact Or.inl ⟨rfl, h.symm⟩
  · rw [Function.update_of_ne hne] at h
    exact Or.inr ⟨hne, h⟩

theorem update_none_cases (h : Function.update f k none j = some w) : j ≠ k ∧ f j = some w := by
  by_cases hne : j = k
  · subst hne
    rw [Function.update_self] at h
    cases h
  · rw [Function.update_of_ne hne] at h
    exact ⟨hne, h⟩

theorem update_none_eq_none (k : K) (h : f j = none) : Function.update f k none j = none := by
  by_cases hne : j = k
  · rw [hne, Function.update_self]
  · rw [Function.update_of_ne hne, h]

end

end NovaVpn.Framework
