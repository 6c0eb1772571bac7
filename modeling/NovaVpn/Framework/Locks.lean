import Mathlib.Logic.Function.Basic
import Mathlib.Logic.Relation

/-!
# Threads and mutexes

Threads stand in phases; a phase holds some mutexes and may wait for one. The
owners of the mutexes agree with the phases (`Held`) as long as a thread takes
a free mutex, or gives one back that it holds. A thread is blocked by the
owner of the mutex it waits for, and there is no cycle of blocked threads if
some rank goes down along every such edge (`noCycle_of_rank`).
-/

namespace NovaVpn.Framework

variable {T M P : Type}

/-- The owner of each mutex is the thread whose phase holds it. -/
def Held (holds : P → List M) (phase : T → P) (owner : M → Option T) : Prop :=
  ∀ m t, owner m = some t ↔ m ∈ holds (phase t)

/-- A thread waits for a mutex that another one, or itself, owns. -/
def Blocked (waits : P → Option M) (phase : T → P) (owner : M → Option T) (t t' : T) : Prop :=
  ∃ m, waits (phase t) = some m ∧ owner m = some t'

/-- No thread waits for itself, through any number of others. -/
def NoCycle (waits : P → Option M) (phase : T → P) (owner : M → Option T) : Prop :=
  ∀ t, ¬ Relation.TransGen (Blocked waits phase owner) t t

section Held

variable [DecidableEq T] {holds : P → List M} {phase : T → P} {owner : M → Option T} {t : T} {p : P} {m : M}

/-- A step that takes and gives back nothing. -/
theorem Held.stay (h : Held holds phase owner) (hp : ∀ m', m' ∈ holds p ↔ m' ∈ holds (phase t)) :
    Held holds (Function.update phase t p) owner := by
  intro m' t'
  rw [Function.update_apply, h m' t']
  split
  · next heq => rw [hp m', heq]
  · rfl

variable [DecidableEq M]

/-- A free mutex is taken. -/
theorem Held.take (h : Held holds phase owner) (hfree : owner m = none)
    (hp : ∀ m', m' ∈ holds p ↔ m' = m ∨ m' ∈ holds (phase t)) :
    Held holds (Function.update phase t p) (Function.update owner m (some t)) := by
  intro m' t'
  have hm : ∀ t', m ∉ holds (phase t') := fun t' ht => by
    rw [(h m t').mpr ht] at hfree
    cases hfree
  rw [Function.update_apply, Function.update_apply]
  by_cases hm' : m' = m
  · subst hm'
    by_cases ht' : t' = t
    · subst ht'
      simp [hp]
    · simp [ht', hm t', Ne.symm ht']
  · rw [if_neg hm', h m' t']
    by_cases ht' : t' = t
    · subst ht'
      simp [hp, hm']
    · rw [if_neg ht']

/-- A mutex is given back. -/
theorem Held.give (h : Held holds phase owner) (hm : m ∈ holds (phase t))
    (hp : ∀ m', m' ∈ holds p ↔ m' ≠ m ∧ m' ∈ holds (phase t)) :
    Held holds (Function.update phase t p) (Function.update owner m none) := by
  intro m' t'
  have howner : owner m = some t := (h m t).mpr hm
  rw [Function.update_apply, Function.update_apply]
  by_cases hm' : m' = m
  · subst hm'
    by_cases ht' : t' = t
    · subst ht'
      simp [hp]
    · have hno : m' ∉ holds (phase t') := fun hmem => by
        rw [(h m' t').mpr hmem] at howner
        exact ht' (Option.some.inj howner)
      simp [ht', hno]
  · rw [if_neg hm', h m' t']
    by_cases ht' : t' = t
    · subst ht'
      simp [hp, hm']
    · rw [if_neg ht']

end Held

/-- A rank that goes down from every blocked thread to the one that blocks
it. -/
theorem noCycle_of_rank {waits : P → Option M} {phase : T → P} {owner : M → Option T}
    (rank : P → Nat)
    (h : ∀ t t', Blocked waits phase owner t t' → rank (phase t') < rank (phase t)) :
    NoCycle waits phase owner := by
  have hpath : ∀ {t t'}, Relation.TransGen (Blocked waits phase owner) t t' →
      rank (phase t') < rank (phase t) := by
    intro t t' hp
    induction hp with
    | single hb => exact h _ _ hb
    | tail _ hb ih => exact Nat.lt_trans (h _ _ hb) ih
  exact fun t ht => Nat.lt_irrefl _ (hpath ht)

end NovaVpn.Framework
