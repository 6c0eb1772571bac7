import Mathlib.Data.List.Perm.Basic

/-!
# Loops over callbacks

A thread that calls back runs a loop over a list that it took before: it
invokes the first callback ahead, and goes on when that one has finished. A
callback may start a loop of its own on the same thread, and other threads run
theirs, so that the loops under way are a stack for each thread. An exception
that leaves a callback leaves its loop too, with what is still ahead.

`step_invoke` and `step_rest` say what a step does to the callbacks ahead and
to those that run, and `waiting_subset` and `running_of_step` what that means
for one of them; what takes a callback out of the list that the next loop is
started with is no part of it.
-/

namespace NovaVpn.Framework

variable {α : Type}

/-- A loop of a thread. -/
structure Batch (α : Type) where
  thread : Nat
  ahead : List α
  running : Option α := none

/-- The loops under way, the newest first. -/
abbrev Batches (α : Type) := List (Batch α)

inductive LoopAct where
  | invoke
  | finish
  /-- The list is at its end. -/
  | leave
  /-- An exception leaves the callback that runs. -/
  | throws

namespace Batch

def next (b : Batch α) : Option α :=
  match b.running with
  | none => b.ahead.head?
  | some _ => none

/-- What becomes of the loop. -/
def step (b : Batch α) : LoopAct → Option (Batches α)
  | .invoke =>
    match b.running, b.ahead with
    | none, e :: rest => some [{ b with ahead := rest, running := some e }]
    | _, _ => none
  | .finish =>
    match b.running with
    | some _ => some [{ b with running := none }]
    | none => none
  | .leave =>
    match b.running, b.ahead with
    | none, [] => some []
    | _, _ => none
  | .throws =>
    match b.running with
    | some _ => some []
    | none => none

end Batch

namespace Batches

/-- A step of the newest loop of a thread. -/
def step (thread : Nat) (act : LoopAct) : Batches α → Option (Batches α)
  | [] => none
  | b :: bs =>
    if b.thread = thread then (b.step act).map (· ++ bs) else (step thread act bs).map (b :: ·)

/-- What the thread invokes next. -/
def next (thread : Nat) : Batches α → Option α
  | [] => none
  | b :: bs => if b.thread = thread then b.next else next thread bs

/-- What a step invokes. -/
def invoked (thread : Nat) (act : LoopAct) (bs : Batches α) : Option α :=
  match act with
  | .invoke => next thread bs
  | _ => none

/-- What the newest loop of the thread still has ahead. -/
def left (thread : Nat) : Batches α → List α
  | [] => []
  | b :: bs => if b.thread = thread then b.ahead else left thread bs

/-- The thread is in no loop, or in a callback. -/
def free (thread : Nat) : Batches α → Bool
  | [] => true
  | b :: bs => if b.thread = thread then b.running.isSome else free thread bs

/-- The callbacks ahead, of all loops. -/
def waiting (bs : Batches α) : List α := bs.flatMap (·.ahead)

def Running (bs : Batches α) (thread : Nat) (e : α) : Prop :=
  ∃ b ∈ bs, b.thread = thread ∧ b.running = some e

variable {bs bs' : Batches α} {thread : Nat} {e : α}

@[simp] theorem waiting_nil : waiting ([] : Batches α) = [] := rfl

@[simp] theorem waiting_cons (b : Batch α) (bs : Batches α) :
    waiting (b :: bs) = b.ahead ++ waiting bs := rfl

theorem running_cons {b : Batch α} :
    Running (b :: bs) thread e ↔ (b.thread = thread ∧ b.running = some e) ∨ Running bs thread e := by
  simp only [Running, List.exists_mem_cons_iff]

theorem mem_waiting_of_next (h : next thread bs = some e) : e ∈ waiting bs := by
  induction bs with
  | nil => cases h
  | cons b bs ih =>
    rw [waiting_cons, List.mem_append]
    simp only [next] at h
    split at h
    · unfold Batch.next at h
      split at h
      · exact Or.inl (List.mem_of_mem_head? h)
      · cases h
    · exact Or.inr (ih h)

/-- The callback is taken from those ahead, and runs. -/
theorem step_invoke (h : step thread .invoke bs = some bs') :
    ∃ e, next thread bs = some e ∧ (waiting bs).Perm (e :: waiting bs') ∧
      ∀ t a, Running bs' t a → Running bs t a ∨ (t = thread ∧ a = e) := by
  induction bs generalizing bs' with
  | nil => cases h
  | cons b bs ih =>
    simp only [step] at h
    split at h
    next hthread =>
      obtain ⟨new, hnew, rfl⟩ := Option.map_eq_some_iff.mp h
      simp only [Batch.step] at hnew
      split at hnew
      next e rest hrunning hahead =>
        cases hnew
        refine ⟨e, ?_, ?_, fun t a ha => ?_⟩
        · simp only [next, if_pos hthread, Batch.next, hrunning, hahead, List.head?_cons]
        · simp only [waiting_cons, hahead, List.cons_append]
          exact List.Perm.refl _
        · rcases running_cons.mp ha with ⟨ht, hnow⟩ | ha
          · exact Or.inr ⟨ht.symm.trans hthread, (Option.some.inj hnow).symm⟩
          · exact Or.inl (running_cons.mpr (Or.inr ha))
      next => cases hnew
    next hthread =>
      obtain ⟨bs₁, hstep, rfl⟩ := Option.map_eq_some_iff.mp h
      obtain ⟨e, hnext, hperm, hrunning⟩ := ih hstep
      refine ⟨e, ?_, ?_, fun t a ha => ?_⟩
      · rw [next, if_neg hthread, hnext]
      · rw [waiting_cons, waiting_cons]
        exact (List.Perm.append_left b.ahead hperm).trans List.perm_middle
      · rcases running_cons.mp ha with ha | ha
        · exact Or.inl (running_cons.mpr (Or.inl ha))
        · exact (hrunning t a ha).imp_left fun ha => running_cons.mpr (Or.inr ha)

/-- No callback starts to run, and only an exception loses some. -/
theorem step_rest {act : LoopAct} (hact : act ≠ .invoke) (h : step thread act bs = some bs') :
    (∀ t a, Running bs' t a → Running bs t a) ∧
      ∃ lost, (waiting bs).Perm (lost ++ waiting bs') ∧ (act ≠ .throws → lost = []) ∧
        lost ⊆ left thread bs := by
  induction bs generalizing bs' with
  | nil => cases h
  | cons b bs ih =>
    simp only [step] at h
    split at h
    next hthread =>
      obtain ⟨new, hnew, rfl⟩ := Option.map_eq_some_iff.mp h
      have hleft : left thread (b :: bs) = b.ahead := by rw [left, if_pos hthread]
      cases act with
      | invoke => exact absurd rfl hact
      | finish =>
        simp only [Batch.step] at hnew
        split at hnew
        next =>
          cases hnew
          refine ⟨fun t a ha => ?_, [], List.Perm.refl _, fun _ => rfl, List.nil_subset _⟩
          rcases running_cons.mp ha with ⟨-, hnow⟩ | ha
          · cases hnow
          · exact running_cons.mpr (Or.inr ha)
        next => cases hnew
      | leave =>
        simp only [Batch.step] at hnew
        split at hnew
        next hrunning hahead =>
          cases hnew
          refine ⟨fun t a ha => running_cons.mpr (Or.inr ha), [], ?_, fun _ => rfl, List.nil_subset _⟩
          rw [waiting_cons, hahead]
          exact List.Perm.refl _
        next => cases hnew
      | throws =>
        simp only [Batch.step] at hnew
        split at hnew
        next =>
          cases hnew
          refine ⟨fun t a ha => running_cons.mpr (Or.inr ha), b.ahead, List.Perm.refl _,
            fun hne => absurd rfl hne, ?_⟩
          rw [hleft]
          exact List.Subset.refl _
        next => cases hnew
    next hthread =>
      obtain ⟨bs₁, hstep, rfl⟩ := Option.map_eq_some_iff.mp h
      obtain ⟨hrunning, lost, hperm, hkept, hlost⟩ := ih hstep
      refine ⟨fun t a ha => ?_, lost, ?_, hkept, ?_⟩
      · rcases running_cons.mp ha with ha | ha
        · exact running_cons.mpr (Or.inl ha)
        · exact running_cons.mpr (Or.inr (hrunning t a ha))
      · rw [waiting_cons, waiting_cons]
        refine (List.Perm.append_left b.ahead hperm).trans ?_
        rw [← List.append_assoc, ← List.append_assoc]
        exact List.Perm.append_right _ List.perm_append_comm
      · rwa [left, if_neg hthread]

/-- What is ahead after a step was ahead before. -/
theorem waiting_subset {act : LoopAct} (h : step thread act bs = some bs') :
    waiting bs' ⊆ waiting bs := by
  intro a ha
  by_cases hact : act = .invoke
  · subst hact
    obtain ⟨e, -, hperm, -⟩ := step_invoke h
    exact hperm.mem_iff.mpr (List.mem_cons_of_mem e ha)
  · obtain ⟨-, lost, hperm, -, -⟩ := step_rest hact h
    exact hperm.mem_iff.mpr (List.mem_append_right lost ha)

/-- What runs after a step ran before, or was ahead. -/
theorem running_of_step {act : LoopAct} (h : step thread act bs = some bs') {t : Nat}
    (hrun : Running bs' t e) : Running bs t e ∨ e ∈ waiting bs := by
  by_cases hact : act = .invoke
  · subst hact
    obtain ⟨a, hnext, -, hrunning⟩ := step_invoke h
    refine (hrunning t e hrun).imp_right ?_
    rintro ⟨-, rfl⟩
    exact mem_waiting_of_next hnext
  · exact Or.inl ((step_rest hact h).1 t e hrun)

end Batches

section

variable {β : Type} [DecidableEq β] {f : α → β} {l : List α} {e : α}

/-- Under distinct keys nothing but the entry is erased. -/
theorem perm_cons_eraseP (hnodup : (l.map f).Nodup) (he : e ∈ l) :
    l.Perm (e :: l.eraseP fun a => f a = f e) := by
  induction l with
  | nil => cases he
  | cons a l ih =>
    rw [List.map_cons, List.nodup_cons] at hnodup
    by_cases ha : f a = f e
    · rcases List.mem_cons.mp he with rfl | he
      · rw [List.eraseP_cons_of_pos (by simp)]
      · exact absurd (ha ▸ List.mem_map_of_mem he) hnodup.1
    · have hmem : e ∈ l := (List.mem_cons.mp he).resolve_left fun heq => ha (by rw [heq])
      rw [List.eraseP_cons_of_neg (by simpa using ha)]
      exact (List.Perm.cons a (ih hnodup.2 hmem)).trans (List.Perm.swap e a _)

theorem ne_of_mem_eraseP {k : β} (hnodup : (l.map f).Nodup)
    (he : e ∈ l.eraseP fun a => f a = k) : f e ≠ k := by
  rintro rfl
  have hperm := (perm_cons_eraseP hnodup (List.mem_of_mem_eraseP he)).map f
  exact (List.nodup_cons.mp (hperm.nodup_iff.mp hnodup)).1 (List.mem_map_of_mem he)

end

end NovaVpn.Framework
