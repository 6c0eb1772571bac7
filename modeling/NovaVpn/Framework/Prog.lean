import Mathlib.Init

/-!
# Programs that call out to their environment

Code whose effects are calls: into the operating system, to a file, or into a
section guarded by a lock. A `Prog` returns a value, or makes one call and
goes on with the answer; an `Env` says, for each possible outcome of a call,
what it answers and what it does to the state. Nothing happens between two
calls, so the states between calls are the only ones a crash, or another
thread, can see.

`exec` runs a program against a list of turns (one for each call made: the
outcome of whichever call it is) and stops where the list ends, so its results
over all lists are exactly the points a run can reach. `Meets` says that every
call made on the way meets a condition on its outcome and on the state it is
made in. `Safe` is the rule to prove that an invariant holds at all those
points: it follows the program, one obligation for each call (`Safe.exec`),
and `Safe.bind` composes it. A program run under `watch` also knows whether
its calls met a condition, so that an equivalence with `Meets` is a
postcondition (`Safe.post_watch`). `complete` is the run in which every turn is
the same, to its end.
-/

namespace NovaVpn.Framework

/-- The calls a program can make, and what each of them answers. -/
structure Api where
  Call : Type
  Ans : Call → Type

/-- A program: a result, or a call and what follows its answer. -/
inductive Prog (A : Api) (α : Type) where
  | ret (a : α)
  | call (e : A.Call) (k : A.Ans e → Prog A α)

/-- The environment of a program: what a call answers and leaves behind, for
each of its outcomes. -/
structure Env (A : Api) (S : Type) where
  Outcome : A.Call → Type
  step : (e : A.Call) → Outcome e → S → A.Ans e × S

/-- What the environment does at one point of a run: an outcome for whichever
call is made there. -/
def Env.Turn {A : Api} {S : Type} (env : Env A S) : Type := (e : A.Call) → env.Outcome e

namespace Prog

variable {A : Api} {α β S : Type}

def bind : Prog A α → (α → Prog A β) → Prog A β
  | .ret a, f => f a
  | .call e k, f => .call e fun r => (k r).bind f

instance : Monad (Prog A) where
  pure := .ret
  bind := bind

/-- The program that makes the call `e` and returns its answer. -/
def perform (e : A.Call) : Prog A (A.Ans e) := .call e .ret

theorem pure_eq (a : α) : (pure a : Prog A α) = .ret a := rfl

theorem bind_eq (p : Prog A α) (f : α → Prog A β) : p >>= f = p.bind f := rfl

@[simp] theorem ret_bind (a : α) (f : α → Prog A β) : (ret a).bind f = f a := rfl

@[simp] theorem perform_bind (e : A.Call) (f : A.Ans e → Prog A β) :
    (perform e).bind f = .call e f := rfl

theorem bind_assoc {γ : Type} (p : Prog A α) (f : α → Prog A β) (g : β → Prog A γ) :
    (p >>= f) >>= g = p >>= fun a => f a >>= g := by
  induction p with
  | ret a => rfl
  | call e k ih => exact congrArg (Prog.call e) (funext ih)

/-- The point a run has reached when the turns `ts` have been taken: what is
left of the program, and the state. -/
def exec (env : Env A S) : Prog A α → S → List env.Turn → Prog A α × S
  | .ret a, s, _ => (.ret a, s)
  | .call e k, s, [] => (.call e k, s)
  | .call e k, s, t :: ts =>
    exec env (k (env.step e (t e) s).1) (env.step e (t e) s).2 ts

/-- Every call made in the run meets `ok`, a condition on the call, its
outcome and the state it is made in. -/
def Meets (env : Env A S) (ok : (e : A.Call) → env.Outcome e → S → Prop) :
    Prog A α → S → List env.Turn → Prop
  | .ret _, _, _ => True
  | .call _ _, _, [] => True
  | .call e k, s, t :: ts =>
    ok e (t e) s ∧ Meets env ok (k (env.step e (t e) s).1) (env.step e (t e) s).2 ts

/-- `I` holds here and at every later point of every run whose calls meet
`ok`, and such a run that returns does so with `Q`. -/
def Safe (env : Env A S) (ok : (e : A.Call) → env.Outcome e → S → Prop) (I : S → Prop)
    (Q : α → S → Prop) : Prog A α → S → Prop
  | .ret a, s => I s ∧ Q a s
  | .call e k, s => I s ∧ ∀ c, ok e c s → Safe env ok I Q (k (env.step e c s).1) (env.step e c s).2

variable {env : Env A S} {ok : (e : A.Call) → env.Outcome e → S → Prop} {I : S → Prop}
  {Q R : α → S → Prop}

/-- A safe program keeps the invariant at every point it reaches. -/
theorem Safe.exec {p : Prog A α} {s : S} {ts : List env.Turn} (h : Safe env ok I Q p s)
    (hm : Meets env ok p s ts) : I (exec env p s ts).2 := by
  induction p generalizing s ts with
  | ret a => exact h.1
  | call e k ih =>
    cases ts with
    | nil => exact h.1
    | cons t ts => exact ih _ (h.2 _ hm.1) hm.2

/-- A safe program that returns does so with its postcondition. -/
theorem Safe.post {p : Prog A α} {s s' : S} {a : α} {ts : List env.Turn}
    (h : Safe env ok I Q p s) (hm : Meets env ok p s ts)
    (hr : Prog.exec env p s ts = (.ret a, s')) : Q a s' := by
  induction p generalizing s ts with
  | ret b =>
    simp only [Prog.exec, Prod.mk.injEq, ret.injEq] at hr
    obtain ⟨rfl, rfl⟩ := hr
    exact h.2
  | call e k ih =>
    cases ts with
    | nil => simp [Prog.exec] at hr
    | cons t ts => exact ih _ (h.2 _ hm.1) hm.2 hr

theorem Safe.mono {p : Prog A α} {s : S} (h : Safe env ok I Q p s)
    (hQ : ∀ a s, I s → Q a s → R a s) : Safe env ok I R p s := by
  induction p generalizing s with
  | ret a => exact ⟨h.1, hQ a s h.1 h.2⟩
  | call e k ih => exact ⟨h.1, fun c hc => ih _ (h.2 c hc)⟩

/-- Sequencing: what follows is safe from whatever the first part leaves. -/
theorem Safe.bind {p : Prog A α} {f : α → Prog A β} {T : β → S → Prop} {s : S}
    (h : Safe env ok I Q p s) (hf : ∀ a s, I s → Q a s → Safe env ok I T (f a) s) :
    Safe env ok I T (p >>= f) s := by
  induction p generalizing s with
  | ret a => exact hf a s h.1 h.2
  | call e k ih => exact ⟨h.1, fun c hc => ih _ (h.2 c hc)⟩

/-- One call: what follows it is safe from whatever the call leaves. -/
theorem Safe.step {e : A.Call} {f : A.Ans e → Prog A β} {T : β → S → Prop} {s : S} (hI : I s)
    (h : ∀ c, ok e c s → Safe env ok I T (f (env.step e c s).1) (env.step e c s).2) :
    Safe env ok I T (perform e >>= f) s :=
  ⟨hI, h⟩

/-- A condition that always holds is met by every run. -/
theorem meets_of_forall (h : ∀ e c s, ok e c s) (p : Prog A α) (s : S) (ts : List env.Turn) :
    Meets env ok p s ts := by
  induction p generalizing s ts with
  | ret a => trivial
  | call e k ih =>
    cases ts with
    | nil => trivial
    | cons t ts => exact ⟨h _ _ _, ih _ _ _⟩

theorem meets_true (p : Prog A α) (s : S) (ts : List env.Turn) :
    Meets env (fun _ _ _ => True) p s ts :=
  meets_of_forall (fun _ _ _ => trivial) p s ts

/-- The environment that also keeps whether every call so far met `ok`. -/
@[reducible] def watch (env : Env A S) (ok : (e : A.Call) → env.Outcome e → S → Prop) :
    Env A (S × Prop) where
  Outcome := env.Outcome
  step e c sb := ((env.step e c sb.1).1, (env.step e c sb.1).2, sb.2 ∧ ok e c sb.1)

theorem exec_watch (p : Prog A α) (s : S) (b : Prop) (ts : List env.Turn) :
    exec (watch env ok) p (s, b) ts =
      ((exec env p s ts).1, (exec env p s ts).2, b ∧ Meets env ok p s ts) := by
  induction p generalizing s b ts with
  | ret a => simp [exec, Meets]
  | call e k ih =>
    cases ts with
    | nil => simp [exec, Meets]
    | cons t ts =>
      simp only [exec, Meets]
      rw [ih]
      simp only [and_assoc]

/-- A watched program that returns does so with a postcondition on whether its
calls met `ok`. -/
theorem Safe.post_watch {p : Prog A α} {s s' : S} {a : α} {ts : List env.Turn}
    {J : S × Prop → Prop} {T : α → S × Prop → Prop}
    (h : Safe (watch env ok) (fun _ _ _ => True) J T p (s, True))
    (hr : Prog.exec env p s ts = (.ret a, s')) : T a (s', Meets env ok p s ts) := by
  refine h.post (meets_true p (s, True) ts) ?_
  rw [exec_watch, hr, true_and]

/-- What the program returns, and the state it leaves, if every turn is `t`. -/
def complete (env : Env A S) (t : env.Turn) : Prog A α → S → α × S
  | .ret a, s => (a, s)
  | .call e k, s => complete env t (k (env.step e (t e) s).1) (env.step e (t e) s).2

/-- With enough turns the run is complete. -/
theorem exec_replicate (t : env.Turn) (p : Prog A α) (s : S) :
    ∃ n, ∀ m ≥ n, exec env p s (List.replicate m t) =
      (.ret (complete env t p s).1, (complete env t p s).2) := by
  induction p generalizing s with
  | ret a => exact ⟨0, fun m _ => rfl⟩
  | call e k ih =>
    obtain ⟨n, hn⟩ := ih (env.step e (t e) s).1 (env.step e (t e) s).2
    refine ⟨n + 1, fun m hm => ?_⟩
    cases m with
    | zero => omega
    | succ m => exact hn m (by omega)

theorem complete_bind (t : env.Turn) (p : Prog A α) (f : α → Prog A β) (s : S) :
    complete env t (p >>= f) s =
      complete env t (f (complete env t p s).1) (complete env t p s).2 := by
  induction p generalizing s with
  | ret a => rfl
  | call e k ih => exact ih _ _

@[simp] theorem complete_pure (t : env.Turn) (a : α) (s : S) :
    complete env t (pure a) s = (a, s) := rfl

@[simp] theorem complete_perform (t : env.Turn) (e : A.Call) (s : S) :
    complete env t (perform e) s = env.step e (t e) s := rfl

end Prog

end NovaVpn.Framework
