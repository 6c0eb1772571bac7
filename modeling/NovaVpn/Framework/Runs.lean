import NovaVpn.Framework.Prog

/-!
# Runs to the end

A program comes to its end whatever its environment does, so what it returns is
a function of the turns (`run`), one for each call. `calls` is the calls it makes
on the way. A rule for `Safe` carries over to both, with the calls made so far
as a part of the state (`Safe.run`).
-/

namespace NovaVpn.Framework.Prog

variable {A : Api} {α S : Type}

/-- What the program returns, and the state it leaves, if turn `n` is `ts n`. -/
def run (env : Env A S) : Prog A α → S → (Nat → env.Turn) → α × S
  | .ret a, s, _ => (a, s)
  | .call e k, s, ts =>
    run env (k (env.step e (ts 0 e) s).1) (env.step e (ts 0 e) s).2 fun n => ts (n + 1)

/-- The calls of that run. -/
def calls (env : Env A S) : Prog A α → S → (Nat → env.Turn) → List A.Call
  | .ret _, _, _ => []
  | .call e k, s, ts =>
    e :: calls env (k (env.step e (ts 0 e) s).1) (env.step e (ts 0 e) s).2 fun n => ts (n + 1)

/-- Every call of that run meets `ok`. -/
def MeetsRun (env : Env A S) (ok : (e : A.Call) → env.Outcome e → S → Prop) :
    Prog A α → S → (Nat → env.Turn) → Prop
  | .ret _, _, _ => True
  | .call e k, s, ts =>
    ok e (ts 0 e) s ∧
      MeetsRun env ok (k (env.step e (ts 0 e) s).1) (env.step e (ts 0 e) s).2 fun n => ts (n + 1)

/-- The environment that also keeps the calls made so far. -/
@[reducible] def logged (env : Env A S) : Env A (S × List A.Call) where
  Outcome := env.Outcome
  step e c sl := ((env.step e c sl.1).1, (env.step e c sl.1).2, sl.2 ++ [e])

variable {env : Env A S} {ok : (e : A.Call) → env.Outcome e → S → Prop}

/-- A safe program comes to its end with its postcondition on what it returns,
the state it leaves and the calls it has made. -/
theorem Safe.run {I : S × List A.Call → Prop} {Q : α → S × List A.Call → Prop} {p : Prog A α}
    {s : S} {l : List A.Call} {ts : Nat → env.Turn}
    (h : Safe (logged env) (fun e c sl => ok e c sl.1) I Q p (s, l)) (hm : MeetsRun env ok p s ts) :
    Q (run env p s ts).1 ((run env p s ts).2, l ++ calls env p s ts) := by
  induction p generalizing s l ts with
  | ret a =>
    rw [calls, List.append_nil]
    exact h.2
  | call e k ih =>
    have hrest := ih _ (h.2 (ts 0 e) hm.1) hm.2
    rwa [List.append_assoc] at hrest

/-- Turns that always meet the condition. -/
theorem meetsRun_of_turns {ts : Nat → env.Turn} (h : ∀ n e s, ok e (ts n e) s) (p : Prog A α)
    (s : S) : MeetsRun env ok p s ts := by
  induction p generalizing s ts with
  | ret a => trivial
  | call e k ih => exact ⟨h 0 e s, ih _ (fun n => h (n + 1)) _⟩

end NovaVpn.Framework.Prog
