import Mathlib.Logic.Function.Basic
import NovaVpn.Framework.Machine

/-!
# Transactions on a shared connection

A connection holds what is committed and, while a transaction is open, the
tables it works on. Threads share it, and nothing keeps them from making their
calls in any order: each runs an operation, a check, then `BEGIN`, a list of
statements and `COMMIT`, with `ROLLBACK` after a statement that failed. A
statement outside a transaction takes effect at once. A `BEGIN` that fails is
followed by a `ROLLBACK` in the same call, whoever's transaction is open; a
`COMMIT` that fails leaves the transaction open.

`serial_of_run`: if every `BEGIN` comes while no transaction is open and no
`COMMIT` fails, what is committed is what the operations that returned ok come
to one after the other, and no transaction is open once all have returned.
-/

namespace NovaVpn.Framework

variable {O T A : Type}

structure Connection (T : Type) where
  committed : T
  working : Option T := none

namespace Connection

/-- What a statement sees. -/
def view (c : Connection T) : T := c.working.getD c.committed

/-- The effect of a statement: on the open transaction, or at once. -/
def write (c : Connection T) (t : T) : Connection T :=
  match c.working with
  | some _ => { c with working := some t }
  | none => { c with committed := t }

def rollback (c : Connection T) : Connection T := { c with working := none }

end Connection

/-- Statements one after the other, up to the first that fails. -/
def runScript : List (T → Option T) → T → Option T
  | [], t => some t
  | f :: fs, t => (f t).bind (runScript fs)

theorem runScript_append (fs gs : List (T → Option T)) (t : T) :
    runScript (fs ++ gs) t = (runScript fs t).bind (runScript gs) := by
  induction fs generalizing t with
  | nil => rfl
  | cons f fs ih =>
    simp only [List.cons_append, runScript]
    cases f t with
    | none => rfl
    | some t' => exact ih t'

/-- What runs on a connection: the operations, what each checks first and its
statements; and what it is to do to the contents of the tables. -/
structure TxnClient (O T A : Type) where
  ready : O → T → Bool
  script : O → List (T → Option T)
  contents : T → A
  apply : O → A → A
  /-- Where the statements of an operation, if all succeed, do what it is to
  do. -/
  fits : O → T → Prop
  script_apply : ∀ op t t', fits op t → runScript (script op) t = some t' →
    contents t' = apply op (contents t)

/-- Where a thread stands. -/
inductive Stage (O T : Type) where
  | idle
  | called (op : O)
  /-- Before `BEGIN`. -/
  | ready (op : O)
  /-- Past `BEGIN`, with these statements to come. -/
  | inside (op : O) (rest : List (T → Option T))
  /-- Before `ROLLBACK`. -/
  | failed

def Stage.holds : Stage O T → Bool
  | .inside _ _ | .failed => true
  | _ => false

structure SharedConnection (O T : Type) where
  conn : Connection T
  stage : Nat → Stage O T := fun _ => .idle
  /-- The operations that returned ok, newest first. -/
  done : List O := []

/-- The calls; `ok` is false if the call fails for a reason of its own. -/
inductive ConnAct (O : Type) where
  | call (thread : Nat) (op : O)
  | check (thread : Nat) (ok : Bool)
  | begin (thread : Nat) (ok : Bool)
  | exec (thread : Nat) (ok : Bool)
  | commit (thread : Nat) (ok : Bool)
  | rollback (thread : Nat)

namespace SharedConnection

def setStage (s : SharedConnection O T) (t : Nat) (p : Stage O T) : SharedConnection O T :=
  { s with stage := Function.update s.stage t p }

def step (k : TxnClient O T A) (s : SharedConnection O T) :
    ConnAct O → Option (SharedConnection O T)
  | .call t op =>
    match s.stage t with
    | .idle => some (s.setStage t (.called op))
    | _ => none
  | .check t ok =>
    match s.stage t with
    | .called op => some (s.setStage t (if ok && k.ready op s.conn.view then .ready op else .idle))
    | _ => none
  | .begin t ok =>
    match s.stage t with
    | .ready op =>
      if ok && s.conn.working.isNone then
        some ({ s with conn := { s.conn with working := some s.conn.committed } }.setStage t
          (.inside op (k.script op)))
      else some ({ s with conn := s.conn.rollback }.setStage t .idle)
    | _ => none
  | .exec t ok =>
    match s.stage t with
    | .inside op (f :: rest) =>
      match if ok then f s.conn.view else none with
      | some v => some ({ s with conn := s.conn.write v }.setStage t (.inside op rest))
      | none => some (s.setStage t .failed)
    | _ => none
  | .commit t ok =>
    match s.stage t with
    | .inside op [] =>
      match s.conn.working with
      | some w =>
        if ok then
          some ({ s with conn := { committed := w }, done := op :: s.done }.setStage t .idle)
        else some (s.setStage t .idle)
      | none => some (s.setStage t .idle)
    | _ => none
  | .rollback t =>
    match s.stage t with
    | .failed => some ({ s with conn := s.conn.rollback }.setStage t .idle)
    | _ => none

end SharedConnection

/-- Every `BEGIN` comes while no transaction is open and the statements that
follow it fit, and no `COMMIT` fails. -/
def BeginsAlone (k : TxnClient O T A) (s : SharedConnection O T) : ConnAct O → Prop
  | .begin t ok => ∀ op, s.stage t = .ready op →
    s.conn.working = none ∧ (ok = true → k.fits op s.conn.committed)
  | .commit t ok => ∀ op, s.stage t = .inside op [] → ok = true
  | _ => True

instance decidableBeginsAlone (k : TxnClient O T A) [∀ op t, Decidable (k.fits op t)]
    (s : SharedConnection O T) : ∀ act, Decidable (BeginsAlone k s act)
  | .begin t ok =>
    match hs : s.stage t with
    | .ready op =>
      decidable_of_iff (s.conn.working.isNone = true ∧ (ok = true → k.fits op s.conn.committed))
        ⟨fun h op' hop => by
          rw [hs] at hop
          cases hop
          exact ⟨Option.isNone_iff_eq_none.mp h.1, h.2⟩,
        fun h => ⟨Option.isNone_iff_eq_none.mpr (h op hs).1, (h op hs).2⟩⟩
    | .idle | .called _ | .inside _ _ | .failed => isTrue fun op hop => by rw [hs] at hop; cases hop
  | .commit t ok =>
    match hs : s.stage t with
    | .inside op [] =>
      decidable_of_iff (ok = true) ⟨fun h _ _ => h, fun h => h op hs⟩
    | .inside _ (_ :: _) | .idle | .called _ | .ready _ | .failed =>
      isTrue fun op hop => by rw [hs] at hop; cases hop
  | .call _ _ | .check _ _ | .exec _ _ | .rollback _ => isTrue trivial

structure SerialInv (k : TxnClient O T A) (start : A) (s : SharedConnection O T) : Prop where
  serial : k.contents s.conn.committed = s.done.foldr k.apply start
  only : ∀ t t', (s.stage t).holds = true → (s.stage t').holds = true → t = t'
  closed : s.conn.working = none ↔ ∀ t, (s.stage t).holds = false
  progress : ∀ t op rest, s.stage t = .inside op rest → ∃ w past, s.conn.working = some w ∧
    k.fits op s.conn.committed ∧ k.script op = past ++ rest ∧
      runScript past s.conn.committed = some w

namespace SerialInv

variable {k : TxnClient O T A} {start : A} {s s' : SharedConnection O T} {t : Nat}

/-- No thread is within a transaction beside one that is. -/
theorem others (h : SerialInv k start s) (ht : (s.stage t).holds = true) (t' : Nat) (hne : t' ≠ t) :
    (s.stage t').holds = false := by
  by_contra hholds
  exact hne (h.only t' t (eq_true_of_ne_false hholds) ht)

/-- No thread is within a transaction after the only one that was has left. -/
theorem others_closed (h : SerialInv k start s) (ht : (s.stage t).holds = true) {p : Stage O T}
    (hp : p.holds = false) : ∀ t', (Function.update s.stage t p t').holds = false := by
  rw [Function.forall_update_iff s.stage fun _ q => q.holds = false]
  exact ⟨hp, h.others ht⟩

/-- A thread that is in no transaction moves on, and enters none. -/
theorem outside (h : SerialInv k start s) (ht : (s.stage t).holds = false) {p : Stage O T}
    (hp : p.holds = false) : SerialInv k start (s.setStage t p) := by
  have hholds : ∀ t', ((s.setStage t p).stage t').holds = (s.stage t').holds := by
    show ∀ t', (Function.update s.stage t p t').holds = (s.stage t').holds
    rw [Function.forall_update_iff s.stage fun t' q => q.holds = (s.stage t').holds]
    exact ⟨hp.trans ht.symm, fun _ _ => rfl⟩
  refine ⟨h.serial, fun t₁ t₂ h₁ h₂ => ?_, ?_, fun t' op rest hstage => ?_⟩
  · rw [hholds] at h₁ h₂
    exact h.only t₁ t₂ h₁ h₂
  · simp only [hholds]
    exact h.closed
  · -- a thread that is inside is not the one that moved
    have hne : t' ≠ t := by
      rintro rfl
      have hin := hholds t'
      rw [hstage, ht] at hin
      cases hin
    replace hstage : Function.update s.stage t p t' = .inside op rest := hstage
    rw [Function.update_of_ne hne] at hstage
    exact h.progress t' op rest hstage

/-- The only thread within a transaction leaves it, and it is closed. -/
theorem leave (h : SerialInv k start s) (ht : (s.stage t).holds = true) {p : Stage O T}
    (hp : p.holds = false) (hstage : s'.stage = Function.update s.stage t p)
    (hworking : s'.conn.working = none)
    (hserial : k.contents s'.conn.committed = s'.done.foldr k.apply start) :
    SerialInv k start s' := by
  have hclosed : ∀ t', (s'.stage t').holds = false := by
    rw [hstage]
    exact h.others_closed ht hp
  refine ⟨hserial, fun t₁ t₂ h₁ _ => ?_, ⟨fun _ => hclosed, fun _ => hworking⟩,
    fun t' op rest hin => ?_⟩
  · rw [hclosed] at h₁
    cases h₁
  · have hfalse := hclosed t'
    rw [hin] at hfalse
    cases hfalse

/-- The only thread within a transaction stays there. -/
theorem within (h : SerialInv k start s) (hs : ∀ t', t' ≠ t → (s.stage t').holds = false)
    {p : Stage O T} (hp : p.holds = true) (hstage : s'.stage = Function.update s.stage t p)
    (hdone : s'.done = s.done) (hcommitted : s'.conn.committed = s.conn.committed) {w : T}
    (hworking : s'.conn.working = some w)
    (hprogress : ∀ op rest, p = .inside op rest → k.fits op s.conn.committed ∧
      ∃ past, k.script op = past ++ rest ∧ runScript past s.conn.committed = some w) :
    SerialInv k start s' := by
  have hself : s'.stage t = p := by rw [hstage, Function.update_self]
  have hother : ∀ t', t' ≠ t → (s'.stage t').holds = false := by
    intro t' hne
    rw [hstage, Function.update_of_ne hne]
    exact hs t' hne
  have honly : ∀ t', (s'.stage t').holds = true → t' = t := by
    intro t' ht'
    by_contra hne
    rw [hother t' hne] at ht'
    cases ht'
  refine ⟨?_, fun t₁ t₂ h₁ h₂ => (honly t₁ h₁).trans (honly t₂ h₂).symm, ⟨fun hn => ?_, fun hn => ?_⟩,
    fun t' op rest hin => ?_⟩
  · rw [hcommitted, hdone]
    exact h.serial
  · rw [hworking] at hn
    cases hn
  · have hfalse := hn t
    rw [hself, hp] at hfalse
    cases hfalse
  · have heq : t' = t := honly t' (by rw [hin]; rfl)
    subst heq
    rw [hself] at hin
    obtain ⟨hfits, past, hscript, hrun⟩ := hprogress op rest hin
    exact ⟨w, past, hworking, by rwa [hcommitted], hscript, by rwa [hcommitted]⟩

theorem begin_alone (h : SerialInv k start s) {op : O} (hnone : s.conn.working = none)
    (hfits : k.fits op s.conn.committed) :
    SerialInv k start ({ s with conn := { s.conn with working := some s.conn.committed } }.setStage
      t (.inside op (k.script op))) := by
  have hclosed := h.closed.mp hnone
  refine h.within (fun t' _ => hclosed t') rfl rfl rfl rfl rfl fun op' rest hp => ?_
  cases hp
  exact ⟨hfits, [], rfl, rfl⟩

theorem exec_ok (h : SerialInv k start s) {op : O} {f : T → Option T} {rest : List (T → Option T)}
    {v : T} (hin : s.stage t = .inside op (f :: rest)) (hv : f s.conn.view = some v) :
    SerialInv k start ({ s with conn := s.conn.write v }.setStage t (.inside op rest)) := by
  obtain ⟨w, past, hworking, hfits, hscript, hrun⟩ := h.progress t op (f :: rest) hin
  have hview : s.conn.view = w := by rw [Connection.view, hworking, Option.getD_some]
  have hwrite : s.conn.write v = { s.conn with working := some v } := by
    rw [Connection.write, hworking]
  rw [hview] at hv
  rw [hwrite]
  refine h.within (h.others (by rw [hin]; rfl)) rfl rfl rfl rfl rfl fun op' rest' hp => ?_
  cases hp
  refine ⟨hfits, past ++ [f], by rw [hscript, List.append_assoc]; rfl, ?_⟩
  rw [runScript_append, hrun, Option.bind_some, runScript, hv]
  rfl

theorem exec_failed (h : SerialInv k start s) {op : O} {rest : List (T → Option T)}
    (hin : s.stage t = .inside op rest) : SerialInv k start (s.setStage t .failed) := by
  obtain ⟨w, -, hworking, -⟩ := h.progress t op rest hin
  refine h.within (h.others (by rw [hin]; rfl)) rfl rfl rfl rfl hworking fun _ _ hp => ?_
  cases hp

theorem commit_ok (h : SerialInv k start s) {op : O} {w : T} (hin : s.stage t = .inside op [])
    (hworking : s.conn.working = some w) :
    SerialInv k start ({ s with conn := { committed := w }, done := op :: s.done }.setStage t
      .idle) := by
  obtain ⟨w', past, hworking', hfits, hscript, hrun⟩ := h.progress t op [] hin
  rw [hworking] at hworking'
  cases hworking'
  rw [List.append_nil] at hscript
  rw [← hscript] at hrun
  refine h.leave (by rw [hin]; rfl) rfl rfl rfl ?_
  show k.contents w = k.apply op (s.done.foldr k.apply start)
  rw [k.script_apply op _ w hfits hrun, h.serial]

theorem step (h : SerialInv k start s) {act : ConnAct O} (hok : BeginsAlone k s act)
    (hs : s.step k act = some s') : SerialInv k start s' := by
  cases act with
  | call t op =>
    simp only [SharedConnection.step] at hs
    split at hs
    next hstage =>
      cases hs
      exact h.outside (by rw [hstage]; rfl) rfl
    next => cases hs
  | check t ok =>
    simp only [SharedConnection.step] at hs
    split at hs
    next op hstage =>
      cases hs
      refine h.outside (by rw [hstage]; rfl) ?_
      split <;> rfl
    next => cases hs
  | «begin» t ok =>
    simp only [SharedConnection.step] at hs
    split at hs
    next op hstage =>
      obtain ⟨hnone, hfits⟩ := hok op hstage
      split at hs
      next hopen =>
        rw [Bool.and_eq_true] at hopen
        cases hs
        exact h.begin_alone hnone (hfits hopen.1)
      next =>
        -- nothing is open, so the ROLLBACK of the failed BEGIN changes nothing
        have hconn : s.conn.rollback = s.conn := by
          rw [Connection.rollback, ← hnone]
        rw [hconn] at hs
        cases hs
        exact h.outside (by rw [hstage]; rfl) rfl
    next => cases hs
  | exec t ok =>
    simp only [SharedConnection.step] at hs
    split at hs
    next op f rest hstage =>
      split at hs
      next v hv =>
        cases hs
        split at hv
        · exact h.exec_ok hstage hv
        · cases hv
      next =>
        cases hs
        exact h.exec_failed hstage
    next => cases hs
  | commit t ok =>
    simp only [SharedConnection.step] at hs
    split at hs
    next op hstage =>
      split at hs
      next w hworking =>
        rw [if_pos (hok op hstage)] at hs
        cases hs
        exact h.commit_ok hstage hworking
      next hnone =>
        have hfalse := h.closed.mp hnone t
        rw [hstage] at hfalse
        cases hfalse
    next => cases hs
  | rollback t =>
    simp only [SharedConnection.step] at hs
    split at hs
    next hstage =>
      cases hs
      exact h.leave (by rw [hstage]; rfl) rfl rfl rfl h.serial
    next => cases hs

end SerialInv

variable {k : TxnClient O T A}

/-- What the operations that returned ok come to, whatever the order of the
calls. -/
theorem serial_of_run (t : T) {acts : List (ConnAct O)} {s' : SharedConnection O T}
    (hok : RunMeets (SharedConnection.step k) (BeginsAlone k) { conn := { committed := t } } acts)
    (hr : run (SharedConnection.step k) { conn := { committed := t } } acts = some s') :
    k.contents s'.conn.committed = s'.done.foldr k.apply (k.contents t) ∧
      ((∀ i, s'.stage i = .idle) → s'.conn.working = none) := by
  have hinit : SerialInv k (k.contents t) { conn := { committed := t } } := by
    refine ⟨rfl, fun _ _ h => ?_, ⟨fun _ _ => rfl, fun _ => rfl⟩, fun _ _ _ h => ?_⟩ <;> cases h
  have hinv := run_invariant (fun _ _ _ h hok hs => h.step hok hs) hinit hok hr
  refine ⟨hinv.serial, fun hidle => hinv.closed.mpr fun i => ?_⟩
  rw [hidle i]
  rfl

end NovaVpn.Framework
