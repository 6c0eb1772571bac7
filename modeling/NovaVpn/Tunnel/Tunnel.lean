import NovaVpn.Core.Status

/-!
# One tunnel

The class `Tunnel` of `Tunnel/TunnelManager.cpp`: the state of a tunnel, its
engine and its session, and what connecting, disconnecting, reconnecting and
the callbacks of an engine do to them. What an engine answers, and what it
calls back with from inside a call, is given to each operation.

Each operation has a lemma on the two things the manager is about: whether an
engine is attached, and whether the state is a live one.
`failed_leaves_usable` says what is left after an operation that failed.
-/

namespace NovaVpn

/-- The lifecycle of a tunnel. -/
inductive ConnectionState where
  | disconnected
  | resolving
  | connecting
  | authenticating
  | configuring
  | connected
  | reconnecting
  | disconnecting
  | faulted
  deriving DecidableEq, Repr

def isTransitional : ConnectionState → Bool
  | .resolving | .connecting | .authenticating | .configuring | .reconnecting | .disconnecting => true
  | _ => false

/-- In a transitional state or Connected. -/
def ConnectionState.live (state : ConnectionState) : Bool :=
  isTransitional state || state == .connected

/-- What a tunnel tells others, in order: its state changes and the session
hooks. -/
inductive Notice where
  | stateChanged (previous current : ConnectionState) (reason : Status) (attempt : Nat)
  | sessionUp
  | sessionDown

structure Tunnel where
  id : String
  state : ConnectionState := .disconnected
  /-- The engine attached, if there is one. -/
  engine : Option Nat := none
  /-- Whether a session is set. -/
  session : Bool := false
  /-- Newest first. -/
  notices : List Notice := []

/-- The calls of an engine that touch the state or the session. -/
inductive Callback where
  | stateChanged (state : ConnectionState) (reason : Status)
  | sessionEstablished

/-- What the registry and the new engine answer to `connect`. -/
structure EngineAnswers where
  created : Result Nat
  validated : Status := .ok
  /-- The calls made from inside `start`. -/
  callbacks : List Callback := []
  started : Status := .ok

/-- The engine is created, valid and starts. -/
structure EngineAnswers.Working (answers : EngineAnswers) : Prop where
  created : answers.created.isOk = true
  validated : answers.validated.isError = false
  started : answers.started.isError = false

namespace Tunnel

def transition (t : Tunnel) (next : ConnectionState) (reason : Status) (attempt : Nat) : Tunnel :=
  if t.state = next then t
  else { t with
    state := next
    notices := .stateChanged t.state next reason attempt :: t.notices }

def releaseSession (t : Tunnel) : Tunnel :=
  if t.session then { t with session := false, notices := .sessionDown :: t.notices } else t

def onEngineState (t : Tunnel) (state : ConnectionState) (reason : Status) : Tunnel :=
  let t := if state = .disconnected ∨ state = .faulted then t.releaseSession else t
  t.transition state reason 0

def onSessionEstablished (t : Tunnel) : Tunnel :=
  { t with session := true, notices := .sessionUp :: t.notices }

def callback (t : Tunnel) : Callback → Tunnel
  | .stateChanged state reason => t.onEngineState state reason
  | .sessionEstablished => t.onSessionEstablished

def connect (t : Tunnel) (registry : Bool) (answers : EngineAnswers) : Status × Tunnel :=
  if t.state.live then (Err.invalidState "tunnel is already connecting or connected", t)
  else if !registry then (Err.invalidState "no engine registry configured", t)
  else
    match answers.created with
    | .error status => (status.withContext ("creating engine for " ++ t.id), t)
    | .ok engine =>
      let t := { t with engine := some engine }
      if answers.validated.isError then (answers.validated.withContext "validating profile", t)
      else
        let t := t.transition .connecting .ok 1
        let t := answers.callbacks.foldl callback t
        if answers.started.isError then
          (answers.started, t.transition .faulted answers.started 1)
        else (.ok, t)

/-- `callbacks`: those made while the engine stops. -/
def disconnect (t : Tunnel) (callbacks : List Callback) : Status × Tunnel :=
  if t.state = .disconnected then (.ok, t)
  else
    let t := t.transition .disconnecting .ok 0
    let t := if t.engine.isSome then callbacks.foldl callback t else t
    let t := { t.releaseSession with engine := none }
    (.ok, t.transition .disconnected .ok 0)

def reconnect (t : Tunnel) (renegotiated : Status) : Status × Tunnel :=
  if t.engine.isNone then (Err.invalidState "tunnel is not connected", t)
  else (renegotiated, t.transition .reconnecting .ok 0)

/-! ## Engines and live states -/

/-- A live tunnel has an engine. -/
def Attached (t : Tunnel) : Prop := t.state.live = true → t.engine.isSome = true

@[simp] theorem transition_state (t : Tunnel) (next : ConnectionState) (reason : Status)
    (attempt : Nat) : (t.transition next reason attempt).state = next := by
  unfold transition
  split
  · assumption
  · rfl

@[simp] theorem transition_engine (t : Tunnel) (next : ConnectionState) (reason : Status)
    (attempt : Nat) : (t.transition next reason attempt).engine = t.engine := by
  unfold transition
  split <;> rfl

@[simp] theorem releaseSession_engine (t : Tunnel) : t.releaseSession.engine = t.engine := by
  unfold releaseSession
  split <;> rfl

@[simp] theorem onEngineState_state (t : Tunnel) (state : ConnectionState) (reason : Status) :
    (t.onEngineState state reason).state = state :=
  transition_state _ _ _ _

theorem callback_engine (t : Tunnel) (c : Callback) : (t.callback c).engine = t.engine := by
  cases c with
  | stateChanged state reason =>
    simp only [callback, onEngineState, transition_engine]
    split
    · exact releaseSession_engine t
    · rfl
  | sessionEstablished => rfl

theorem callbacks_engine (t : Tunnel) (cs : List Callback) :
    (cs.foldl callback t).engine = t.engine := by
  induction cs generalizing t with
  | nil => rfl
  | cons c cs ih => rw [List.foldl_cons, ih, callback_engine]

/-- A live state is only called back with by an engine that is attached. -/
theorem callback_attached {t : Tunnel} {c : Callback} (h : t.Attached)
    (hc : ∀ state reason, c = .stateChanged state reason → state.live = true →
      t.engine.isSome = true) : (t.callback c).Attached := by
  intro hlive
  rw [callback_engine]
  cases c with
  | stateChanged state reason =>
    rw [callback, onEngineState_state] at hlive
    exact hc state reason rfl hlive
  | sessionEstablished => exact h hlive

/-- `connect` changes nothing, or attaches the engine it created. -/
theorem connect_engine (t : Tunnel) (registry : Bool) (answers : EngineAnswers) :
    (t.connect registry answers).2 = t ∨
      ∃ engine, answers.created = .ok engine ∧
        (t.connect registry answers).2.engine = some engine := by
  unfold connect
  split
  · exact .inl rfl
  split
  · exact .inl rfl
  split
  · exact .inl rfl
  · next engine hc =>
    refine .inr ⟨engine, hc, ?_⟩
    dsimp only
    split
    · rfl
    split
    · rw [transition_engine, callbacks_engine, transition_engine]
    · rw [callbacks_engine, transition_engine]

/-- `disconnect` finds the tunnel Disconnected and leaves it as it is, or
detaches its engine. -/
theorem disconnect_engine (t : Tunnel) (callbacks : List Callback) :
    (t.disconnect callbacks).2 = t ∨
      (t.disconnect callbacks).2.engine = none ∧
        (t.disconnect callbacks).2.state = .disconnected := by
  unfold disconnect
  split
  · exact .inl rfl
  · exact .inr ⟨transition_engine _ _ _ _, transition_state _ _ _ _⟩

theorem reconnect_engine (t : Tunnel) (renegotiated : Status) :
    (t.reconnect renegotiated).2.engine = t.engine := by
  unfold reconnect
  split
  · rfl
  · exact transition_engine _ _ _ _

theorem reconnect_attached {t : Tunnel} (h : t.Attached) (renegotiated : Status) :
    (t.reconnect renegotiated).2.Attached := by
  intro hlive
  rw [reconnect_engine]
  unfold reconnect at hlive
  split at hlive
  · exact h hlive
  · next he =>
    rw [Option.isNone_iff_eq_none] at he
    exact Option.isSome_iff_ne_none.mpr he

theorem disconnect_attached {t : Tunnel} (h : t.Attached) (callbacks : List Callback) :
    (t.disconnect callbacks).2.Attached := by
  obtain heq | ⟨-, hstate⟩ := disconnect_engine t callbacks
  · rwa [heq]
  · intro hlive
    rw [hstate] at hlive
    cases hlive

theorem connect_attached {t : Tunnel} (h : t.Attached) (registry : Bool) (answers : EngineAnswers) :
    (t.connect registry answers).2.Attached := by
  obtain heq | ⟨engine, -, he⟩ := connect_engine t registry answers
  · rwa [heq]
  · intro _
    rw [he]
    rfl

/-! ## Failed operations -/

/-- Whether `connect` comes to call the engine's `start`. -/
def starts (t : Tunnel) (registry : Bool) (answers : EngineAnswers) : Bool :=
  !t.state.live && registry && answers.created.isOk && !answers.validated.isError

variable {t : Tunnel} {registry : Bool} {answers : EngineAnswers}

theorem connect_of_live (h : t.state.live = true) :
    t.connect registry answers =
      (Err.invalidState "tunnel is already connecting or connected", t) := by
  rw [connect, if_pos h]

/-- Before `start` only the engine may change, and only if it refused the
profile. -/
theorem connect_of_not_starts (h : t.starts registry answers = false) :
    (t.connect registry answers).2.state = t.state ∧
      (answers.validated.isError = false → (t.connect registry answers).2 = t) := by
  unfold connect
  split
  · exact ⟨rfl, fun _ => rfl⟩
  · next hlive =>
    split
    · exact ⟨rfl, fun _ => rfl⟩
    · next hreg =>
      split
      · exact ⟨rfl, fun _ => rfl⟩
      · next engine hc =>
        dsimp only
        split
        · next hv => exact ⟨rfl, fun hok => absurd hv (by simp [hok])⟩
        · next hv =>
          have hstarts : t.starts registry answers = registry := by
            simp [starts, hlive, hc, hv, Except.isOk, Except.toBool]
          rw [hstarts] at h
          exact absurd (by simp [h]) hreg

/-- A tunnel that is not live connects with an engine that works. -/
theorem connect_of_working (hlive : t.state.live = false) (hw : answers.Working) :
    (t.connect true answers).1 = .ok := by
  cases hc : answers.created with
  | error status =>
    have hcreated := hw.created
    rw [hc] at hcreated
    cases hcreated
  | ok engine => simp [connect, hlive, hc, hw.validated, hw.started]

/-- A failed `connect` of a tunnel that was not live leaves it so. -/
theorem connect_failed_live (hlive : t.state.live = false)
    (herr : (t.connect registry answers).1.isError = true) :
    (t.connect registry answers).2.state.live = false := by
  cases hs : t.starts registry answers with
  | false =>
    rw [(connect_of_not_starts hs).1]
    exact hlive
  | true =>
    simp only [starts, Bool.and_eq_true, Bool.not_eq_true'] at hs
    obtain ⟨⟨⟨-, hreg⟩, hcreated⟩, hvalid⟩ := hs
    cases hc : answers.created with
    | error status =>
      rw [hc] at hcreated
      cases hcreated
    | ok engine =>
      revert herr
      unfold connect
      simp only [hlive, hreg, hc, hvalid, Bool.false_eq_true, Bool.not_true, if_false]
      split
      · intro _
        rw [transition_state]
        rfl
      · exact nofun

/-- What failed operations leave behind: a refused `connect` the tunnel as it
was, its engine apart if that refused the profile; a `connect` that was tried
and failed a tunnel that another one can connect; a `reconnect` without an
engine the tunnel as it was. -/
theorem failed_leaves_usable (t : Tunnel) (registry : Bool) (answers : EngineAnswers) :
    (t.starts registry answers = false →
      (t.connect registry answers).2.state = t.state ∧
        (answers.validated.isError = false → (t.connect registry answers).2 = t)) ∧
    (t.state.live = true →
      (t.connect registry answers).1.isError = true ∧ (t.connect registry answers).2 = t) ∧
    (t.state.live = false → (t.connect registry answers).1.isError = true →
      isTransitional (t.connect registry answers).2.state = false ∧
        ∀ later : EngineAnswers, later.Working →
          ((t.connect registry answers).2.connect true later).1 = .ok) ∧
    (t.engine = none → ∀ renegotiated,
      t.reconnect renegotiated = (Err.invalidState "tunnel is not connected", t)) := by
  refine ⟨connect_of_not_starts, fun hlive => ?_, fun hlive herr => ?_, fun hengine _ => ?_⟩
  · rw [connect_of_live hlive]
    exact ⟨rfl, rfl⟩
  · have hafter := connect_failed_live hlive herr
    refine ⟨?_, fun later hw => connect_of_working hafter hw⟩
    rw [ConnectionState.live, Bool.or_eq_false_iff] at hafter
    exact hafter.1
  · rw [reconnect, hengine]
    rfl

/-- A `start` that fails, and the `connect` after it. -/
theorem failed_leaves_usable_start :
    isTransitional (connect { id := "a" } true
        { created := .ok 0, started := Err.make .handshakeFailed "no answer" }).2.state = false ∧
      (((connect { id := "a" } true
        { created := .ok 0, started := Err.make .handshakeFailed "no answer" }).2.connect true
          { created := .ok 1 }).1) = .ok :=
  have h := (failed_leaves_usable { id := "a" } true
    { created := .ok 0, started := Err.make .handshakeFailed "no answer" }).2.2.1 rfl rfl
  ⟨h.1, h.2 { created := .ok 1 } ⟨rfl, rfl, rfl⟩⟩

/-- A `connect` of a tunnel that is connecting is refused and leaves it
connecting. -/
theorem refused_stays_connecting :
    ((connect { id := "a" } true { created := .ok 0 }).2.connect true { created := .ok 1 }).1 =
        Err.invalidState "tunnel is already connecting or connected" ∧
      isTransitional ((connect { id := "a" } true { created := .ok 0 }).2.connect true
        { created := .ok 1 }).2.state = true :=
  ⟨rfl, rfl⟩

end Tunnel

end NovaVpn
