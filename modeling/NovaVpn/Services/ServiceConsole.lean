import NovaVpn.Services.ServiceHost

/-!
# The service in a console

`runAsConsole` of `Services/ServiceHost.cpp`: it installs its handler before
`onStart`, and so before there is an event to set. The handler runs on a thread of
its own for each signal, sets `consoleStopRequested`, which is not read, and asks
the body to stop.
-/

namespace NovaVpn.Service

open NovaVpn.Framework

inductive ConsolePhase where
  /-- Before `SetConsoleCtrlHandler`. -/
  | entering
  /-- In `onStart`, without a stop event. -/
  | inStart
  | eventCreated
  /-- In `run`. -/
  | running
  | inStop
  | leaving
  | ended
  deriving DecidableEq, Repr

structure Console where
  /-- `consoleStopRequested`. -/
  flagged : Bool := false
  event : Option Bool := none
  main : ConsolePhase := .entering
  /-- Handlers that have set the flag and not called `requestStop`. -/
  requesting : Nat := 0
  log : List HostEntry := []

inductive ConsoleAct where
  | install
  | createEvent (ok : Bool)
  | startReturns (ok : Bool)
  | runReturns
  | onStop
  | uninstall
  /-- A signal that asks the process to end. -/
  | signal
  | handlerRequests
  deriving DecidableEq, Repr

namespace Console

def record (s : Console) (entry : HostEntry) : Console := { s with log := s.log ++ [entry] }

def step (s : Console) : ConsoleAct → Option Console
  | .install => if s.main = .entering then some { s with main := .inStart } else none
  | .createEvent ok =>
    if s.main = .inStart then
      some (if ok then { s.record .eventCreated with event := some false, main := .eventCreated }
        else { s with main := .ended })
    else none
  | .startReturns ok =>
    match s.main with
    | .inStart => if ok then none else some { s with main := .ended }
    | .eventCreated =>
      some (if ok then { s.record .started with main := .running } else { s with main := .ended })
    | _ => none
  | .runReturns =>
    if s.main = .running ∧ s.event = some true then some { s with main := .inStop } else none
  | .onStop => if s.main = .inStop then some { s.record .onStop with main := .leaving } else none
  | .uninstall => if s.main = .leaving then some { s with main := .ended } else none
  | .signal =>
    if s.main = .entering ∨ s.main = .ended then none
    else some { s with flagged := true, requesting := s.requesting + 1 }
  | .handlerRequests =>
    if 0 < s.requesting then
      some { s.record .stopRequested with
        event := s.event.map fun _ => true
        requesting := s.requesting - 1 }
    else none

variable {s s' : Console}

/-- A request has come since there is a stop event. -/
def Heard (log : List HostEntry) : Prop :=
  ∃ earlier later, log = earlier ++ .eventCreated :: later ∧ .stopRequested ∈ later

theorem heard_concat {log : List HostEntry} {entry : HostEntry} :
    Heard (log ++ [entry]) ↔ Heard log ∨ entry = .stopRequested ∧ .eventCreated ∈ log := by
  constructor
  · rintro ⟨earlier, later, heq, hmem⟩
    rcases List.eq_nil_or_concat later with rfl | ⟨front, last, rfl⟩
    · cases hmem
    · rw [List.concat_eq_append] at heq hmem
      rw [← List.cons_append, ← List.append_assoc] at heq
      obtain ⟨hlog, hlast⟩ := List.append_inj' heq rfl
      cases hlast
      rcases List.mem_append.mp hmem with hmem | hmem
      · exact .inl ⟨earlier, front, hlog, hmem⟩
      · refine .inr ⟨(List.mem_singleton.mp hmem).symm, ?_⟩
        rw [hlog]
        exact List.mem_append_right _ List.mem_cons_self
  · rintro (⟨earlier, later, rfl, hmem⟩ | ⟨rfl, hmem⟩)
    · exact ⟨earlier, later ++ [entry], by simp, List.mem_append_left _ hmem⟩
    · obtain ⟨earlier, later, rfl⟩ := List.append_of_mem hmem
      exact ⟨earlier, later ++ [.stopRequested], by simp, List.mem_append_right _ List.mem_cons_self⟩

structure ConsoleInv (s : Console) : Prop where
  before : s.main = .entering ∨ s.main = .inStart → .eventCreated ∉ s.log
  created : .eventCreated ∈ s.log ↔ s.event ≠ none
  heard : s.event = some true ↔ Heard s.log

theorem consoleInv_initial : ConsoleInv {} where
  before _ := nofun
  created := ⟨nofun, fun h => absurd rfl h⟩
  heard := ⟨nofun, fun ⟨earlier, later, heq, _⟩ => by simp at heq⟩

/-- An entry that is neither the event nor a request. -/
theorem ConsoleInv.record (h : ConsoleInv s) {entry : HostEntry} {main : ConsolePhase}
    (hcreated : HostEntry.eventCreated ≠ entry) (hrequest : entry ≠ .stopRequested)
    (hmain : main ≠ .entering ∧ main ≠ .inStart) : ConsoleInv { s.record entry with main } where
  before hm := absurd hm (not_or.mpr hmain)
  created := (Host.mem_concat_of_ne hcreated).trans h.created
  heard := by
    show s.event = some true ↔ Heard (s.log ++ [entry])
    rw [heard_concat, or_iff_left fun hr => hrequest hr.1]
    exact h.heard

theorem ConsoleInv.moved (h : ConsoleInv s) {main : ConsolePhase}
    (hmain : main = .entering ∨ main = .inStart → s.main = .entering ∨ s.main = .inStart) :
    ConsoleInv { s with main } :=
  ⟨fun hm => h.before (hmain hm), h.created, h.heard⟩

theorem ConsoleInv.step (h : ConsoleInv s) {act : ConsoleAct} (hs : s.step act = some s') :
    ConsoleInv s' := by
  cases act with
  | install =>
    simp only [Console.step] at hs
    split at hs
    next hm =>
      cases hs
      exact h.moved fun _ => .inl hm
    next => cases hs
  | createEvent ok =>
    simp only [Console.step] at hs
    split at hs
    next hm =>
      cases ok
      · cases hs
        exact h.moved (by nofun)
      · cases hs
        have hnot := h.before (.inr hm)
        refine ⟨by nofun, iff_of_true (List.mem_append_right _ List.mem_cons_self) nofun, ?_⟩
        refine iff_of_false nofun fun hheard => ?_
        rcases heard_concat.mp hheard with ⟨earlier, later, heq, -⟩ | ⟨hne, -⟩
        · rw [heq] at hnot
          exact hnot (List.mem_append_right _ List.mem_cons_self)
        · cases hne
    next => cases hs
  | startReturns ok =>
    simp only [Console.step] at hs
    split at hs
    next => cases ok <;> cases hs; exact h.moved (by nofun)
    next =>
      cases ok <;> cases hs
      · exact h.moved (by nofun)
      · exact h.record nofun nofun ⟨nofun, nofun⟩
    next => cases hs
  | runReturns =>
    simp only [Console.step] at hs
    split at hs
    · cases hs
      exact h.moved (by nofun)
    · cases hs
  | onStop =>
    simp only [Console.step] at hs
    split at hs
    · cases hs
      exact h.record nofun nofun ⟨nofun, nofun⟩
    · cases hs
  | uninstall =>
    simp only [Console.step] at hs
    split at hs
    · cases hs
      exact h.moved (by nofun)
    · cases hs
  | signal =>
    simp only [Console.step] at hs
    split at hs
    · cases hs
    · cases hs
      exact ⟨h.before, h.created, h.heard⟩
  | handlerRequests =>
    simp only [Console.step] at hs
    split at hs
    · cases hs
      refine ⟨fun hm hmem => h.before hm ((Host.mem_concat_of_ne (by nofun)).mp hmem), ?_, ?_⟩
      · refine (Host.mem_concat_of_ne (by nofun)).trans (h.created.trans ?_)
        show s.event ≠ none ↔ s.event.map _ ≠ none
        rw [ne_eq, ne_eq, Option.map_eq_none_iff]
      · show s.event.map _ = some true ↔ Heard (s.log ++ [.stopRequested])
        rw [heard_concat, ← h.heard, h.created]
        cases hevent : s.event with
        | none => simp
        | some set => simp
    · cases hs

/-- A signal ends the run in a console exactly if it comes when there is an event to
set: `run` can return once one has come since then, and those from before are lost. -/
theorem console_stops_iff {acts : List ConsoleAct} (hr : run step ({} : Console) acts = some s)
    (hm : s.main = .running) : (s.step .runReturns).isSome = true ↔ Heard s.log := by
  have h : ConsoleInv s := run_invariant' (fun _ _ _ h hs => h.step hs) consoleInv_initial hr
  rw [← h.heard, Console.step]
  by_cases hevent : s.event = some true
  · rw [if_pos ⟨hm, hevent⟩]
    exact iff_of_true rfl hevent
  · rw [if_neg fun hc => hevent hc.2]
    exact iff_of_false nofun hevent

/-- Ctrl+C while the configuration is read: the service runs on. -/
theorem console_stop_lost : ∃ s, run step ({} : Console)
    [.install, .signal, .handlerRequests, .createEvent true, .startReturns true] = some s ∧
      s.flagged = true ∧ ((s.step .runReturns).isSome = true ↔ Heard s.log) :=
  ⟨_, rfl, rfl, @console_stops_iff _
    [.install, .signal, .handlerRequests, .createEvent true, .startReturns true] rfl rfl⟩

end Console

end NovaVpn.Service
