import Mathlib.Logic.Function.Basic
import NovaVpn.Framework.Machine
import NovaVpn.Services.IpcProtocol

/-!
# The IPC server

`Services/IpcServer.cpp`: a listener accepts connections, one thread serves
each, and any thread may broadcast events. The server is a machine whose
events are the steps of these threads that other threads or a client can
tell apart: a frame read and dispatched, a handler's return, the write of a
response, the store of the ready flag, the snapshot of a broadcast and each
of its writes. Nothing on the thread of a connection catches what a handler
throws, so that the process ends with it. The log of a run, newest first,
lists what happened on the pipes and which handler calls were made.

`gate_holds`: in every run a handler is called only for a frame that
`decodeRequest` accepted, after a Hello answered with success on the same
connection, and with an elevated token if the method requires it; and an
event is written only to a connection whose Hello response was written
before. The invariant (`GateInv`) says of each connection, by where its
thread stands, that its hello flag is backed by the log.
-/

namespace NovaVpn.Ipc

open NovaVpn.Framework

/-! ## Dispatch -/

/-- What `dispatch` comes to: a response and the hello flag, or the call of
the method's handler. -/
inductive Dispatch where
  | respond (response : Response) (helloDone : Bool)
  | invoke

def dispatch (handlers : List Method) (serviceVersion : String) (uptimeSeconds : Int)
    (isAdmin helloDone : Bool) (request : Request) : Dispatch :=
  if !helloDone then
    if request.method ≠ .hello then
      .respond (makeError request.id (Err.make .ipcProtocol "first request must be Hello")) helloDone
    else
      .respond (makeSuccess request.id (encodeHelloResult
        { protocolVersion := ipcProtocol
          serviceVersion
          callerIsAdministrator := isAdmin
          uptimeSeconds })) true
  else if requiresAdministrator request.method && !isAdmin then
    .respond (makeError request.id (Err.make .permissionDenied
      (request.method.toString ++ " requires administrator privileges"))) helloDone
  else if request.method ∈ handlers then .invoke
  else
    .respond (makeError request.id (Err.make .notImplemented
      ("no handler for " ++ request.method.toString))) helloDone

/-- The flag is raised by a Hello alone, which is answered with success. -/
theorem dispatch_hello {handlers : List Method} {version : String} {uptime : Int}
    {isAdmin helloDone helloDone' : Bool} {request : Request} {response : Response}
    (h : dispatch handlers version uptime isAdmin helloDone request = .respond response helloDone')
    (hdone : helloDone' = true) :
    helloDone = true ∨ request.method = .hello ∧ response.success = true := by
  cases helloDone with
  | true => exact .inl rfl
  | false =>
    rw [dispatch, if_pos (by rfl)] at h
    split at h
    · cases h
      cases hdone
    · rename_i hm
      cases h
      exact .inr ⟨not_not.mp hm, rfl⟩

/-- A handler is called after the Hello, and with the rights the method
requires. -/
theorem dispatch_invoke {handlers : List Method} {version : String} {uptime : Int}
    {isAdmin helloDone : Bool} {request : Request}
    (h : dispatch handlers version uptime isAdmin helloDone request = .invoke) :
    helloDone = true ∧ (requiresAdministrator request.method = true → isAdmin = true) ∧
      request.method ∈ handlers := by
  unfold dispatch at h
  split at h
  · split at h <;> cases h
  · rename_i hd
    split at h
    · cases h
    · rename_i ha
      split at h
      · rename_i hm
        refine ⟨by simpa using hd, fun hr => ?_, hm⟩
        simpa [hr] using ha
      · cases h

theorem dispatch_id {handlers : List Method} {version : String} {uptime : Int}
    {isAdmin helloDone helloDone' : Bool} {request : Request} {response : Response}
    (h : dispatch handlers version uptime isAdmin helloDone request = .respond response helloDone') :
    response.id = request.id := by
  unfold dispatch at h
  split at h
  · split at h <;> cases h <;> rfl
  · split at h
    · cases h
      rfl
    · split at h <;> cases h
      rfl

/-! ## The server -/

/-- Where the thread of a connection stands. -/
inductive Phase where
  /-- Before the caller's token was looked at. -/
  | starting
  /-- At the top of the loop. -/
  | reading
  /-- In the handler's call. -/
  | handling (request : Request)
  /-- Before the write of a response; the request is unset if the frame was
  none. -/
  | answering (request : Option Request) (response : Response)
  /-- After the write, before the ready flag. -/
  | answered (response : Response)
  /-- Out of the loop. -/
  | leaving
  /-- Out of the table. -/
  | removed

structure Conn where
  /-- The token of the peer. -/
  elevated : Bool
  isAdmin : Bool := false
  helloDone : Bool := false
  ready : Bool := false
  phase : Phase := .starting

inductive Entry where
  | accepted (id : Nat) (elevated : Bool)
  | received (id : Nat) (input : List Byte)
  | invoked (id : Nat) (request : Request)
  | answered (id : Nat) (request : Option Request) (response : Response)
  | eventWritten (id : Nat) (event : Event)

structure Server where
  handlers : List Method := []
  running : Bool := false
  conns : Nat → Option Conn := fun _ => none
  nextId : Nat := 1
  stopping : Bool := false
  /-- The broadcasts under way, each with the connections it has still to
  write to. -/
  broadcasts : List (Event × List Nat) := []
  /-- The process has ended. -/
  terminated : Bool := false
  log : List Entry := []

/-- The steps of the server's threads, with what the outside decides of
each. A listener that saw the stop flag unset may accept after it is set;
`stopped` is the end of `stop`, after the threads were joined. -/
inductive Act where
  | setHandler (method : Method)
  | start
  | accept (elevated : Bool)
  | identify (id : Nat) (ok : Bool)
  | receive (id : Nat) (input : List Byte) (uptimeSeconds : Int)
  | handlerReturns (id : Nat) (response : Response)
  | handlerThrows (id : Nat)
  | write (id : Nat) (ok : Bool)
  | markReady (id : Nat)
  | leave (id : Nat)
  | remove (id : Nat)
  | stop
  | stopped
  | broadcast (event : Event)
  | broadcastWrite (index id : Nat)

namespace Server

def setConn (s : Server) (id : Nat) (c : Conn) : Server :=
  { s with conns := Function.update s.conns id (some c) }

def record (s : Server) (e : Entry) : Server := { s with log := e :: s.log }

/-- The connections of the table, with their ids. -/
def table (s : Server) : List (Nat × Conn) :=
  (List.range s.nextId).filterMap fun id =>
    match s.conns id with
    | some c =>
      match c.phase with
      | .removed => none
      | _ => some (id, c)
    | none => none

/-- The connections whose ready flag is set. -/
def readyIds (s : Server) : List Nat := (s.table.filter fun entry => entry.2.ready).map (·.1)

/-- One frame read from the pipe and dispatched. -/
def receive (text : JsonText) (version : String) (s : Server) (id : Nat) (c : Conn)
    (input : List Byte) (uptimeSeconds : Int) : Server :=
  let s := s.record (.received id input)
  match readFrame text input with
  | .error _ => s.setConn id { c with phase := .leaving }
  | .ok (json, _) =>
    match decodeRequest json with
    | .error status => s.setConn id { c with phase := .answering none (makeError 0 status) }
    | .ok request =>
      match dispatch s.handlers version uptimeSeconds c.isAdmin c.helloDone request with
      | .respond response helloDone =>
        s.setConn id { c with helloDone, phase := .answering (some request) response }
      | .invoke =>
        (s.record (.invoked id request)).setConn id { c with phase := .handling request }

/-- A step of the running process. -/
def advance (text : JsonText) (version : String) (s : Server) : Act → Option Server
  | .setHandler method =>
    if method ∈ s.handlers then some s else some { s with handlers := method :: s.handlers }
  | .start => if s.running then some s else some { s with running := true, stopping := false }
  | .accept elevated =>
    if !s.running then none
    else some { (s.setConn s.nextId { elevated }).record (.accepted s.nextId elevated) with
      nextId := s.nextId + 1 }
  | .identify id ok => do
    let c ← s.conns id
    match c.phase with
    | .starting => some (s.setConn id { c with isAdmin := ok && c.elevated, phase := .reading })
    | _ => none
  | .receive id input uptimeSeconds => do
    let c ← s.conns id
    match c.phase with
    | .reading => some (s.receive text version id c input uptimeSeconds)
    | _ => none
  | .handlerReturns id response => do
    let c ← s.conns id
    match c.phase with
    | .handling request => some (s.setConn id { c with phase := .answering (some request) response })
    | _ => none
  | .handlerThrows id => do
    let c ← s.conns id
    match c.phase with
    | .handling _ => some { s with terminated := true }
    | _ => none
  | .write id ok => do
    let c ← s.conns id
    match c.phase with
    | .answering request response =>
      match frame text (encodeResponse response), ok with
      | .ok _, true =>
        some ((s.setConn id { c with phase := .answered response }).record
          (.answered id request response))
      | _, _ => some (s.setConn id { c with phase := .leaving })
    | _ => none
  | .markReady id => do
    let c ← s.conns id
    match c.phase with
    | .answered response =>
      some (s.setConn id
        { c with ready := c.ready || (response.success && c.helloDone), phase := .reading })
    | _ => none
  | .leave id => do
    let c ← s.conns id
    match c.phase with
    | .reading => if s.stopping then some (s.setConn id { c with phase := .leaving }) else none
    | _ => none
  | .remove id => do
    let c ← s.conns id
    match c.phase with
    | .leaving => some (s.setConn id { c with phase := .removed })
    | _ => none
  | .stop => if s.running then some { s with stopping := true } else some s
  | .stopped =>
    if s.stopping && s.table.isEmpty then some { s with running := false } else none
  | .broadcast event =>
    match frame text (encodeEvent event) with
    | .error _ => some s
    | .ok _ => some { s with broadcasts := (event, s.readyIds) :: s.broadcasts }
  | .broadcastWrite index id => do
    let (event, targets) ← s.broadcasts[index]?
    if id ∈ targets then
      some { s.record (.eventWritten id event) with
        broadcasts := s.broadcasts.set index (event, targets.erase id) }
    else none

def step (text : JsonText) (version : String) (s : Server) (act : Act) : Option Server :=
  if s.terminated then none else s.advance text version act

theorem step_eq_some {text : JsonText} {version : String} {s s' : Server} {act : Act} :
    s.step text version act = some s' ↔
      s.terminated = false ∧ s.advance text version act = some s' := by
  cases h : s.terminated <;> simp [step, h]

end Server

/-! ## The gate -/

/-- The request of a frame that `decodeRequest` accepts. -/
def accepts (text : JsonText) (input : List Byte) : Option Request :=
  match readFrame text input with
  | .ok (json, _) => (decodeRequest json).toOption
  | .error _ => none

/-- A Hello was answered with success on this connection. -/
def HelloAnswered (log : List Entry) (id : Nat) : Prop :=
  ∃ request response, .answered id (some request) response ∈ log ∧ request.method = .hello ∧
    response.success = true

/-- What must have happened before an entry of the log. -/
def EntryOk (text : JsonText) (past : List Entry) : Entry → Prop
  | .invoked id request =>
    (∃ input rest, past = .received id input :: rest ∧ accepts text input = some request) ∧
    HelloAnswered past id ∧
    (requiresAdministrator request.method = true → .accepted id true ∈ past)
  | .eventWritten id _ => HelloAnswered past id
  | _ => True

/-- The same of every entry. -/
def LogOk (text : JsonText) : List Entry → Prop
  | [] => True
  | e :: past => EntryOk text past e ∧ LogOk text past

theorem HelloAnswered.record {log : List Entry} {id : Nat} (h : HelloAnswered log id) (e : Entry) :
    HelloAnswered (e :: log) id := by
  obtain ⟨request, response, hmem, hok⟩ := h
  exact ⟨request, response, List.mem_cons_of_mem e hmem, hok⟩

/-- The log that a raised hello flag needs, by where the thread stands: the
Hello may be the request that is about to be answered. -/
def HelloBacked (log : List Entry) (id : Nat) : Phase → Prop
  | .answering (some request) response =>
    HelloAnswered log id ∨ request.method = .hello ∧ response.success = true
  | .leaving | .removed => True
  | _ => HelloAnswered log id

structure ConnOk (log : List Entry) (id : Nat) (c : Conn) : Prop where
  token : .accepted id c.elevated ∈ log
  admin : c.isAdmin = true → c.elevated = true
  hello : c.helloDone = true → HelloBacked log id c.phase
  ready : c.ready = true → HelloAnswered log id

structure GateInv (text : JsonText) (s : Server) : Prop where
  conn : ∀ id c, s.conns id = some c → ConnOk s.log id c
  targets : ∀ b ∈ s.broadcasts, ∀ id ∈ b.2, HelloAnswered s.log id
  log : LogOk text s.log

theorem HelloBacked.record {log : List Entry} {id : Nat} {phase : Phase}
    (h : HelloBacked log id phase) (e : Entry) : HelloBacked (e :: log) id phase := by
  unfold HelloBacked at h ⊢
  split
  · exact h.imp_left fun h => h.record e
  · trivial
  · trivial
  · exact HelloAnswered.record (by simpa using h) e

theorem ConnOk.record {log : List Entry} {id : Nat} {c : Conn} (h : ConnOk log id c) (e : Entry) :
    ConnOk (e :: log) id c where
  token := List.mem_cons_of_mem e h.token
  admin := h.admin
  hello hd := (h.hello hd).record e
  ready hr := (h.ready hr).record e

section Steps

variable {text : JsonText} {version : String} {s s' : Server} {id : Nat} {c : Conn}

theorem GateInv.record (h : GateInv text s) {e : Entry} (he : EntryOk text s.log e) :
    GateInv text (s.record e) where
  conn id c hc := (h.conn id c hc).record e
  targets b hb id hid := (h.targets b hb id hid).record e
  log := ⟨he, h.log⟩

theorem GateInv.setConn (h : GateInv text s) (hc : ConnOk s.log id c) :
    GateInv text (s.setConn id c) where
  conn id' c' hc' := by
    simp only [Server.setConn, Function.update_apply] at hc'
    split at hc'
    · next heq =>
      cases hc'
      rwa [heq]
    · exact h.conn id' c' hc'
  targets := h.targets
  log := h.log

/-- The invariant does not read the handlers and the flags. -/
theorem GateInv.congr (h : GateInv text s) (hconns : s'.conns = s.conns)
    (hb : s'.broadcasts = s.broadcasts) (hlog : s'.log = s.log) : GateInv text s' where
  conn id c hc := by
    rw [hlog]
    exact h.conn id c (by rwa [← hconns])
  targets := by
    rw [hlog, hb]
    exact h.targets
  log := by
    rw [hlog]
    exact h.log

theorem ConnOk.setPhase {log : List Entry} (h : ConnOk log id c) {phase : Phase}
    (hp : c.helloDone = true → HelloBacked log id phase) :
    ConnOk log id { c with phase } where
  token := h.token
  admin := h.admin
  hello := hp
  ready := h.ready

/-- The hello flag of a connection, by where its thread stands. -/
theorem ConnOk.backed {log : List Entry} (h : ConnOk log id c) {phase : Phase}
    (hp : c.phase = phase) (hd : c.helloDone = true) : HelloBacked log id phase := by
  rw [← hp]
  exact h.hello hd

theorem mem_readyIds (h : id ∈ s.readyIds) : ∃ c, s.conns id = some c ∧ c.ready = true := by
  simp only [Server.readyIds, Server.table, List.mem_map, List.mem_filter,
    List.mem_filterMap] at h
  obtain ⟨⟨id', c⟩, ⟨⟨i, -, hi⟩, hr⟩, rfl⟩ := h
  split at hi
  · next c' hc =>
    split at hi
    · cases hi
    · cases hi
      exact ⟨c, hc, hr⟩
  · cases hi

theorem accepts_of_decoded {input : List Byte} {json : Doc} {rest : List Byte} {request : Request}
    (hf : readFrame text input = .ok (json, rest)) (hd : decodeRequest json = .ok request) :
    accepts text input = some request := by
  simp only [accepts, hf, hd, Except.toOption]

/-- A frame read, decoded and dispatched. -/
theorem GateInv.receive (h : GateInv text s) (hc : ConnOk s.log id c) (hp : c.phase = .reading)
    (input : List Byte) (uptime : Int) :
    GateInv text (s.receive text version id c input uptime) := by
  have hbacked : c.helloDone = true → HelloAnswered s.log id := hc.backed hp
  have hr : GateInv text (s.record (.received id input)) := h.record trivial
  have hcr : ConnOk (s.record (.received id input)).log id c := hc.record _
  unfold Server.receive
  split
  · exact hr.setConn (hcr.setPhase fun _ => trivial)
  · next json rest hf =>
    split
    · exact hr.setConn (hcr.setPhase fun hd => (hbacked hd).record _)
    · next request hreq =>
      dsimp only
      split
      · next response helloDone hdisp =>
        refine hr.setConn ⟨hcr.token, hcr.admin, fun hd => ?_, hcr.ready⟩
        obtain hd | hhello := dispatch_hello hdisp hd
        · exact .inl ((hbacked hd).record _)
        · exact .inr hhello
      · next hdisp =>
        obtain ⟨hd, hadmin, -⟩ := dispatch_invoke hdisp
        have hdone := (hbacked hd).record (.received id input)
        have hentry : EntryOk text (s.record (.received id input)).log (.invoked id request) := by
          refine ⟨⟨input, s.log, rfl, accepts_of_decoded hf hreq⟩, hdone, fun hm => ?_⟩
          have htoken := hcr.token
          rwa [hc.admin (hadmin hm)] at htoken
        exact (hr.record hentry).setConn ((hcr.record _).setPhase fun _ => hdone.record _)

/-- A response written. -/
theorem GateInv.answered (h : GateInv text s) (hc : ConnOk s.log id c) {request : Option Request}
    {response : Response} (hp : c.phase = .answering request response) :
    GateInv text ((s.setConn id { c with phase := .answered response }).record
      (.answered id request response)) := by
  have hr : GateInv text (s.record (.answered id request response)) := h.record trivial
  have hbacked : c.helloDone = true → HelloAnswered (.answered id request response :: s.log) id := by
    intro hd
    have hh := hc.backed hp hd
    cases request with
    | none => exact HelloAnswered.record hh _
    | some request =>
      obtain hh | ⟨hm, hs⟩ := hh
      · exact hh.record _
      · exact ⟨request, response, List.mem_cons_self, hm, hs⟩
  have hconn : ConnOk (s.record (.answered id request response)).log id
      { c with phase := .answered response } := (hc.record _).setPhase hbacked
  exact (hr.setConn hconn).congr rfl rfl rfl

theorem GateInv.markReady (h : GateInv text s) (hc : ConnOk s.log id c) {response : Response}
    (hp : c.phase = .answered response) :
    GateInv text (s.setConn id
      { c with ready := c.ready || (response.success && c.helloDone), phase := .reading }) := by
  have hbacked : c.helloDone = true → HelloAnswered s.log id := hc.backed hp
  refine h.setConn ⟨hc.token, hc.admin, hbacked, fun hr => ?_⟩
  rw [Bool.or_eq_true, Bool.and_eq_true] at hr
  obtain hr | ⟨-, hd⟩ := hr
  · exact hc.ready hr
  · exact hbacked hd

theorem GateInv.broadcastWrite (h : GateInv text s) {index : Nat} {event : Event}
    {targets : List Nat} (hb : s.broadcasts[index]? = some (event, targets)) (hid : id ∈ targets) :
    GateInv text { s.record (.eventWritten id event) with
      broadcasts := s.broadcasts.set index (event, targets.erase id) } := by
  have hmem : (event, targets) ∈ s.broadcasts := List.mem_of_getElem? hb
  have hr : GateInv text (s.record (.eventWritten id event)) :=
    h.record (h.targets _ hmem id hid)
  refine ⟨hr.conn, fun b hb' id' hid' => ?_, hr.log⟩
  obtain hb' | rfl := List.mem_or_eq_of_mem_set hb'
  · exact hr.targets b hb' id' hid'
  · exact hr.targets _ hmem id' (List.mem_of_mem_erase hid')

theorem GateInv.broadcast (h : GateInv text s) (event : Event) :
    GateInv text { s with broadcasts := (event, s.readyIds) :: s.broadcasts } := by
  refine ⟨h.conn, fun b hb id hid => ?_, h.log⟩
  obtain rfl | hb := List.mem_cons.mp hb
  · obtain ⟨c, hc, hr⟩ := mem_readyIds hid
    exact (h.conn id c hc).ready hr
  · exact h.targets b hb id hid

/-- Every step of every thread keeps the invariant. -/
theorem GateInv.step (h : GateInv text s) {act : Act}
    (hs : Server.step text version s act = some s') : GateInv text s' := by
  replace hs := (Server.step_eq_some.mp hs).2
  cases act with
  | setHandler method =>
    simp only [Server.advance] at hs
    split at hs <;> cases hs
    · exact h
    · exact h.congr rfl rfl rfl
  | start =>
    simp only [Server.advance] at hs
    split at hs <;> cases hs
    · exact h
    · exact h.congr rfl rfl rfl
  | stop =>
    simp only [Server.advance] at hs
    split at hs <;> cases hs
    · exact h.congr rfl rfl rfl
    · exact h
  | stopped =>
    simp only [Server.advance] at hs
    split at hs <;> cases hs
    exact h.congr rfl rfl rfl
  | accept elevated =>
    simp only [Server.advance] at hs
    split at hs <;> cases hs
    have hr : GateInv text (s.record (.accepted s.nextId elevated)) := h.record trivial
    have hc : ConnOk (s.record (.accepted s.nextId elevated)).log s.nextId { elevated } :=
      ⟨List.mem_cons_self, nofun, nofun, nofun⟩
    exact (hr.setConn hc).congr rfl rfl rfl
  | identify id ok =>
    obtain ⟨c, hc, hs⟩ := Option.bind_eq_some_iff.mp hs
    have hok := h.conn id c hc
    split at hs <;> cases hs
    next hp =>
    have hbacked : c.helloDone = true → HelloAnswered s.log id := hok.backed hp
    refine h.setConn ⟨hok.token, fun ha => ?_, hbacked, hok.ready⟩
    exact (Bool.and_eq_true_iff.mp ha).2
  | receive id input uptime =>
    obtain ⟨c, hc, hs⟩ := Option.bind_eq_some_iff.mp hs
    split at hs <;> cases hs
    next hp => exact h.receive (h.conn id c hc) hp input uptime
  | handlerReturns id response =>
    obtain ⟨c, hc, hs⟩ := Option.bind_eq_some_iff.mp hs
    have hok := h.conn id c hc
    split at hs <;> cases hs
    next hp =>
    exact h.setConn (hok.setPhase fun hd => .inl (hok.backed hp hd))
  | handlerThrows id =>
    obtain ⟨c, hc, hs⟩ := Option.bind_eq_some_iff.mp hs
    split at hs <;> cases hs
    exact h.congr rfl rfl rfl
  | write id ok =>
    obtain ⟨c, hc, hs⟩ := Option.bind_eq_some_iff.mp hs
    have hok := h.conn id c hc
    split at hs
    · next hp =>
      split at hs <;> cases hs
      · exact h.answered hok hp
      · exact h.setConn (hok.setPhase fun _ => trivial)
    · cases hs
  | markReady id =>
    obtain ⟨c, hc, hs⟩ := Option.bind_eq_some_iff.mp hs
    split at hs <;> cases hs
    next hp => exact h.markReady (h.conn id c hc) hp
  | leave id =>
    obtain ⟨c, hc, hs⟩ := Option.bind_eq_some_iff.mp hs
    split at hs
    · split at hs <;> cases hs
      exact h.setConn ((h.conn id c hc).setPhase fun _ => trivial)
    · cases hs
  | remove id =>
    obtain ⟨c, hc, hs⟩ := Option.bind_eq_some_iff.mp hs
    split at hs <;> cases hs
    exact h.setConn ((h.conn id c hc).setPhase fun _ => trivial)
  | broadcast event =>
    simp only [Server.advance] at hs
    split at hs <;> cases hs
    · exact h
    · exact h.broadcast event
  | broadcastWrite index id =>
    obtain ⟨⟨event, targets⟩, hb, hs⟩ := Option.bind_eq_some_iff.mp hs
    dsimp only at hs
    split at hs <;> cases hs
    next hid => exact h.broadcastWrite hb hid

end Steps

/-- The gate holds in every run: of any threads, connections and frames. -/
theorem gate_holds {text : JsonText} {version : String} {acts : List Act} {s : Server}
    (hr : run (Server.step text version) {} acts = some s) : LogOk text s.log := by
  have hinit : GateInv text {} :=
    ⟨fun _ _ hc => (Option.some_ne_none _ hc.symm).elim, fun _ hb => absurd hb List.not_mem_nil,
      trivial⟩
  have hinv : GateInv text s :=
    run_invariant' (I := GateInv text) (fun _ _ _ h hs => h.step hs) hinit hr
  exact hinv.log

/-- The bytes of an ASCII text, given in pieces. -/
def ascii (text : List String) : List Byte :=
  text.flatMap fun piece => piece.toList.map fun c => BitVec.ofNat 8 c.toNat

/-- The text form of the values of a table. -/
def JsonText.ofTable (table : List (List String × Doc)) : JsonText where
  parse body :=
    match table.find? fun entry => ascii entry.1 = body with
    | some entry => .ok entry.2
    | none => .error (Err.make .parseError "malformed JSON")
  dump value := (table.find? fun entry => entry.2.value.equals value).map fun entry => ascii entry.1

def helloText : List String :=
  ["\x7b\"id\":1,\"method\":1,", "\"protocol\":1,\"type\":\"request\"\x7d"]

def policyText : List String :=
  ["\x7b\"id\":2,\"method\":401,", "\"protocol\":1,\"type\":\"request\"\x7d"]

/-- The frames of a session: a Hello, its response, a privileged request and
an event. -/
def sessionText : JsonText := .ofTable
  [(helloText, .ofFields
      [("id", .int 1), ("method", .int 1), ("protocol", .int 1), ("type", .str "request")]),
    (["\x7b\"id\":1,\"protocol\":1,", "\"result\":\x7b\"callerIsAdministrator\":true,",
        "\"protocolVersion\":1,", "\"serviceVersion\":\"1.0.0\",", "\"uptimeSeconds\":5\x7d,",
        "\"success\":true,", "\"type\":\"response\"\x7d"], .ofFields
      [("id", .int 1), ("protocol", .int 1),
        ("result", .ofFields [("callerIsAdministrator", .bool true), ("protocolVersion", .int 1),
          ("serviceVersion", .str "1.0.0"), ("uptimeSeconds", .int 5)]),
        ("success", .bool true), ("type", .str "response")]),
    (policyText, .ofFields
      [("id", .int 2), ("method", .int 401), ("protocol", .int 1), ("type", .str "request")]),
    (["\x7b\"event\":1003,", "\"eventName\":\"NetworkChanged\",", "\"id\":0,\"payload\":\x7b\x7d,",
        "\"protocol\":1,\"type\":\"event\"\x7d"], .ofFields
      [("event", .int 1003), ("eventName", .str "NetworkChanged"), ("id", .int 0),
        ("payload", .object), ("protocol", .int 1), ("type", .str "event")])]

/-- An elevated client says Hello and sets the firewall policy; an event is
broadcast while the handler runs. -/
def session : List Act :=
  [.setHandler .setFirewallPolicy, .start, .accept true, .identify 1 true,
    .receive 1 (lengthPrefix (ascii helloText).length ++ ascii helloText) 5,
    .write 1 true, .markReady 1,
    .receive 1 (lengthPrefix (ascii policyText).length ++ ascii policyText) 6,
    .broadcast { kind := .networkChanged }, .broadcastWrite 0 1]

theorem gate_holds_session : ∃ s, run (Server.step sessionText "1.0.0") {} session = some s ∧
    s.log.length = 6 ∧ LogOk sessionText s.log := by
  have h : (run (Server.step sessionText "1.0.0") {} session).map (·.log.length) = some 6 := by
    decide +kernel
  obtain ⟨s, hs, hlen⟩ := Option.map_eq_some_iff.mp h
  exact ⟨s, hs, hlen, gate_holds hs⟩

end NovaVpn.Ipc
