import Mathlib.Data.List.AList
import Mathlib.Logic.Function.Basic
import NovaVpn.Framework.Machine
import NovaVpn.Services.IpcClient
import NovaVpn.Services.IpcServer

/-!
# The client's threads

`Services/IpcClient.cpp` with all its threads: any number of them call, one
receives, any may connect and disconnect, and a thread of the service serves
each connection. The counter of the ids is atomic, the table of the pending
calls is under one mutex, the pipe and the connected flag under another, and
each call has a slot under its own; nothing orders what happens between the
sections. What the network, the clock and the handlers decide is left open.

A frame is read or written whole (`RoundTrip`), and a write that fails leaves
no whole frame. A call is numbered in the order in which the ids are drawn,
and every frame carries the number of the call it belongs to; neither is
looked at. `connect` while the thread of an earlier loop was not joined ends
the program, so no step leads on from there.
-/

namespace NovaVpn.Ipc

open NovaVpn.Framework

/-! ## Calls -/

/-- A response, and the call that the service answered with it. -/
structure Answered where
  origin : Nat
  response : Received

inductive CallPhase where
  /-- Before the call is entered into the table. -/
  | drawn
  /-- Before `frame`. -/
  | registered
  /-- Before the write. -/
  | framed
  | waiting
  /-- Before `cancelPending`, with what the call then returns. -/
  | cancelling (status : Status)
  | returned (result : Result Answered)
  /-- Left by an exception of the JSON library. -/
  | thrown

/-- A call, with its slot; the slot is set when it is ready. -/
structure PendingCall where
  request : Request
  phase : CallPhase := .drawn
  slot : Option (Result Answered) := none

/-- What `frame` comes to. -/
inductive Framing where
  | framed
  | failed (status : Status)
  | throws

inductive ReceiverPhase where
  /-- No loop was started for the last pipe. -/
  | starting
  /-- At the top of the loop. -/
  | looping
  /-- In `readFrame`, on the pipe of a connection. -/
  | reading (conn : Nat)
  /-- In `deliverResponse`, before the table is looked at. -/
  | delivering (answer : Answered)
  /-- After that, before the slot of a call is set. -/
  | completing (call : Nat) (answer : Answered)
  /-- The loop of the last pipe is over. -/
  | ended

namespace ReceiverPhase

/-- The thread that the receiver ran in is over, or was never started. -/
def idle : ReceiverPhase → Bool
  | starting | ended => true
  | _ => false

/-- There is a new pipe; a loop that runs goes on. -/
def reopened : ReceiverPhase → ReceiverPhase
  | ended => starting
  | p => p

end ReceiverPhase

/-! ## Connections -/

/-- A frame from the service. -/
inductive Frame where
  | response (origin : Nat) (response : Response)
  | event (event : Event)

def Frame.value : Frame → Json
  | .response _ r => encodeResponse r
  | .event e => encodeEvent e

/-- What a round of `receiveLoop` has to deliver: events go to the handler,
and what is no response is passed over. -/
def Frame.received (frame : Frame) : Option Answered :=
  if frame.value.get "/type" Json.asString "" = "event" then none
  else
    match decodeResponse frame.value with
    | .error _ => none
    | .ok received =>
      match frame with
      | .response origin _ => some { origin, response := received }
      | .event _ => none

theorem Frame.received_response (origin : Nat) (r : Response) :
    (Frame.response origin r).received = some { origin, response := r.received } := by
  have htype : (encodeResponse r).get "/type" Json.asString "" = "response" := by
    rw [get_type rfl, encodeResponse_type]
    rfl
  simp only [Frame.received, Frame.value, htype, if_neg (show ¬ "response" = "event" by decide),
    decodeResponse_encodeResponse]

theorem Frame.received_event (e : Event) : (Frame.event e).received = none := by
  unfold Frame.received
  split
  · rfl
  · split <;> rfl

def requestDoc (request : Request) : Doc := ⟨encodeRequest request, ordered_encodeRequest request⟩

/-- The frame of a request decodes to that request, or not at all. -/
theorem eq_of_decodeRequest {request decoded : Request}
    (h : decodeRequest (requestDoc request) = .ok decoded) : decoded = request := by
  have hr := IsRequest.of_decoded h
  have hfield : ∀ key, (requestDoc request).field key = (encodeRequest request).field key :=
    fun _ => rfl
  have hid : request.id = decoded.id := by
    have hid := hr.id
    rw [hfield, encodeRequest, field_ofFields] at hid
    exact Option.some.inj ((Json.asU64_number request.id).symm.trans hid)
  have hparams : request.params.value.isObject = true := by
    refine hr.params_object _ ?_
    rw [hfield, encodeRequest, field_ofFields]
    rfl
  have hok : decodeRequest (requestDoc request) = .ok request :=
    decodeRequest_encodeRequest (hid ▸ hr.id_ne) hparams rfl
  rw [h] at hok
  exact Except.ok.inj hok

/-- A pipe with the frames on their way, and what the service keeps of it. -/
structure Channel where
  incoming : List (Nat × Doc) := []
  outgoing : List Frame := []
  isAdmin : Bool := false
  helloDone : Bool := false

/-- What the service computed for a request it decoded. -/
structure Served where
  origin : Nat
  request : Request
  response : Response

/-- The response to a frame, with the request if it is one. -/
structure Reply where
  request : Option Request
  response : Response
  helloDone : Bool

def Reply.logged (reply : Reply) (origin : Nat) : List Served :=
  reply.request.toList.map fun request => { origin, request, response := reply.response }

/-- One round of `serveConnection`: every handler of `registerServiceApi`
answers under the id of its request. -/
def respond (handlers : List Method) (version : String) (uptimeSeconds : Int) (channel : Channel)
    (answer : Result Json) (value : Doc) : Reply :=
  match decodeRequest value with
  | .error status => { request := none, response := makeError 0 status, helloDone := channel.helloDone }
  | .ok request =>
    match dispatch handlers version uptimeSeconds channel.isAdmin channel.helloDone request with
    | .respond response helloDone => { request := some request, response, helloDone }
    | .invoke =>
      { request := some request
        response :=
          match answer with
          | .ok result => makeSuccess request.id result
          | .error status => makeError request.id status
        helloDone := channel.helloDone }

/-- The response carries the id of the request, or none if the frame is no
request. -/
theorem respond_cases (handlers : List Method) (version : String) (uptimeSeconds : Int)
    (channel : Channel) (answer : Result Json) (request : Request) {reply : Reply}
    (h : respond handlers version uptimeSeconds channel answer (requestDoc request) = reply) :
    (reply.request = none ∧ reply.response.id = 0) ∨
      (reply.request = some request ∧ reply.response.id = request.id) := by
  subst h
  unfold respond
  split
  next => exact Or.inl ⟨rfl, rfl⟩
  next decoded hdecoded =>
    cases eq_of_decodeRequest hdecoded
    refine Or.inr ?_
    split
    next response helloDone hdispatch => exact ⟨rfl, dispatch_id hdispatch⟩
    next => cases answer <;> exact ⟨rfl, rfl⟩

/-! ## The client -/

abbrev PendingTable := AList fun _ : UInt64 => Nat

structure ClientState where
  nextId : UInt64 := 1
  /-- How many calls were made. -/
  count : Nat := 0
  calls : Nat → Option PendingCall := fun _ => none
  /-- `m_pending`: the call that waits under an id. -/
  pending : PendingTable := ∅
  /-- `m_pipe`, as the number of the connection. -/
  pipe : Option Nat := none
  connected : Bool := false
  receiver : ReceiverPhase := .ended
  /-- `m_receiver` was started and not joined. -/
  joinable : Bool := false
  /-- The calls of `disconnect` before the join, and before the pending calls
  are failed. -/
  joining : Nat := 0
  failing : Nat := 0
  channels : Nat → Channel := fun _ => {}
  opened : Nat := 0
  /-- The calls in the table when the last loop ended. -/
  lost : List Nat := []
  /-- What the service computed, newest first. -/
  served : List Served := []

inductive ClientAct where
  | call (method : Method) (params : Doc)
  | register (call : Nat)
  | frame (call : Nat) (outcome : Framing)
  | write (call : Nat) (failure : Option Status)
  | finish (call : Nat)
  | timeout (call : Nat)
  | cancel (call : Nat)
  /-- The steps of `connect`. -/
  | openPipe (isAdmin : Bool)
  | startReceiver
  | markConnected (hello : Nat)
  /-- The steps of `disconnect`. -/
  | take
  | join
  | failPending
  /-- The steps of `receiveLoop`. -/
  | look
  | read
  | readFails
  | deliver
  | complete
  /-- The steps of the service. -/
  | serve (conn : Nat) (uptimeSeconds : Int) (answer : Result Json)
  | broadcast (conn : Nat) (event : Event)

/-- `emplace`, which leaves an id alone that is there. -/
def PendingTable.emplace (pending : PendingTable) (id : UInt64) (call : Nat) : PendingTable :=
  if id ∈ pending then pending else pending.insert id call

/-- A call is one of those in the table. -/
def PendingTable.holds (pending : PendingTable) (call : Nat) : Bool :=
  pending.entries.any fun e => e.2 = call

/-- `disconnect` of a call that waits. -/
def PendingCall.fail (c : PendingCall) : PendingCall :=
  { c with slot := some (.error (Err.make .cancelled "client disconnected")) }

/-- The response to the Hello of `connect` is a success and names the version
of the protocol. -/
def Received.shakesHands (r : Received) : Bool :=
  r.success && r.result.get "/protocolVersion" Json.asInt 0 = ipcProtocol

namespace ClientState

def setCall (s : ClientState) (i : Nat) (c : PendingCall) : ClientState :=
  { s with calls := Function.update s.calls i (some c) }

def setPhase (s : ClientState) (i : Nat) (c : PendingCall) (phase : CallPhase) : ClientState :=
  s.setCall i { c with phase }

def setChannel (s : ClientState) (conn : Nat) (channel : Channel) : ClientState :=
  { s with channels := Function.update s.channels conn channel }

/-- `call` up to the first section. -/
def draw (s : ClientState) (method : Method) (params : Doc) : ClientState :=
  { s with
    nextId := s.nextId + 1
    count := s.count + 1
    calls := Function.update s.calls s.count
      (some { request := { id := s.nextId, method, params } }) }

/-- A step of the thread that made a call. -/
def callStep (s : ClientState) (i : Nat) (c : PendingCall) : ClientAct → Option ClientState
  | .register _ =>
    match c.phase with
    | .drawn =>
      some ({ s with pending := s.pending.emplace c.request.id i }.setPhase i c .registered)
    | _ => none
  | .frame _ outcome =>
    match c.phase with
    | .registered =>
      some (s.setPhase i c
        (match outcome with
        | .framed => .framed
        | .failed status => .cancelling status
        | .throws => .thrown))
    | _ => none
  | .write _ failure =>
    match c.phase with
    | .framed =>
      match s.pipe with
      | none => some (s.setPhase i c (.cancelling (Err.invalidState "not connected")))
      | some conn =>
        match failure with
        | some status => some (s.setPhase i c (.cancelling status))
        | none =>
          let channel := s.channels conn
          some ((s.setChannel conn
            { channel with incoming := channel.incoming ++ [(i, requestDoc c.request)] }).setPhase i c
              .waiting)
    | _ => none
  | .finish _ =>
    match c.phase, c.slot with
    | .waiting, some result => some (s.setPhase i c (.returned result))
    | _, _ => none
  | .timeout _ =>
    match c.phase, c.slot with
    | .waiting, none =>
      some (s.setPhase i c (.cancelling (Err.make .timeout
        ("timed out waiting for a response to " ++ c.request.method.toString))))
    | _, _ => none
  | .cancel _ =>
    match c.phase with
    | .cancelling status =>
      some ({ s with pending := s.pending.erase c.request.id }.setPhase i c
        (.returned (.error status)))
    | _ => none
  | .markConnected _ =>
    match c.phase with
    | .returned (.ok answer) =>
      if c.request.method = .hello && answer.response.shakesHands then
        some { s with connected := true }
      else none
    | _ => none
  | _ => none

/-- A step of the receiver. -/
def receiverStep (s : ClientState) : ClientAct → Option ClientState
  | .look =>
    match s.receiver with
    | .looping =>
      match s.pipe with
      | none => some { s with receiver := .ended, lost := s.pending.entries.map (·.2) }
      | some conn => some { s with receiver := .reading conn }
    | _ => none
  | .read =>
    match s.receiver with
    | .reading conn =>
      match (s.channels conn).outgoing with
      | [] => none
      | frame :: rest =>
        some { s.setChannel conn { s.channels conn with outgoing := rest } with
          receiver :=
            match frame.received with
            | none => .looping
            | some answer => .delivering answer }
    | _ => none
  | .readFails =>
    match s.receiver with
    | .reading conn =>
      -- a later pipe waits for a loop of its own
      if s.pipe.all fun later => later = conn then
        some { s with receiver := .ended, lost := s.pending.entries.map (·.2) }
      else some { s with receiver := .starting }
    | _ => none
  | .deliver =>
    match s.receiver with
    | .delivering answer =>
      match s.pending.lookup answer.response.id with
      | none => some { s with receiver := .looping }
      | some i =>
        some { s with
          pending := s.pending.erase answer.response.id
          receiver := .completing i answer }
    | _ => none
  | .complete =>
    match s.receiver with
    | .completing i answer =>
      (s.calls i).map fun c =>
        { s.setCall i { c with slot := some (.ok answer) } with receiver := .looping }
    | _ => none
  | _ => none

/-- A step of `connect` or `disconnect`. -/
def connectionStep (s : ClientState) : ClientAct → Option ClientState
  | .openPipe isAdmin =>
    some { s.setChannel s.opened { isAdmin } with
      pipe := some s.opened
      opened := s.opened + 1
      receiver := s.receiver.reopened }
  | .startReceiver =>
    match s.receiver with
    | .starting =>
      if s.joinable then none
      else some { s with receiver := .looping, joinable := true, lost := [] }
    | _ => none
  | .take =>
    match s.pipe with
    | none => some s
    | some _ => some { s with pipe := none, connected := false, joining := s.joining + 1 }
  | .join =>
    if s.joining = 0 then none
    else if s.joinable && !s.receiver.idle then none
    else some { s with joinable := false, joining := s.joining - 1, failing := s.failing + 1 }
  | .failPending =>
    if s.failing = 0 then none
    else
      some { s with
        failing := s.failing - 1
        pending := ∅
        calls := fun i => (s.calls i).map fun c => if s.pending.holds i then c.fail else c }
  | _ => none

/-- A step of the service. -/
def serviceStep (handlers : List Method) (version : String) (s : ClientState) :
    ClientAct → Option ClientState
  | .serve conn uptimeSeconds answer =>
    match (s.channels conn).incoming with
    | [] => none
    | (origin, value) :: rest =>
      let channel := s.channels conn
      let reply := respond handlers version uptimeSeconds channel answer value
      some (({ s with served := reply.logged origin ++ s.served }).setChannel conn
        { channel with
          incoming := rest
          outgoing := channel.outgoing ++ [Frame.response origin reply.response]
          helloDone := reply.helloDone })
  | .broadcast conn event =>
    let channel := s.channels conn
    some (s.setChannel conn { channel with outgoing := channel.outgoing ++ [.event event] })
  | _ => none

def step (handlers : List Method) (version : String) (s : ClientState) (act : ClientAct) :
    Option ClientState :=
  match act with
  | .call method params => some (s.draw method params)
  | .register i | .frame i _ | .write i _ | .finish i | .timeout i | .cancel i | .markConnected i =>
    (s.calls i).bind fun c => s.callStep i c act
  | .openPipe _ | .startReceiver | .take | .join | .failPending => s.connectionStep act
  | .look | .read | .readFails | .deliver | .complete => s.receiverStep act
  | .serve _ _ _ | .broadcast _ _ => s.serviceStep handlers version act

/-- A step is one of a call, the receiver, `connect` and `disconnect`, or the
service. -/
theorem step_cases {handlers : List Method} {version : String} {s s' : ClientState}
    {act : ClientAct} (hs : s.step handlers version act = some s') :
    (∃ method params, act = .call method params ∧ s' = s.draw method params) ∨
      (∃ i c, s.calls i = some c ∧ s.callStep i c act = some s') ∨
      s.connectionStep act = some s' ∨ s.receiverStep act = some s' ∨
      s.serviceStep handlers version act = some s' := by
  cases act with
  | call method params =>
    cases hs
    exact Or.inl ⟨method, params, rfl, rfl⟩
  | register i | frame i outcome | write i failure | finish i | timeout i | cancel i
  | markConnected i =>
    obtain ⟨c, hc, hs⟩ := Option.bind_eq_some_iff.mp hs
    exact Or.inr (Or.inl ⟨i, c, hc, hs⟩)
  | openPipe isAdmin | startReceiver | take | join | failPending =>
    simp only [step] at hs
    exact Or.inr (Or.inr (Or.inl hs))
  | look | read | readFails | deliver | complete =>
    simp only [step] at hs
    exact Or.inr (Or.inr (Or.inr (Or.inl hs)))
  | serve conn uptimeSeconds answer | broadcast conn event =>
    simp only [step] at hs
    exact Or.inr (Or.inr (Or.inr (Or.inr hs)))

/-- Only a new call is counted. -/
theorem count_cases {handlers : List Method} {version : String} {s s' : ClientState}
    {act : ClientAct} (hs : s.step handlers version act = some s') :
    s'.count = s.count ∨
      ∃ method params, act = .call method params ∧ s'.count = s.count + 1 := by
  rcases step_cases hs with ⟨method, params, hact, rfl⟩ | ⟨i, c, hc, hs⟩ | hs | hs | hs
  · exact Or.inr ⟨method, params, hact, rfl⟩
  · refine Or.inl ?_
    cases act <;> simp only [callStep] at hs <;> grind [setPhase, setCall, setChannel]
  · refine Or.inl ?_
    cases act <;> simp only [connectionStep] at hs <;> grind [setChannel]
  · refine Or.inl ?_
    cases act <;> simp only [receiverStep] at hs <;>
      grind [setCall, setChannel, Option.map_eq_some_iff]
  · refine Or.inl ?_
    cases act <;> simp only [serviceStep] at hs <;> grind [setChannel]

theorem count_le_of_step {handlers : List Method} {version : String} {s s' : ClientState}
    {act : ClientAct} (hs : s.step handlers version act = some s') : s.count ≤ s'.count := by
  rcases count_cases hs with hcount | ⟨-, -, -, hcount⟩ <;> omega

end ClientState

end NovaVpn.Ipc
