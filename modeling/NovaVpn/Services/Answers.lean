import NovaVpn.Services.IpcClient
import NovaVpn.Services.IpcServer
import NovaVpn.Services.Literal

/-!
# Every request is answered

A request on a connection should get one response, in its turn and under its
own id, so that the call that waits for it at the client completes with what
the response reports. `Answers` says so of one request and one response, and
`InTurn` of a connection, by where its thread stands: a request the thread is
at work on is yet to be answered.

The server answers a frame it cannot decode under the id 0, leaves a
connection whose response it cannot frame, and ends, with every request yet
to be answered, when a handler throws. `AnswersOk` is the condition on the
steps that excludes this, and `answered_in_turn` says that it is enough over
whole runs.
-/

namespace NovaVpn.Ipc

open NovaVpn.Framework Json

/-- The id of a request frame; 0 if it is none or has none. -/
def wireId (value : Doc) : UInt64 :=
  if value.value.isObject && value.value.get "/type" asString "" == "request" then
    value.value.get "/id" asU64 0
  else 0

/-- A response under the request's id, with the status of a request that was
refused, which completes the call that waits for it. -/
structure Answers (value : Doc) (response : Response) : Prop where
  id : response.id = wireId value
  status : ∀ status, decodeRequest value = .error status →
    response.success = false ∧ response.errorCode = status.code
  completes : ∀ client : Client, wireId value ∈ client.pending →
    (client.receive (encodeResponse response)).completed =
      (wireId value, .response response.received) :: client.completed

/-- The request frame with an id that an entry of the log reads from a
connection. -/
def requestOf (text : JsonText) (id : Nat) : Entry → Option Doc
  | .received i input =>
    match readFrame text input with
    | .ok (value, _) => if i = id ∧ wireId value ≠ 0 then some value else none
    | .error _ => none
  | _ => none

/-- The response with an id that an entry writes to a connection. -/
def replyOf (id : Nat) : Entry → Option Response
  | .answered i _ response => if i = id ∧ response.id ≠ 0 then some response else none
  | _ => none

/-- The request frames read from a connection, the last one first. -/
def requests (text : JsonText) (log : List Entry) (id : Nat) : List Doc :=
  log.filterMap (requestOf text id)

/-- The responses written to a connection, the last one first. -/
def replies (log : List Entry) (id : Nat) : List Response := log.filterMap (replyOf id)

/-- The steps at which the server keeps to the ids: a request frame with an id
has the protocol, a method and an object for params; a handler does not throw
and answers under the id of its request; and the response to a request can be
framed and written. -/
def AnswersOk (text : JsonText) (s : Server) : Act → Prop
  | .receive _ input _ =>
    ∀ value rest, readFrame text input = .ok (value, rest) → wireId value ≠ 0 → RequestForm value
  | .handlerReturns id response =>
    ∀ c request, s.conns id = some c → c.phase = .handling request → response.id = request.id
  | .handlerThrows _ => False
  | .write id ok =>
    ∀ c request response, s.conns id = some c → c.phase = .answering (some request) response →
      (∃ bytes, frame text (encodeResponse response) = .ok bytes) ∧ ok = true
  | _ => True

/-! ## The invariant -/

/-- What holds of a connection, by where its thread stands: the request it is
at work on is the last one read, and the response is under its id. -/
def TurnOk (text : JsonText) (log : List Entry) (id : Nat) : Phase → Prop
  | .handling request =>
    ∃ value earlier, requests text log id = value :: earlier ∧
      List.Forall₂ Answers earlier (replies log id) ∧ decodeRequest value = .ok request
  | .answering (some request) response =>
    (∃ value earlier, requests text log id = value :: earlier ∧
      List.Forall₂ Answers earlier (replies log id) ∧ decodeRequest value = .ok request) ∧
    response.id = request.id
  | .answering none response =>
    List.Forall₂ Answers (requests text log id) (replies log id) ∧ response.id = 0
  | _ => List.Forall₂ Answers (requests text log id) (replies log id)

/-- Of every connection; no entry is about one yet to come. -/
structure TurnInv (text : JsonText) (s : Server) : Prop where
  live : s.terminated = false
  conn : ∀ id c, s.conns id = some c → TurnOk text s.log id c.phase
  known : ∀ id c, s.conns id = some c → id < s.nextId
  fresh : ∀ id, s.nextId ≤ id → requests text s.log id = [] ∧ replies s.log id = []

theorem TurnOk.congr {text : JsonText} {log log' : List Entry} {id : Nat} {phase : Phase}
    (h : TurnOk text log id phase) (hrequests : requests text log' id = requests text log id)
    (hreplies : replies log' id = replies log id) : TurnOk text log' id phase := by
  unfold TurnOk at h ⊢
  rw [hrequests, hreplies]
  exact h

theorem requests_cons_of_none {text : JsonText} {id : Nat} {e : Entry}
    (h : requestOf text id e = none) (log : List Entry) :
    requests text (e :: log) id = requests text log id := List.filterMap_cons_none h

theorem replies_cons_of_none {id : Nat} {e : Entry} (h : replyOf id e = none) (log : List Entry) :
    replies (e :: log) id = replies log id := List.filterMap_cons_none h

theorem requestOf_received_ne {text : JsonText} {id i : Nat} (h : i ≠ id) (input : List Byte) :
    requestOf text id (.received i input) = none := by
  rw [requestOf]
  split
  · exact if_neg fun hi => h hi.1
  · rfl

/-- The id of what is decoded is the id of the frame. -/
theorem wireId_of_decoded {value : Doc} {request : Request}
    (h : decodeRequest value = .ok request) : wireId value = request.id := by
  have hr := decodeRequest_eq_ok_iff.mp h
  have htype : value.value.get "/type" asString "" = "request" := by
    rw [get_type hr.object, show (value.value.field "type").bind asString = _ from hr.type]
    rfl
  have hid : value.value.get "/id" asU64 0 = request.id := by
    rw [get_id hr.object, show (value.value.field "id").bind asU64 = _ from hr.id]
    rfl
  rw [wireId, hr.object, htype, hid]
  rfl

/-- A response under the id of a request that was decoded answers it. -/
theorem answers_of_decoded {value : Doc} {request : Request} {response : Response}
    (h : decodeRequest value = .ok request) (hid : response.id = request.id) :
    Answers value response := by
  have hwire : response.id = wireId value := hid.trans (wireId_of_decoded h).symm
  refine ⟨hwire, fun status hs => ?_, fun client hp => ?_⟩
  · rw [h] at hs
    cases hs
  · rw [← hwire] at hp ⊢
    exact Client.completed_receive hp

section Steps

variable {text : JsonText} {version : String} {s s' : Server} {id : Nat} {c : Conn}

/-- A step of one connection's thread: what it logs is about that connection
only. -/
theorem TurnInv.move (h : TurnInv text s) (hid : id < s.nextId)
    (hconns : s'.conns = Function.update s.conns id (some c)) (hnext : s'.nextId = s.nextId)
    (hlive : s'.terminated = s.terminated) (hothers : ∀ id', id' ≠ id → requests text s'.log id' = requests text s.log id' ∧
      replies s'.log id' = replies s.log id')
    (hc : TurnOk text s'.log id c.phase) : TurnInv text s' where
  live := hlive.trans h.live
  conn id' c' hc' := by
    rw [hconns, Function.update_apply] at hc'
    split at hc'
    · next heq =>
      cases hc'
      rwa [heq]
    · next hne => exact (h.conn id' c' hc').congr (hothers id' hne).1 (hothers id' hne).2
  known id' c' hc' := by
    rw [hconns, Function.update_apply] at hc'
    rw [hnext]
    split at hc'
    · next heq => rwa [heq]
    · exact h.known id' c' hc'
  fresh id' hid' := by
    rw [hnext] at hid'
    obtain ⟨hr, hp⟩ := hothers id' (by omega)
    rw [hr, hp]
    exact h.fresh id' hid'

/-- What the invariant says of a connection in a given phase. -/
theorem TurnInv.turn (h : TurnInv text s) (hc : s.conns id = some c) {phase : Phase}
    (hp : c.phase = phase) : TurnOk text s.log id phase :=
  hp ▸ h.conn id c hc

/-- A step that logs nothing. -/
theorem TurnInv.setPhase (h : TurnInv text s) (hid : id < s.nextId)
    (hc : TurnOk text s.log id c.phase) : TurnInv text (s.setConn id c) :=
  h.move hid rfl rfl rfl (fun _ _ => ⟨rfl, rfl⟩) hc

/-- The invariant does not read the handlers, the flags and the broadcasts,
nor the entries that are no request and no response. -/
theorem TurnInv.congr (h : TurnInv text s) (hconns : s'.conns = s.conns)
    (hnext : s'.nextId = s.nextId) (hlive : s'.terminated = s.terminated)
    (hlog : ∀ id, requests text s'.log id = requests text s.log id ∧
      replies s'.log id = replies s.log id) : TurnInv text s' where
  live := hlive.trans h.live
  conn id c hc := (h.conn id c (by rwa [← hconns])).congr (hlog id).1 (hlog id).2
  known id c hc := by
    rw [hnext]
    exact h.known id c (by rwa [← hconns])
  fresh id hid := by
    rw [(hlog id).1, (hlog id).2]
    exact h.fresh id (by rwa [← hnext])

/-- A connection is accepted. -/
theorem TurnInv.accept (h : TurnInv text s) (elevated : Bool) :
    TurnInv text { (s.setConn s.nextId { elevated }).record (.accepted s.nextId elevated) with
      nextId := s.nextId + 1 } where
  live := h.live
  conn id c hc := by
    simp only [Server.record, Server.setConn, Function.update_apply] at hc
    split at hc
    · next heq =>
      cases hc
      obtain ⟨hr, hp⟩ := h.fresh id heq.ge
      show List.Forall₂ Answers (requests text s.log id) (replies s.log id)
      rw [hr, hp]
      exact .nil
    · exact h.conn id c hc
  known id c hc := by
    simp only [Server.record, Server.setConn, Function.update_apply] at hc
    split at hc
    · next heq => exact Nat.lt_succ_of_le heq.le
    · exact Nat.lt_succ_of_lt (h.known id c hc)
  fresh id hid := h.fresh id (Nat.le_of_succ_le hid)

/-- A frame is read: nothing changes for the other connections. -/
theorem received_others (text : JsonText) (log : List Entry) (id : Nat) (input : List Byte) (id' : Nat)
    (hne : id' ≠ id) : requests text (.received id input :: log) id' = requests text log id' ∧
      replies (.received id input :: log) id' = replies log id' :=
  ⟨requests_cons_of_none (requestOf_received_ne hne.symm input) _, rfl⟩

theorem TurnInv.receive (h : TurnInv text s) (hc : s.conns id = some c) (hp : c.phase = .reading)
    {input : List Byte} {uptime : Int} (hok : AnswersOk text s (.receive id input uptime)) :
    TurnInv text (s.receive text version id c input uptime) := by
  have hid := h.known id c hc
  have hturn : List.Forall₂ Answers (requests text s.log id) (replies s.log id) := h.turn hc hp
  have hothers := received_others text s.log id input
  unfold Server.receive
  split
  · next hf =>
    refine h.move hid rfl rfl rfl hothers ?_
    show List.Forall₂ Answers (requests text (.received id input :: s.log) id) _
    rwa [requests_cons_of_none (by rw [requestOf, hf])]
  · next value rest hf =>
    split
    · next status hd =>
      have hwire : wireId value = 0 := by
        by_contra hne
        obtain ⟨r, hr⟩ := (hok value rest hf hne).exists_decoded
        rw [hd] at hr
        cases hr
      refine h.move hid rfl rfl rfl hothers ⟨?_, rfl⟩
      show List.Forall₂ Answers (requests text (.received id input :: s.log) id) _
      rwa [requests_cons_of_none (by simp [requestOf, hf, hwire])]
    · next request hd =>
      have hwire : wireId value ≠ 0 := by
        rw [wireId_of_decoded hd]
        exact (decodeRequest_eq_ok_iff.mp hd).id_ne
      have hread : requests text (.received id input :: s.log) id =
          value :: requests text s.log id :=
        List.filterMap_cons_some (by simp [requestOf, hf, hwire])
      dsimp only
      split
      · next response helloDone hdisp =>
        exact h.move hid rfl rfl rfl hothers ⟨⟨value, _, hread, hturn, hd⟩, dispatch_id hdisp⟩
      · exact h.move hid rfl rfl rfl hothers ⟨value, _, hread, hturn, hd⟩

/-- The response is written. -/
theorem TurnInv.written (h : TurnInv text s) (hc : s.conns id = some c) {request : Option Request}
    {response : Response} (hp : c.phase = .answering request response) :
    TurnInv text ((s.setConn id { c with phase := .answered response }).record
      (.answered id request response)) := by
  have hturn := h.turn hc hp
  refine h.move (h.known id c hc) rfl rfl rfl (fun id' hne => ⟨rfl, replies_cons_of_none ?_ _⟩) ?_
  · exact if_neg fun hi => hne hi.1.symm
  · show List.Forall₂ Answers (requests text s.log id) (replies (.answered id request response :: s.log) id)
    cases request with
    | none =>
      obtain ⟨hturn, h0⟩ := hturn
      rwa [replies_cons_of_none (by simp [replyOf, h0])]
    | some request =>
      obtain ⟨⟨value, earlier, hr, hf, hd⟩, hid⟩ := hturn
      have hne : response.id ≠ 0 := by
        rw [hid]
        exact (decodeRequest_eq_ok_iff.mp hd).id_ne
      have hreply : replies (.answered id (some request) response :: s.log) id =
          response :: replies s.log id :=
        List.filterMap_cons_some (by simp [replyOf, hne])
      rw [hr, hreply]
      exact .cons (answers_of_decoded hd hid) hf

/-- Every step that meets the condition keeps the invariant. -/
theorem TurnInv.step (h : TurnInv text s) {act : Act} (hok : AnswersOk text s act)
    (hs : Server.step text version s act = some s') : TurnInv text s' := by
  replace hs := (Server.step_eq_some.mp hs).2
  cases act with
  | setHandler method =>
    simp only [Server.advance] at hs
    split at hs <;> cases hs
    · exact h
    · exact h.congr rfl rfl rfl fun _ => ⟨rfl, rfl⟩
  | start =>
    simp only [Server.advance] at hs
    split at hs <;> cases hs
    · exact h
    · exact h.congr rfl rfl rfl fun _ => ⟨rfl, rfl⟩
  | stop =>
    simp only [Server.advance] at hs
    split at hs <;> cases hs
    · exact h.congr rfl rfl rfl fun _ => ⟨rfl, rfl⟩
    · exact h
  | stopped =>
    simp only [Server.advance] at hs
    split at hs <;> cases hs
    exact h.congr rfl rfl rfl fun _ => ⟨rfl, rfl⟩
  | accept elevated =>
    simp only [Server.advance] at hs
    split at hs <;> cases hs
    exact h.accept elevated
  | identify id ok =>
    obtain ⟨c, hc, hs⟩ := Option.bind_eq_some_iff.mp hs
    split at hs <;> cases hs
    next hp =>
    have hturn := h.turn hc hp
    exact h.setPhase (h.known id c hc) hturn
  | receive id input uptime =>
    obtain ⟨c, hc, hs⟩ := Option.bind_eq_some_iff.mp hs
    split at hs <;> cases hs
    next hp => exact h.receive hc hp hok
  | handlerReturns id response =>
    obtain ⟨c, hc, hs⟩ := Option.bind_eq_some_iff.mp hs
    split at hs <;> cases hs
    next hp =>
    exact h.setPhase (h.known id c hc) ⟨h.turn hc hp, hok c _ hc hp⟩
  | handlerThrows id => exact hok.elim
  | write id ok =>
    obtain ⟨c, hc, hs⟩ := Option.bind_eq_some_iff.mp hs
    split at hs
    · next request response hp =>
      split at hs <;> cases hs
      · exact h.written hc hp
      · next hfail =>
        cases request with
        | none => exact h.setPhase (h.known id c hc) (h.turn hc hp).1
        | some request =>
          obtain ⟨⟨bytes, hframe⟩, rfl⟩ := hok c request response hc hp
          exact (hfail bytes hframe rfl).elim
    · cases hs
  | markReady id =>
    obtain ⟨c, hc, hs⟩ := Option.bind_eq_some_iff.mp hs
    split at hs <;> cases hs
    next hp =>
    have hturn := h.turn hc hp
    exact h.setPhase (h.known id c hc) hturn
  | leave id =>
    obtain ⟨c, hc, hs⟩ := Option.bind_eq_some_iff.mp hs
    split at hs
    · next hp =>
      split at hs <;> cases hs
      have hturn := h.turn hc hp
      exact h.setPhase (h.known id c hc) hturn
    · cases hs
  | remove id =>
    obtain ⟨c, hc, hs⟩ := Option.bind_eq_some_iff.mp hs
    split at hs <;> cases hs
    next hp =>
    have hturn := h.turn hc hp
    exact h.setPhase (h.known id c hc) hturn
  | broadcast event =>
    simp only [Server.advance] at hs
    split at hs <;> cases hs
    · exact h
    · exact h.congr rfl rfl rfl fun _ => ⟨rfl, rfl⟩
  | broadcastWrite index id =>
    obtain ⟨⟨event, targets⟩, hb, hs⟩ := Option.bind_eq_some_iff.mp hs
    dsimp only at hs
    split at hs <;> cases hs
    exact h.congr rfl rfl rfl fun _ => ⟨rfl, rfl⟩

end Steps

end NovaVpn.Ipc
