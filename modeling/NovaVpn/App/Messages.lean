import NovaVpn.App.Requests
import NovaVpn.Tunnel.Tunnel

/-!
# What the app makes of the service's messages

`service_messages_understood`, of the responses and of the events that the subscriptions of
`Services/ServiceApi.cpp` forward. The two sides take the same frames off a pipe
(`readFrame_eq`), so the loop of the app is about the bodies that the service's reader would
give (`receiveLoop_eq`).
-/

namespace NovaVpn.App

open NovaVpn.Framework NovaVpn.Json

/-! ## Reading frames -/

theorem readUInt32LittleEndian_eq (b0 b1 b2 b3 : Byte) :
    readUInt32LittleEndian [b0, b1, b2, b3] =
      (b0.toNat ||| b1.toNat <<< 8 ||| b2.toNat <<< 16 ||| b3.toNat <<< 24) := by
  have h0 := b0.isLt
  have h1 := b1.isLt
  have h2 := b2.isLt
  rw [Ipc.or_shiftLeft (k := 8) (by omega), Ipc.or_shiftLeft (k := 16) (by omega),
    Ipc.or_shiftLeft (k := 24) (by omega)]
  simp only [readUInt32LittleEndian, List.foldr_cons, List.foldr_nil]
  omega

/-- The two sides take the same frames off a pipe. -/
theorem readFrame_eq (text : Ipc.JsonText) (pipe : List (List Byte)) :
    (readFrame text pipe).toOption = (Ipc.readFrameFrom text pipe).toOption := by
  unfold readFrame Ipc.readFrameFrom Ipc.readExact
  cases h4 : takeExact 4 pipe with
  | none => rfl
  | some read =>
    obtain ⟨lengthBytes, pipe⟩ := read
    obtain ⟨b0, b1, b2, b3, rfl⟩ : ∃ b0 b1 b2 b3, lengthBytes = [b0, b1, b2, b3] := by
      have hlen := length_takeExact h4
      match lengthBytes, hlen with
      | [b0, b1, b2, b3], _ => exact ⟨b0, b1, b2, b3, rfl⟩
    simp only [readUInt32LittleEndian_eq, Ipc.readFrameLength, bind, Except.bind]
    generalize (b0.toNat ||| b1.toNat <<< 8 ||| b2.toNat <<< 16 ||| b3.toNat <<< 24) = length
    by_cases h0 : length = 0
    · rw [if_pos (Or.inl h0), if_pos h0]
      rfl
    by_cases hmax : length > maxFrameBytes
    · have hmax' : length > Ipc.maxFrameBytes := hmax
      rw [if_pos (Or.inr hmax), if_neg h0, if_pos hmax']
      rfl
    have hmax' : ¬ length > Ipc.maxFrameBytes := hmax
    rw [if_neg (not_or.mpr ⟨h0, hmax⟩), if_neg h0, if_neg hmax']
    simp only
    cases takeExact length pipe with
    | none => rfl
    | some read =>
      simp only
      cases text.parse read.1 <;> rfl

/-- What the loop hands on of a list of parsed bodies. -/
def hearAll : List Doc → List Heard
  | [] => []
  | value :: values =>
    match hearDoc value with
    | .error _ => []
    | .ok heard => heard.toList ++ hearAll values

theorem receiveLoop_eq (text : Ipc.JsonText) (n : Nat) (pipe : List (List Byte)) :
    receiveLoop text n pipe = hearAll (Ipc.readFrames text n pipe) := by
  induction n generalizing pipe with
  | zero => rfl
  | succ n ih =>
    have hread := readFrame_eq text pipe
    rw [receiveLoop, Ipc.readFrames]
    cases happ : readFrame text pipe with
    | error e =>
      rw [happ] at hread
      cases hservice : Ipc.readFrameFrom text pipe with
      | error status => rfl
      | ok read =>
        rw [hservice] at hread
        cases hread
    | ok read =>
      rw [happ] at hread
      cases hservice : Ipc.readFrameFrom text pipe with
      | error status =>
        rw [hservice] at hread
        cases hread
      | ok read' =>
        rw [hservice] at hread
        cases hread
        change (match hearDoc read.1 with
          | .error _ => []
          | .ok heard => heard.toList ++ receiveLoop text n read.2) = _
        rw [ih, hearAll]

/-! ## Responses and events -/

/-- `toString` of a state. -/
def stateName : ConnectionState → String
  | .disconnected => "Disconnected"
  | .resolving => "Resolving"
  | .connecting => "Connecting"
  | .authenticating => "Authenticating"
  | .configuring => "Configuring"
  | .connected => "Connected"
  | .reconnecting => "Reconnecting"
  | .disconnecting => "Disconnecting"
  | .faulted => "Faulted"

/-- `TunnelStateChanged`. -/
structure TunnelStateChanged where
  tunnelId : String
  profileId : String
  current : ConnectionState
  reason : Status := .ok
  attempt : UInt32 := 0

/-- `StatisticsTick`, with the numbers of its sample that are forwarded. -/
structure StatisticsTick where
  tunnelId : String
  bytesSent : UInt64
  bytesReceived : UInt64
  bitsPerSecondUp : Rat
  bitsPerSecondDown : Rat

/-- The subscriptions of `registerServiceApi`: what is broadcast of a state change. -/
def TunnelStateChanged.event (e : TunnelStateChanged) : Ipc.Event where
  kind := .tunnelStateChanged
  payload := Ipc.ofFields ([("tunnelId", .str e.tunnelId), ("profileId", .str e.profileId),
    ("state", .str (stateName e.current)), ("attempt", Ipc.number e.attempt.toNat)] ++
    if e.reason.isError then [("error", .str e.reason.message)] else [])

/-- What is broadcast of a tick. -/
def StatisticsTick.event (tick : StatisticsTick) : Ipc.Event where
  kind := .statisticsTick
  payload := Ipc.ofFields [("tunnelId", .str tick.tunnelId),
    ("bytesSent", Ipc.number tick.bytesSent.toNat),
    ("bytesReceived", Ipc.number tick.bytesReceived.toNat),
    ("upBps", .float tick.bitsPerSecondUp), ("downBps", .float tick.bitsPerSecondDown)]

/-- What the service sends to the app. -/
inductive Sent where
  | success (id : UInt64) (result : Doc)
  | error (id : UInt64) (status : Status)
  | tunnelState (e : TunnelStateChanged)
  | statistics (tick : StatisticsTick)

namespace Sent

def frame : Sent → Json
  | success id result => Ipc.encodeResponse (Ipc.makeSuccess id result.value)
  | error id status => Ipc.encodeResponse (Ipc.makeError id status)
  | tunnelState e => Ipc.encodeEvent e.event
  | statistics tick => Ipc.encodeEvent tick.event

end Sent

/-- What the app ends up with: the response for the call of an id, or an event. -/
inductive Understood where
  | response (id : UInt64) (response : IpcResponse)
  | tunnelState (state : TunnelState)
  | statistics (sample : StatisticsSample)

/-- The call of the id takes the response out of its frame. -/
def Heard.understood : Heard → Throws Understood
  | response id frame => (IpcResponse.fromFrame frame.value).map (.response id)
  | tunnelState state => .ok (.tunnelState state)
  | statistics sample => .ok (.statistics sample)

/-- What a message says. A result that is no object counts as the empty one. -/
def Sent.meaning : Sent → Understood
  | success id result =>
    .response id { id, success := true, result := asObject (some result.value) }
  | error id status =>
    .response id { id, success := false
                   errorCode := (Ipc.makeError id status).errorCode.name
                   errorMessage := status.message }
  | tunnelState e => .tunnelState
    { tunnelId := e.tunnelId, state := stateName e.current
      error := if e.reason.isError then some e.reason.message else none }
  | statistics tick => .statistics
    { tunnelId := tick.tunnelId, bytesSent := tick.bytesSent, bytesReceived := tick.bytesReceived
      upBps := tick.bitsPerSecondUp, downBps := tick.bitsPerSecondDown }

/-! ## What the app makes of them -/

section Members

variable {value node : Json} {key : String}

theorem member_eq (h : value.field key = some node) (hnull : node ≠ .null) :
    member value key = some node := by
  rw [member, h, Option.filter_some_pos]
  cases node <;> first | rfl | exact absurd rfl hnull

theorem member_eq_none (h : value.field key = none) : member value key = none := by
  rw [member, h]
  rfl

theorem getValue_field {α : Type} {convert : Json → Option α} {a : α}
    (h : value.field key = some node) (hnull : node ≠ .null) (ha : convert node = some a) :
    getValue convert (member value key) = .ok (some a) := by
  rw [member_eq h hnull, getValue, ha]

/-- A field that is there and of the type asked for. -/
theorem getValueOr_field {α : Type} (convert : Json → Option α) {a : α}
    (h : value.field key = some node) (hnull : node ≠ .null) (ha : convert node = some a)
    {fallback : α} : getValueOr convert fallback (member value key) = .ok a := by
  rw [getValueOr, getValue_field h hnull ha]
  rfl

theorem getString_field {s : String} (h : value.field key = some (.str s)) {fallback : String} :
    getValueOr asString fallback (member value key) = .ok s :=
  getValueOr_field asString h (by simp) rfl

theorem toUlong_number (n : UInt64) : toUlong (Ipc.number n.toNat) = some n := by
  have hn := n.toNat_lt
  have hrange : (0 : Int) ≤ n.toNat ∧ (n.toNat : Int) < 2 ^ 64 := by omega
  unfold Ipc.number toUlong
  simp only
  rw [if_pos hrange, Int.toNat_natCast, UInt64.ofNat_toNat]

theorem toInt_number {n : Nat} (h : n < 2 ^ 31) : toInt (Ipc.number n) = some (n : Int) := by
  have hrange : -2 ^ 31 ≤ (n : Int) ∧ (n : Int) < 2 ^ 31 := by omega
  unfold Ipc.number toInt
  simp only
  rw [if_pos hrange]

theorem getInt_field {n : Nat} (hn : n < 2 ^ 31) (h : value.field key = some (Ipc.number n)) :
    getValueOr toInt 0 (member value key) = .ok (n : Int) :=
  getValueOr_field toInt h (by simp [Ipc.number]) (toInt_number hn)

theorem getUlong_field {n : UInt64} (h : value.field key = some (Ipc.number n.toNat)) :
    getValueOr toUlong 0 (member value key) = .ok n :=
  getValueOr_field toUlong h (by simp [Ipc.number]) (toUlong_number n)

theorem getDouble_field {q : Rat} (h : value.field key = some (.float q)) :
    getValueOr toDouble 0 (member value key) = .ok q :=
  getValueOr_field toDouble h (by simp) rfl

theorem asObject_field {fields : List (String × Json)}
    (h : value.field key = some (.obj fields)) : asObject (member value key) = .obj fields := by
  rw [member_eq h (by simp), asObject]

end Members

section Frames

variable {event : Ipc.Event}

theorem ok_bind {α β : Type} (a : α) (f : α → Throws β) : (Except.ok a >>= f) = f a := rfl

theorem hear_of_event {frame : JsonObject}
    (h : getValueOr asString "" (member frame.value "type") = .ok "event") :
    hear frame = onEvent frame.value := by
  rw [hear, h, ok_bind, if_pos rfl]

theorem hear_of_response {frame : JsonObject} {id : UInt64}
    (h : getValueOr asString "" (member frame.value "type") = .ok "response")
    (hid : getValueOr toUlong 0 (member frame.value "id") = .ok id) :
    hear frame = .ok (some (.response id frame)) := by
  rw [hear, h, ok_bind, if_neg (by decide), if_pos rfl, hid]
  rfl

theorem field_encodeEvent (key : String) :
    (Ipc.encodeEvent event).field key =
      [("payload", event.payload), ("eventName", .str event.kind.toString),
        ("event", Ipc.number event.kind.toUInt16.toNat), ("id", .int 0),
        ("protocol", .int Ipc.ipcProtocol), ("type", .str "event")].lookup key := by
  rw [Ipc.encodeEvent, Ipc.field_ofFields]
  rfl

theorem hear_event {frame : JsonObject} (hframe : frame.value = Ipc.encodeEvent event) :
    hear frame = onEvent (Ipc.encodeEvent event) := by
  have htype : getValueOr asString "" (member frame.value "type") = .ok "event" := by
    rw [hframe]
    exact getString_field (field_encodeEvent "type")
  rw [← hframe]
  exact hear_of_event htype

theorem onEvent_tunnelState (e : TunnelStateChanged) :
    onEvent (Ipc.encodeEvent e.event) = .ok (some (.tunnelState
      { tunnelId := e.tunnelId, state := stateName e.current
        error := if e.reason.isError then some e.reason.message else none })) := by
  have hkind : getValueOr toInt 0 (member (Ipc.encodeEvent e.event) "event") =
      .ok EventKind.tunnelStateChanged :=
    getInt_field (by decide) (field_encodeEvent "event")
  have hpayload : asObject (member (Ipc.encodeEvent e.event) "payload") = e.event.payload :=
    asObject_field (field_encodeEvent "payload")
  have hfield : ∀ key, e.event.payload.field key = _ := fun key => Ipc.field_ofFields _ key
  have htunnel : getValueOr asString "" (member e.event.payload "tunnelId") = .ok e.tunnelId := by
    refine getString_field ?_
    rw [hfield]
    cases e.reason.isError <;> rfl
  have hstate : getValueOr asString "Unknown" (member e.event.payload "state") =
      .ok (stateName e.current) := by
    refine getString_field ?_
    rw [hfield]
    cases e.reason.isError <;> rfl
  have herror : getValue asString (member e.event.payload "error") =
      .ok (if e.reason.isError then some e.reason.message else none) := by
    cases he : e.reason.isError with
    | true =>
      have hmessage : e.event.payload.field "error" = some (.str e.reason.message) := by
        rw [hfield, he]
        rfl
      exact getValue_field hmessage (by simp) rfl
    | false =>
      rw [member_eq_none]
      · rfl
      · rw [hfield, he]
        rfl
  unfold onEvent
  simp only [hkind, hpayload, htunnel, hstate, herror, ok_bind, if_true]
  rfl

theorem onEvent_statistics (tick : StatisticsTick) :
    onEvent (Ipc.encodeEvent tick.event) = .ok (some (.statistics
      { tunnelId := tick.tunnelId, bytesSent := tick.bytesSent
        bytesReceived := tick.bytesReceived
        upBps := tick.bitsPerSecondUp, downBps := tick.bitsPerSecondDown })) := by
  have hkind : getValueOr toInt 0 (member (Ipc.encodeEvent tick.event) "event") =
      .ok EventKind.statisticsTick :=
    getInt_field (by decide) (field_encodeEvent "event")
  have hpayload : asObject (member (Ipc.encodeEvent tick.event) "payload") = tick.event.payload :=
    asObject_field (field_encodeEvent "payload")
  have hfield : ∀ key, tick.event.payload.field key = _ := fun key => Ipc.field_ofFields _ key
  have hne : EventKind.statisticsTick ≠ EventKind.tunnelStateChanged := by decide
  have htunnel : getValueOr asString "" (member tick.event.payload "tunnelId") = .ok tick.tunnelId :=
    getString_field (hfield "tunnelId")
  have hsent : getValueOr toUlong 0 (member tick.event.payload "bytesSent") = .ok tick.bytesSent :=
    getUlong_field (hfield "bytesSent")
  have hreceived : getValueOr toUlong 0 (member tick.event.payload "bytesReceived") =
      .ok tick.bytesReceived := getUlong_field (hfield "bytesReceived")
  have hup : getValueOr toDouble 0 (member tick.event.payload "upBps") =
      .ok tick.bitsPerSecondUp := getDouble_field (hfield "upBps")
  have hdown : getValueOr toDouble 0 (member tick.event.payload "downBps") =
      .ok tick.bitsPerSecondDown := getDouble_field (hfield "downBps")
  unfold onEvent
  simp only [hkind, hpayload, htunnel, hsent, hreceived, hup, hdown, ok_bind, if_neg hne, if_true]
  rfl

theorem field_id (r : Ipc.Response) :
    (Ipc.encodeResponse r).field "id" = some (Ipc.number r.id.toNat) := by
  rw [Ipc.encodeResponse, Ipc.field_ofFields]
  cases r.success <;> rfl

theorem hear_response {r : Ipc.Response} {frame : JsonObject}
    (hframe : frame.value = Ipc.encodeResponse r) :
    hear frame = .ok (some (.response r.id frame)) := by
  refine hear_of_response ?_ ?_
  · rw [hframe]
    exact getString_field (Ipc.encodeResponse_type r)
  · rw [hframe]
    exact getUlong_field (field_id r)

/-- A response comes out of its frame as the service put it in. -/
theorem fromFrame_encodeResponse (r : Ipc.Response) :
    IpcResponse.fromFrame (Ipc.encodeResponse r) = .ok
      { id := r.id, success := r.success
        result := if r.success then asObject (some r.result) else .object
        errorCode := if r.success then "" else r.errorCode.name
        errorMessage := if r.success then "" else r.errorMessage } := by
  have hsuccess : getValueOr asBool false (member (Ipc.encodeResponse r) "success") = .ok r.success :=
    getValueOr_field asBool (Ipc.encodeResponse_success r) (by simp) rfl
  have hid : getValueOr toUlong 0 (member (Ipc.encodeResponse r) "id") = .ok r.id :=
    getUlong_field (field_id r)
  cases hs : r.success with
  | true =>
    have herror : member (Ipc.encodeResponse r) "error" = none := by
      refine member_eq_none ?_
      rw [Ipc.encodeResponse, hs, Ipc.field_ofFields]
      rfl
    have hresult : asObject (member (Ipc.encodeResponse r) "result") = asObject (some r.result) := by
      rw [member, Ipc.encodeResponse_result hs]
      cases r.result <;> rfl
    rw [IpcResponse.fromFrame, hsuccess, hid, herror, hs, hresult]
    rfl
  | false =>
    have herror := member_eq (Ipc.encodeResponse_error hs) (by simp [Ipc.ofFields])
    have hname : (memberOf (member (Ipc.encodeResponse r) "error") "name" >>=
        getValueOr asString "") = .ok r.errorCode.name := by
      rw [herror]
      exact getString_field (Ipc.field_ofFields _ "name")
    have hmessage : (memberOf (member (Ipc.encodeResponse r) "error") "message" >>=
        getValueOr asString "") = .ok r.errorMessage := by
      rw [herror]
      exact getString_field (Ipc.field_ofFields _ "message")
    rw [IpcResponse.fromFrame, hsuccess, hid, hs]
    simp only [ok_bind, ← bind_assoc, hname, hmessage]
    rfl

end Frames

/-! ## Messages -/

/-- The fields of the payload hold numbers and texts. -/
theorem TunnelStateChanged.fields (e : TunnelStateChanged) {f : String × Json}
    (hf : f ∈ [("tunnelId", .str e.tunnelId), ("profileId", .str e.profileId),
      ("state", .str (stateName e.current)), ("attempt", Ipc.number e.attempt.toNat)] ++
      if e.reason.isError then [("error", .str e.reason.message)] else []) :
    (∃ n, f.2 = .int n) ∨ ∃ s, f.2 = .str s := by
  simp only [List.mem_append, List.mem_cons, List.not_mem_nil, or_false] at hf
  obtain (rfl | rfl | rfl | rfl) | hf := hf
  · exact .inr ⟨_, rfl⟩
  · exact .inr ⟨_, rfl⟩
  · exact .inr ⟨_, rfl⟩
  · exact .inl ⟨_, rfl⟩
  · split at hf
    · obtain rfl := List.mem_singleton.mp hf
      exact .inr ⟨_, rfl⟩
    · cases hf

theorem TunnelStateChanged.ordered_payload (e : TunnelStateChanged) : Ordered e.event.payload := by
  refine Ipc.ordered_ofFields fun f hf => ?_
  rcases e.fields hf with ⟨n, h⟩ | ⟨s, h⟩
  · exact h ▸ .int n
  · exact h ▸ .str s

theorem TunnelStateChanged.nested_payload (e : TunnelStateChanged) {n : Nat} :
    Nested (n + 1) e.event.payload := by
  refine nested_ofFields fun f hf => ?_
  rcases e.fields hf with ⟨n, h⟩ | ⟨s, h⟩
  · exact h ▸ .int n
  · exact h ▸ .str s

theorem StatisticsTick.ordered_payload (tick : StatisticsTick) : Ordered tick.event.payload := by
  refine Ipc.ordered_ofFields fun f hf => ?_
  simp only [List.mem_cons, List.not_mem_nil, or_false] at hf
  obtain rfl | rfl | rfl | rfl | rfl := hf
  · exact .str _
  · exact .int _
  · exact .int _
  · exact .float _
  · exact .float _

theorem StatisticsTick.nested_payload (tick : StatisticsTick) {n : Nat} :
    Nested (n + 1) tick.event.payload := by
  refine nested_ofFields fun f hf => ?_
  simp only [List.mem_cons, List.not_mem_nil, or_false] at hf
  obtain rfl | rfl | rfl | rfl | rfl := hf
  · exact .str _
  · exact .int _
  · exact .int _
  · exact .float _
  · exact .float _

theorem nested_encodeEvent {n : Nat} {event : Ipc.Event} (h : Nested (n + 1) event.payload) :
    Nested (n + 2) (Ipc.encodeEvent event) := by
  refine nested_ofFields fun f hf => ?_
  simp only [List.mem_cons, List.not_mem_nil, or_false] at hf
  obtain rfl | rfl | rfl | rfl | rfl | rfl := hf
  · exact .str _
  · exact .int _
  · exact .int _
  · exact .int _
  · exact .str _
  · exact h

namespace Sent

theorem ordered_frame (sent : Sent) : Ordered sent.frame := by
  cases sent with
  | success id result => exact Ipc.ordered_encodeResponse result.ordered
  | error id status => exact Ipc.ordered_encodeResponse Doc.object.ordered
  | tunnelState e => exact (Ipc.Message.Valid.event _ ⟨_, e.ordered_payload⟩).ordered
  | statistics tick => exact (Ipc.Message.Valid.event _ ⟨_, tick.ordered_payload⟩).ordered

theorem isObject_frame (sent : Sent) : sent.frame.isObject = true := by
  cases sent <;> rfl

/-- A frame is nested one deeper than the result in it. -/
theorem nested_frame {n : Nat} (sent : Sent)
    (h : ∀ id result, sent = success id result → Nested (n + 1) result.value) :
    Nested (n + 2) sent.frame := by
  cases sent with
  | success id result =>
    refine nested_ofFields fun f hf => ?_
    simp only [List.mem_cons, List.not_mem_nil, or_false] at hf
    obtain rfl | rfl | rfl | rfl | rfl := hf
    · exact .str _
    · exact .int _
    · exact .int _
    · exact .bool _
    · exact h id result rfl
  | error id status =>
    refine nested_ofFields fun f hf => ?_
    simp only [List.mem_cons, List.not_mem_nil, or_false] at hf
    obtain rfl | rfl | rfl | rfl | rfl := hf
    · exact .str _
    · exact .int _
    · exact .int _
    · exact .bool _
    · refine nested_ofFields fun f hf => ?_
      simp only [List.mem_cons, List.not_mem_nil, or_false] at hf
      obtain rfl | rfl | rfl | rfl := hf
      · exact .int _
      · exact .str _
      · exact .str _
      · exact .int _
  | tunnelState e => exact nested_encodeEvent e.nested_payload
  | statistics tick => exact nested_encodeEvent tick.nested_payload

/-- The frame as an object. -/
def object (sent : Sent) : JsonObject := ⟨⟨sent.frame, sent.ordered_frame⟩, sent.isObject_frame⟩

theorem value_object (sent : Sent) : sent.object.value = sent.frame := rfl

/-- What the app hears of a frame, and what it understands. -/
theorem hear_object (sent : Sent) :
    ∃ heard, hear sent.object = .ok (some heard) ∧ heard.understood = .ok sent.meaning := by
  cases sent with
  | success id result =>
    have hvalue := value_object (success id result)
    refine ⟨_, hear_response hvalue, ?_⟩
    rw [Heard.understood, hvalue]
    exact congrArg (Except.map _) (fromFrame_encodeResponse (Ipc.makeSuccess id result.value))
  | error id status =>
    have hvalue := value_object (error id status)
    refine ⟨_, hear_response hvalue, ?_⟩
    rw [Heard.understood, hvalue]
    exact congrArg (Except.map _) (fromFrame_encodeResponse (Ipc.makeError id status))
  | tunnelState e =>
    exact ⟨.tunnelState _, (hear_event (value_object _)).trans (onEvent_tunnelState e), rfl⟩
  | statistics tick =>
    exact ⟨.statistics _, (hear_event (value_object _)).trans (onEvent_statistics tick), rfl⟩

end Sent

theorem hearDoc_object (object : JsonObject) : hearDoc object.doc = hear object :=
  dif_pos object.isObject

/-- What is understood of the first frames, in their order. -/
theorem hearAll_docs (sent : List Sent) :
    (hearAll (sent.map (·.object.doc))).map Heard.understood = sent.map fun m => .ok m.meaning := by
  induction sent with
  | nil => rfl
  | cons m sent ih =>
    obtain ⟨heard, hhear, hmeaning⟩ := m.hear_object
    rw [List.map_cons, hearAll, hearDoc_object, hhear]
    show heard.understood :: (hearAll (sent.map (·.object.doc))).map Heard.understood = _
    rw [hmeaning, ih, List.map_cons]

/-- However the pipe cuts the stream, the app understands the responses and the events that
the service framed as they were meant, in their order, and of a stream that breaks off the
first of them. No result may be nested so deep that its frame is too deep for the app. -/
theorem service_messages_understood {text : Ipc.JsonText} (hl : LawfulOn text (Nested maxDepth))
    {sent : List Sent} {frames : List (List Byte)}
    (hn : ∀ id result, .success id result ∈ sent → Nested (maxDepth - 1) result.value)
    (hf : List.Forall₂ (fun m bytes => Ipc.frame text m.frame = .ok bytes) sent frames) :
    (∀ pipe, Chunked frames.flatten pipe → ∀ n, sent.length ≤ n →
      (receiveLoop text n pipe).map Heard.understood = sent.map fun m => .ok m.meaning) ∧
    ∀ stream, stream <+: frames.flatten → ∀ pipe, Chunked stream pipe → ∀ n,
      (receiveLoop text n pipe).map Heard.understood <+: sent.map fun m => .ok m.meaning := by
  have hplain : ∀ value ∈ sent.map (·.object.doc), Nested maxDepth value.value := by
    intro value hv
    obtain ⟨m, hm, rfl⟩ := List.mem_map.mp hv
    exact m.nested_frame fun id result h => hn id result (h ▸ hm)
  have hframes : List.Forall₂ (fun value bytes => Ipc.frame text value.value = .ok bytes)
      (sent.map (·.object.doc)) frames := List.forall₂_map_left_iff.mpr hf
  obtain ⟨hall, hpart⟩ := readFrames_eq hl hplain hframes
  constructor
  · intro pipe hc n hlen
    rw [receiveLoop_eq, hall pipe hc n (by rwa [List.length_map]), hearAll_docs]
  · intro stream hs pipe hc n
    have hprefix := hpart stream hs pipe hc n
    have htake := List.prefix_iff_eq_take.mp hprefix
    rw [receiveLoop_eq, htake, ← List.map_take, hearAll_docs, List.map_take]
    exact List.take_prefix _ _

/-- A tunnel that connected, and the text of the event. -/
def connected : Sent := .tunnelState
  { tunnelId := "t", profileId := "p", current := .connected, attempt := 1 }

def connectedText : List Byte := Ipc.ascii
  ["\x7b\"event\":1000,\"eventName\":\"TunnelStateChanged\",\"id\":0,",
    "\"payload\":\x7b\"attempt\":1,\"profileId\":\"p\",\"state\":\"Connected\",",
    "\"tunnelId\":\"t\"\x7d,\"protocol\":1,\"type\":\"event\"\x7d"]

/-- The answer to the request for it, and its text. -/
def opened : Sent := .success 3 (.ofFields [("tunnelId", .str "t")])

def openedText : List Byte := Ipc.ascii
  ["\x7b\"id\":3,\"protocol\":1,\"result\":\x7b\"tunnelId\":\"t\"\x7d,\"success\":true,",
    "\"type\":\"response\"\x7d"]

noncomputable def connectedJson : Ipc.JsonText :=
  .table [(connected.object.doc, connectedText), (opened.object.doc, openedText)]

theorem frame_connected : Ipc.frame connectedJson connected.frame =
    .ok (Ipc.lengthPrefix connectedText.length ++ connectedText) :=
  Ipc.JsonText.frame_table [] connected.object.doc (by simp) (by decide +kernel)

theorem frame_opened : Ipc.frame connectedJson opened.frame =
    .ok (Ipc.lengthPrefix openedText.length ++ openedText) := by
  refine Ipc.JsonText.frame_table [(connected.object.doc, connectedText)] opened.object.doc
    (fun e he heq => ?_) (by decide +kernel)
  rw [List.mem_singleton.mp he] at heq
  exact absurd (congrArg (fun value => (value.field "type").bind Json.asString) heq) (by decide +kernel)

/-- The event and the answer, in two chunks. -/
theorem service_messages_understood_connected :
    LawfulOn connectedJson (Nested maxDepth) ∧
    (receiveLoop connectedJson 2
      [Ipc.lengthPrefix connectedText.length, connectedText ++
        (Ipc.lengthPrefix openedText.length ++ openedText)]).map Heard.understood =
      [.ok connected.meaning, .ok opened.meaning] := by
  have hl : LawfulOn connectedJson (Nested maxDepth) :=
    .of_lawful (Ipc.JsonText.table_lawful (by decide +kernel) (by decide +kernel))
  refine ⟨hl, (@service_messages_understood _ hl [connected, opened] _ (fun id result h => ?_)
    (.cons frame_connected (.cons frame_opened .nil))).1 _ ⟨?_, ?_⟩ 2 (by decide)⟩
  · simp only [connected, opened, List.mem_cons, List.not_mem_nil, or_false, reduceCtorEq, false_or,
      Sent.success.injEq] at h
    rw [h.2]
    refine .obj fun f hf => ?_
    rw [List.mem_singleton.mp hf]
    exact .str _
  · simp
  · decide +kernel

end NovaVpn.App
