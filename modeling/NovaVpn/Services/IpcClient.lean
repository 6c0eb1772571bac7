import NovaVpn.Services.Wire

/-!
# The IPC client

`Services/IpcClient.cpp`: the table of pending calls and what a frame from the
service does to it. A call waits under its id until a response with that id
completes it, its time is over, or the client disconnects.
-/

namespace NovaVpn.Ipc

/-- How a call ends. -/
inductive Outcome where
  | response (response : Received)
  | failed (status : Status)

structure Client where
  nextId : UInt64 := 1
  /-- `m_pending`: the ids of the calls that wait. -/
  pending : List UInt64 := []
  /-- The calls that ended, the last one first. -/
  completed : List (UInt64 × Outcome) := []

namespace Client

/-- The part of `call` up to the wait. -/
def call (c : Client) : Client :=
  { c with nextId := c.nextId + 1, pending := c.nextId :: c.pending }

/-- The end of a call that failed or waited too long, after `cancelPending`. -/
def cancel (c : Client) (id : UInt64) (status : Status) : Client :=
  { c with pending := c.pending.erase id, completed := (id, .failed status) :: c.completed }

/-- A response under an id that nothing waits for is dropped. -/
def deliverResponse (c : Client) (response : Received) : Client :=
  if response.id ∈ c.pending then
    { c with
      pending := c.pending.erase response.id
      completed := (response.id, .response response) :: c.completed }
  else c

/-- One round of `receiveLoop`. -/
def receive (c : Client) (value : Json) : Client :=
  if value.get "/type" Json.asString "" = "event" then c
  else
    match decodeResponse value with
    | .error _ => c
    | .ok response => c.deliverResponse response

/-- `disconnect`, of the calls that still wait. -/
def disconnect (c : Client) : Client :=
  { c with
    pending := []
    completed :=
      (c.pending.map fun id => (id, .failed (Err.make .cancelled "client disconnected"))) ++
        c.completed }

theorem receive_response (c : Client) (response : Response) :
    c.receive (encodeResponse response) = c.deliverResponse response.received := by
  have htype : (encodeResponse response).get "/type" Json.asString "" = "response" := by
    rw [get_type rfl, encodeResponse_type]
    rfl
  rw [receive, htype, if_neg (by decide), decodeResponse_encodeResponse]

theorem received_id (response : Response) : response.received.id = response.id := by
  unfold Response.received
  split <;> rfl

/-- A response completes the call that waits under its id, with what it
reports. -/
theorem completed_receive {c : Client} {response : Response} (h : response.id ∈ c.pending) :
    (c.receive (encodeResponse response)).completed =
      (response.id, .response response.received) :: c.completed := by
  rw [receive_response, deliverResponse, received_id, if_pos h]

end Client

end NovaVpn.Ipc
