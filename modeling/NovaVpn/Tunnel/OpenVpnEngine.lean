import NovaVpn.Tunnel.Threads

/-!
# The OpenVPN engine and its threads

The class `OpenVpnEngine` of `Tunnel/openvpn/OpenVpnEngine.cpp`: each session has a client
of the OpenVPN library, a worker that is inside the client's `connect` until the session
ends, and, if the host wants counters, a poller. What runs under `m_mutex` is one step;
`stop` joins the threads outside of it, so that every other step may come in between.
`provideCredential`, `renegotiate` and the callback of the cancellation token ask the client
for something under the lock and change nothing here.

`stop` takes the threads it joins away from the engine and destroys the client last: a
`start` or another `stop` that comes in between finds no thread to wait for, and destroys a
client that is in use. `Serial` says that neither happens.
-/

namespace NovaVpn.OpenVpn

open NovaVpn.Framework

def mapEvent (name : String) : Option ConnectionState :=
  if name = "RESOLVE" then some .resolving
  else if name = "CONNECTING" ∨ name = "WAIT" ∨ name = "TCP_CONNECT" then some .connecting
  else if name = "GET_CONFIG" ∨ name = "ASSIGN_IP" ∨ name = "ADD_ROUTES" then some .configuring
  else if name = "AUTH" then some .authenticating
  else if name = "CONNECTED" then some .connected
  else if name = "RECONNECTING" then some .reconnecting
  else if name = "DISCONNECTED" ∨ name = "EXITING" then some .disconnected
  else if name = "AUTH_FAILED" ∨ name = "CERT_VERIFY_FAIL" ∨ name = "TLS_VERSION_MIN" ∨
      name = "CONNECTION_TIMEOUT" ∨ name = "INACTIVE_TIMEOUT" ∨ name = "PROXY_ERROR" then
    some .faulted
  else none

def statusForEvent (name info : String) : Status :=
  if name = "AUTH_FAILED" then Err.make .authFailed ("authentication failed: " ++ info)
  else if name = "CERT_VERIFY_FAIL" then
    Err.make .certificateInvalid ("server certificate rejected: " ++ info)
  else if name = "CONNECTION_TIMEOUT" then Err.make .timeout ("connection timed out: " ++ info)
  else Err.make .handshakeFailed (name ++ ": " ++ info)

/-- The callbacks of an `EngineHost` that are set. -/
structure EngineHost where
  onStateChanged : Bool := true
  onSessionEstablished : Bool := true
  onCounters : Bool := true
  deriving DecidableEq, Repr

inductive HostCall where
  | stateChanged (state : ConnectionState) (reason : Status)
  | sessionEstablished
  | counters (counters : TrafficCounters)
  deriving DecidableEq, Repr

/-- `ovpn::Event`, and whether `connection_info()` is defined. -/
structure Event where
  name : String
  info : String := ""
  error : Bool := false
  defined : Bool := true

/-- `NovaOpenVpnClient::event`: the calls it makes. -/
def EngineHost.event (host : EngineHost) (e : Event) : List HostCall :=
  if e.error then
    if host.onStateChanged then [.stateChanged .faulted (statusForEvent e.name e.info)] else []
  else
    match mapEvent e.name with
    | none => []
    | some state =>
      (if state = .connected ∧ host.onSessionEstablished ∧ e.defined then [.sessionEstablished]
        else []) ++
      if host.onStateChanged then [.stateChanged state .ok] else []

/-- `ovpn::Status`: whether there was an error, and its message. -/
abbrev Outcome := Option String

/-- What the worker says of the end of `connect`. -/
def EngineHost.ended (host : EngineHost) (outcome : Outcome) : List HostCall :=
  if host.onStateChanged then
    match outcome with
    | some message =>
      [.stateChanged .faulted (Err.make .handshakeFailed ("OpenVPN session ended: " ++ message))]
    | none => [.stateChanged .disconnected .ok]
  else []

/-- `ovpn::InterfaceStats` and `ovpn::TransportStats`. -/
structure Stats where
  bytesOut : Int := 0
  bytesIn : Int := 0
  packetsOut : Int := 0
  packetsIn : Int := 0

/-- The counters of the tun, or those of the transport where it has none. -/
def trafficCounters (tun wire : Stats) : TrafficCounters :=
  let either (t w : Int) := UInt64.ofInt (if t > 0 then t else w)
  { wireBytesSent := UInt64.ofInt wire.bytesOut
    wireBytesReceived := UInt64.ofInt wire.bytesIn
    bytesSent := either tun.bytesOut wire.bytesOut
    bytesReceived := either tun.bytesIn wire.bytesIn
    packetsSent := either tun.packetsOut wire.packetsOut
    packetsReceived := either tun.packetsIn wire.packetsIn }

inductive Worker where
  | absent
  /-- Before it reads `m_client`. -/
  | begun
  /-- Inside `connect` of this session's client. -/
  | connecting (client : Nat)
  | ended (outcome : Outcome)
  | done
  deriving DecidableEq, Repr

def Worker.active : Worker → Bool
  | absent | done => false
  | _ => true

inductive Poller where
  | absent
  /-- Before it looks at `m_statsStop`. -/
  | checking
  /-- Before it takes the lock. -/
  | polling
  | sleeping
  | done
  deriving DecidableEq, Repr

def Poller.active : Poller → Bool
  | absent | done => false
  | _ => true

structure Session where
  host : EngineHost := {}
  /-- The client has not been destroyed. -/
  alive : Bool := false
  worker : Worker := .absent
  poller : Poller := .absent
  /-- The calls of the host, the newest first. -/
  calls : List HostCall := []

/-- Where a thread is in `stop`. -/
inductive Phase where
  | idle
  | requested
  | flagged
  /-- With the threads it took. -/
  | taken (worker statsWorker : Option Nat)
  | polled (worker : Option Nat)
  | joined
  deriving DecidableEq, Repr

namespace Phase

/-- The worker that is still to be joined. -/
def worker : Phase → Option Nat
  | taken worker _ => worker
  | polled worker => worker
  | _ => none

/-- The poller that is still to be joined. -/
def statsWorker : Phase → Option Nat
  | taken _ statsWorker => statsWorker
  | _ => none

/-- It has taken the threads. -/
def past : Phase → Bool
  | taken _ _ | polled _ | joined => true
  | _ => false

end Phase

structure Engine where
  client : Option Nat := none
  worker : Option Nat := none
  statsWorker : Option Nat := none
  statsStop : Bool := true
  sessions : Nat → Session := fun _ => {}
  created : Nat := 0
  phase : Nat → Phase := fun _ => .idle
  /-- The calls of `stop` in progress. -/
  stopping : Nat := 0
  /-- `start` waits for a lock it has: the token was cancelled already. -/
  hung : Bool := false
  /-- A client that was destroyed is in use, or a thread was dropped without a join. -/
  broken : Bool := false

/-- How the library and the token answer to `start`. -/
structure StartAnswers where
  host : EngineHost := {}
  evalError : Outcome := none
  /-- Of `provide_creds`, if the profile has credentials. -/
  credsError : Outcome := none
  cancelled : Bool := false

inductive EngineAct where
  | start (answers : StartAnswers)
  | stopRequest (thread : Nat)
  | stopFlag (thread : Nat)
  | stopTake (thread : Nat)
  | joinPoller (thread : Nat)
  | joinWorker (thread : Nat)
  | stopReset (thread : Nat)
  /-- The worker reads `m_client` and calls `connect`. -/
  | connect (session : Nat)
  | event (session : Nat) (e : Event)
  | returns (session : Nat) (outcome : Outcome)
  | report (session : Nat)
  | check (session : Nat)
  | poll (session : Nat) (tun wire : Stats)
  | wake (session : Nat)

namespace Engine

def setSession (s : Engine) (k : Nat) (session : Session) : Engine :=
  { s with sessions := Function.update s.sessions k session }

def setPhase (s : Engine) (thread : Nat) (phase : Phase) : Engine :=
  { s with phase := Function.update s.phase thread phase }

def setWorker (s : Engine) (k : Nat) (worker : Worker) : Engine :=
  s.setSession k { s.sessions k with worker }

def setPoller (s : Engine) (k : Nat) (poller : Poller) : Engine :=
  s.setSession k { s.sessions k with poller }

def record (s : Engine) (k : Nat) (calls : List HostCall) : Engine :=
  s.setSession k { s.sessions k with calls := calls.reverse ++ (s.sessions k).calls }

/-- Some worker is inside `connect` of this client. -/
def inUse (s : Engine) (client : Nat) : Bool :=
  (List.range s.created).any fun k => (s.sessions k).worker = .connecting client

/-- `m_client.reset()`. -/
def resetClient (s : Engine) : Engine :=
  match s.client with
  | none => s
  | some k =>
    { s.setSession k { s.sessions k with alive := false } with
      client := none
      broken := s.broken || s.inUse k }

/-- `m_client = std::make_unique<NovaOpenVpnClient>(...)`. -/
def makeClient (s : Engine) (host : EngineHost) : Engine :=
  let s := s.resetClient
  { s.setSession s.created { host, alive := true } with
    client := some s.created
    created := s.created + 1 }

/-- The threads of a session that starts. -/
def spawn (s : Engine) (host : EngineHost) (k : Nat) : Engine :=
  let s := { s.setWorker k .begun with worker := some k }
  if host.onCounters then
    { s.setPoller k .checking with
      statsStop := false
      statsWorker := some k
      broken := s.broken || s.statsWorker.isSome }
  else s

def start (s : Engine) (answers : StartAnswers) : Status × Engine :=
  if s.worker.isSome then (Err.invalidState "engine already started", s)
  else
    let k := s.created
    let s := s.makeClient answers.host
    match answers.evalError with
    | some message =>
      (Err.make .configInvalid ("OpenVPN configuration rejected: " ++ message), s.resetClient)
    | none =>
      match answers.credsError with
      | some message =>
        (Err.make .credentialsMissing ("OpenVPN rejected the credentials: " ++ message),
          s.resetClient)
      | none =>
        if answers.cancelled then (.ok, { s with hung := true })
        else (.ok, s.spawn answers.host k)

/-- A thread that is joined has ended. -/
def workerDone (s : Engine) (worker : Option Nat) : Bool :=
  worker.all fun k => (s.sessions k).worker = .done

def pollerDone (s : Engine) (poller : Option Nat) : Bool :=
  poller.all fun k => (s.sessions k).poller = .done

def step (s : Engine) : EngineAct → Option Engine
  | .start answers => if s.hung then none else some (s.start answers).2
  | .stopRequest t =>
    if s.hung then none
    else match s.phase t with
    | .idle => some { s.setPhase t .requested with stopping := s.stopping + 1 }
    | _ => none
  | .stopFlag t =>
    match s.phase t with
    | .requested => some { s.setPhase t .flagged with statsStop := true }
    | _ => none
  | .stopTake t =>
    if s.hung then none
    else match s.phase t with
    | .flagged =>
      some { s.setPhase t (.taken s.worker s.statsWorker) with worker := none, statsWorker := none }
    | _ => none
  | .joinPoller t =>
    match s.phase t with
    | .taken worker statsWorker =>
      if s.pollerDone statsWorker then some (s.setPhase t (.polled worker)) else none
    | _ => none
  | .joinWorker t =>
    match s.phase t with
    | .polled worker => if s.workerDone worker then some (s.setPhase t .joined) else none
    | _ => none
  | .stopReset t =>
    if s.hung then none
    else match s.phase t with
    | .joined => some { s.resetClient.setPhase t .idle with stopping := s.stopping - 1 }
    | _ => none
  | .connect k =>
    match (s.sessions k).worker, s.client with
    | .begun, some client => some (s.setWorker k (.connecting client))
    | .begun, none => some { s.setWorker k .done with broken := true }
    | _, _ => none
  | .event k e =>
    match (s.sessions k).worker with
    | .connecting client => some (s.record client ((s.sessions client).host.event e))
    | _ => none
  | .returns k outcome =>
    match (s.sessions k).worker with
    | .connecting _ => some (s.setWorker k (.ended outcome))
    | _ => none
  | .report k =>
    match (s.sessions k).worker with
    | .ended outcome =>
      some ((s.record k ((s.sessions k).host.ended outcome)).setWorker k .done)
    | _ => none
  | .check k =>
    match (s.sessions k).poller with
    | .checking => some (s.setPoller k (if s.statsStop then .done else .polling))
    | _ => none
  | .poll k tun wire =>
    if s.hung then none
    else match (s.sessions k).poller with
    | .polling =>
      let calls := if s.client.isSome then [.counters (trafficCounters tun wire)] else []
      some ((s.record k calls).setPoller k .sleeping)
    | _ => none
  | .wake k =>
    match (s.sessions k).poller with
    | .sleeping => some (s.setPoller k .checking)
    | _ => none

/-- A start and a stop come while no stop is in progress. -/
def serial (s : Engine) : EngineAct → Bool
  | .start _ | .stopRequest _ => s.stopping = 0
  | _ => true

def Serial (s : Engine) (act : EngineAct) : Prop := s.serial act = true

instance (s : Engine) (act : EngineAct) : Decidable (s.Serial act) :=
  inferInstanceAs (Decidable (s.serial act = true))

end Engine

/-- The last state that was reported. -/
def lastState (calls : List HostCall) : Option ConnectionState :=
  calls.findSome? fun call =>
    match call with
    | .stateChanged state _ => some state
    | _ => none

/-- The last report is Disconnected or Faulted. -/
def Over (calls : List HostCall) : Prop :=
  lastState calls = some .disconnected ∨ lastState calls = some .faulted

/-- Nothing that was destroyed is in use; the client of the session that runs, of which
there is one at most, is there; and a session whose worker is done has reported its end. -/
structure Safe (s : Engine) : Prop where
  unbroken : s.broken = false
  client : ∀ k c, (s.sessions k).worker = .connecting c →
    c = k ∧ s.client = some k ∧ (s.sessions k).alive = true
  one : ∀ k k', (s.sessions k).worker.active = true → (s.sessions k').worker.active = true → k = k'
  ended : ∀ k, (s.sessions k).worker = .done → (s.sessions k).host.onStateChanged = true →
    Over (s.sessions k).calls

end NovaVpn.OpenVpn
