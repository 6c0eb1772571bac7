import NovaVpn.Services.ClientThreads

/-!
# Responses and calls

A call draws an id from a counter of 64 bits, waits under it in the table of
pending calls, and is completed with the response that carries it. As long as
no id is drawn twice (`correlated`), every response that a call returns is what
the service computed for its own request, and a response to a call that has
given up changes no other call. The counter comes round after 2^64 calls
(`ids_come_round`).
-/

namespace NovaVpn.Ipc

open NovaVpn.Framework

/-- The id of a call, by its number. -/
def callId (i : Nat) : UInt64 := UInt64.ofNat (i + 1)

theorem callId_inj {n i j : Nat} (hn : n < 2 ^ 64) (hi : i < n) (hj : j < n)
    (h : callId i = callId j) : i = j := by
  have htoNat := congrArg UInt64.toNat h
  simp only [callId, UInt64.toNat_ofNat'] at htoNat
  omega

theorem callId_ne_zero {n i : Nat} (hn : n < 2 ^ 64) (hi : i < n) : callId i ≠ 0 := by
  intro h
  have htoNat := congrArg UInt64.toNat h
  simp only [callId, UInt64.toNat_ofNat', UInt64.toNat_zero] at htoNat
  omega

theorem callId_succ (i : Nat) : callId i + 1 = callId (i + 1) := by
  simp [callId, UInt64.ofNat_add]

/-- In the table, or past being in it without having returned. -/
def CallPhase.entered : CallPhase → Bool
  | .drawn | .returned _ => false
  | _ => true

namespace ClientState

def requestOf (s : ClientState) (i : Nat) : Option Request := (s.calls i).map (·.request)

/-- The service computed the response for the request of the call. -/
def Serves (s : ClientState) (i : Nat) (response : Response) : Prop :=
  ∃ request, s.requestOf i = some request ∧ { origin := i, request, response } ∈ s.served

/-- The answer of a call is what the service computed for its request. -/
def Owns (s : ClientState) (i : Nat) (a : Answered) : Prop :=
  a.origin = i ∧ ∃ response, s.Serves i response ∧ a.response = response.received

/-- A frame on its way is what the service computed for a call, or carries no
id. -/
def Replies (s : ClientState) (i : Nat) (response : Response) : Prop :=
  response.id = 0 ∨ response.id = callId i ∧ s.Serves i response

/-- No request is forgotten, and nothing the service computed. -/
structure Extends (s s' : ClientState) : Prop where
  requests : ∀ i request, s.requestOf i = some request → s'.requestOf i = some request
  served : ∀ e ∈ s.served, e ∈ s'.served

section

variable {s s' : ClientState} {i : Nat}

theorem Serves.extends {response : Response} (h : s.Serves i response) (he : Extends s s') :
    s'.Serves i response := by
  obtain ⟨request, hrequest, hserved⟩ := h
  exact ⟨request, he.requests i request hrequest, he.served _ hserved⟩

theorem Owns.extends {a : Answered} (h : s.Owns i a) (he : Extends s s') : s'.Owns i a := by
  obtain ⟨horigin, response, hserves, hreceived⟩ := h
  exact ⟨horigin, response, hserves.extends he, hreceived⟩

theorem Replies.extends {response : Response} (h : s.Replies i response) (he : Extends s s') :
    s'.Replies i response := h.imp_right fun hr => ⟨hr.1, hr.2.extends he⟩

end

end ClientState

open ClientState

/-- What the receiver holds. -/
def ReceiverPhase.Sound (s : ClientState) : ReceiverPhase → Prop
  | .delivering a => ∃ response, s.Replies a.origin response ∧ a.response = response.received
  | .completing i a =>
    s.Owns i a ∧ s.pending.lookup (callId i) = none ∧
      ∃ c, s.calls i = some c ∧ c.phase ≠ .drawn
  | _ => True

/-- A call, by its number. -/
structure PendingCall.Sound (s : ClientState) (i : Nat) (c : PendingCall) : Prop where
  id : c.request.id = callId i
  fresh : c.phase = .drawn → c.slot = none
  slot : ∀ a, c.slot = some (.ok a) → s.Owns i a
  returned : ∀ a, c.phase = .returned (.ok a) → s.Owns i a

structure CorrInv (s : ClientState) : Prop where
  nextId : s.nextId = callId s.count
  known : ∀ i c, s.calls i = some c → i < s.count
  sound : ∀ i c, s.calls i = some c → c.Sound s i
  pending : ∀ id i, s.pending.lookup id = some i →
    id = callId i ∧ ∃ c, s.calls i = some c ∧ c.slot = none ∧ c.phase.entered = true
  incoming : ∀ conn, ∀ e ∈ (s.channels conn).incoming,
    ∃ request, s.requestOf e.1 = some request ∧ e.2 = requestDoc request
  outgoing : ∀ conn i response, .response i response ∈ (s.channels conn).outgoing →
    s.Replies i response
  receiver : s.receiver.Sound s

theorem PendingCall.Sound.extends {s s' : ClientState} {i : Nat} {c : PendingCall}
    (h : c.Sound s i) (he : Extends s s') : c.Sound s' i :=
  ⟨h.id, h.fresh, fun a ha => (h.slot a ha).extends he, fun a ha => (h.returned a ha).extends he⟩

theorem ReceiverPhase.Sound.extends {s s' : ClientState} {p : ReceiverPhase} (h : p.Sound s)
    (he : Extends s s')
    (hcompleting : ∀ i a, p = .completing i a → s'.pending.lookup (callId i) = none)
    (hcalls : ∀ i c, s.calls i = some c → c.phase ≠ .drawn →
      ∃ c', s'.calls i = some c' ∧ c'.phase ≠ .drawn) : p.Sound s' := by
  cases p with
  | delivering a =>
    obtain ⟨response, hreplies, hreceived⟩ := h
    exact ⟨response, hreplies.extends he, hreceived⟩
  | completing i a =>
    obtain ⟨howns, -, c, hc, hdrawn⟩ := h
    exact ⟨howns.extends he, hcompleting i a rfl, hcalls i c hc hdrawn⟩
  | starting => trivial
  | looping => trivial
  | reading conn => trivial
  | ended => trivial

theorem ReceiverPhase.Sound.reopened {s : ClientState} {p : ReceiverPhase} (h : p.Sound s) :
    p.reopened.Sound s := by
  cases p with
  | ended => trivial
  | _ => exact h

namespace CorrInv

variable {s s' : ClientState} {i : Nat} {c : PendingCall}

theorem requestOf_eq (hc : s.calls i = some c) : s.requestOf i = some c.request := by
  rw [requestOf, hc]
  rfl

/-- A call moves on under its request. -/
theorem extends_setCall (hc : s.calls i = some c) {c' : PendingCall}
    (hrequest : c'.request = c.request) {pending : PendingTable} :
    Extends s ({ s with pending }.setCall i c') := by
  refine ⟨fun j request hj => ?_, fun _ he => he⟩
  show (Function.update s.calls i (some c') j).map (·.request) = some request
  by_cases hne : j = i
  · subst hne
    rw [requestOf_eq hc] at hj
    rw [Function.update_self, Option.map_some, hrequest, hj]
  · rw [Function.update_of_ne hne]
    exact hj

/-- A call moves on, with its entry in the table. -/
theorem setCall (h : CorrInv s) (hc : s.calls i = some c) (c' : PendingCall)
    (pending : PendingTable) (hrequest : c'.request = c.request) (hphase : c'.phase ≠ .drawn)
    (hsound : c'.Sound s i)
    (hothers : ∀ id j, j ≠ i → pending.lookup id = some j → s.pending.lookup id = some j)
    (hown : ∀ id, pending.lookup id = some i →
      id = callId i ∧ c'.slot = none ∧ c'.phase.entered = true)
    (hcompleting : ∀ j a, s.receiver = .completing j a → pending.lookup (callId j) = none) :
    CorrInv ({ s with pending }.setCall i c') := by
  have he : Extends s ({ s with pending }.setCall i c') := extends_setCall hc hrequest
  have hself : ({ s with pending }.setCall i c').calls i = some c' := Function.update_self ..
  refine ⟨h.nextId, fun j d hd => ?_, fun j d hd => ?_, fun id j hj => ?_, fun conn e hin => ?_,
    fun conn j response hout => ?_, ?_⟩
  · rcases update_some_cases hd with ⟨rfl, -⟩ | ⟨-, hd⟩
    · exact h.known j c hc
    · exact h.known j d hd
  · rcases update_some_cases hd with ⟨rfl, rfl⟩ | ⟨-, hd⟩
    · exact hsound.extends he
    · exact (h.sound j d hd).extends he
  · by_cases hne : j = i
    · subst hne
      obtain ⟨hid, hslot, hentered⟩ := hown id hj
      exact ⟨hid, c', hself, hslot, hentered⟩
    · obtain ⟨hid, d, hd, hrest⟩ := h.pending id j (hothers id j hne hj)
      refine ⟨hid, d, ?_, hrest⟩
      show Function.update s.calls i (some c') j = some d
      rw [Function.update_of_ne hne, hd]
  · obtain ⟨request, hr, hdoc⟩ := h.incoming conn e hin
    exact ⟨request, he.requests _ _ hr, hdoc⟩
  · exact (h.outgoing conn j response hout).extends he
  · refine h.receiver.extends he hcompleting fun j d hd hdrawn => ?_
    by_cases hne : j = i
    · subst hne
      exact ⟨c', hself, hphase⟩
    · refine ⟨d, ?_, hdrawn⟩
      show Function.update s.calls i (some c') j = some d
      rw [Function.update_of_ne hne, hd]

/-- What the receiver is about to complete is no longer in the table. -/
theorem lookup_completing (h : CorrInv s) {j : Nat} {a : Answered}
    (hr : s.receiver = .completing j a) : s.pending.lookup (callId j) = none := by
  have hreceiver := h.receiver
  rw [hr] at hreceiver
  exact hreceiver.2.1

/-- The calls stay as they are. -/
theorem extends_of_calls (hcalls : s'.calls = s.calls) (hserved : ∀ e ∈ s.served, e ∈ s'.served) :
    Extends s s' := by
  refine ⟨fun i request hi => ?_, hserved⟩
  rw [requestOf, hcalls]
  exact hi

theorem congr (h : CorrInv s) (hnext : s'.nextId = s.nextId) (hcount : s'.count = s.count)
    (hcalls : s'.calls = s.calls)
    (hpending : ∀ id i, s'.pending.lookup id = some i → s.pending.lookup id = some i)
    (hserved : ∀ e ∈ s.served, e ∈ s'.served)
    (hincoming : ∀ conn, ∀ e ∈ (s'.channels conn).incoming,
      ∃ request, s.requestOf e.1 = some request ∧ e.2 = requestDoc request)
    (houtgoing : ∀ conn i response, .response i response ∈ (s'.channels conn).outgoing →
      s'.Replies i response)
    (hreceiver : s'.receiver.Sound s') : CorrInv s' := by
  have he : Extends s s' := extends_of_calls hcalls hserved
  refine ⟨by rw [hnext, hcount, h.nextId], fun i c hc => ?_, fun i c hc => ?_, fun id i hi => ?_,
    fun conn e hin => ?_, houtgoing, hreceiver⟩
  · rw [hcalls] at hc
    rw [hcount]
    exact h.known i c hc
  · rw [hcalls] at hc
    exact (h.sound i c hc).extends he
  · rw [hcalls]
    exact h.pending id i (hpending id i hi)
  · obtain ⟨request, hr, hdoc⟩ := hincoming conn e hin
    exact ⟨request, he.requests _ _ hr, hdoc⟩

/-- The frames on one pipe change. -/
theorem setChannel (h : CorrInv s) {conn : Nat} {channel : Channel}
    (hincoming : ∀ e ∈ channel.incoming,
      ∃ request, s.requestOf e.1 = some request ∧ e.2 = requestDoc request)
    (houtgoing : ∀ i response, .response i response ∈ channel.outgoing → s.Replies i response) :
    CorrInv (s.setChannel conn channel) := by
  have hchannel : ∀ conn', (s.setChannel conn channel).channels conn' = channel ∨
      (s.setChannel conn channel).channels conn' = s.channels conn' := by
    intro conn'
    show Function.update s.channels conn channel conn' = _ ∨ _
    by_cases hne : conn' = conn
    · subst hne
      exact Or.inl (Function.update_self ..)
    · exact Or.inr (Function.update_of_ne hne ..)
  have he : Extends s (s.setChannel conn channel) := extends_of_calls rfl fun _ he => he
  refine h.congr rfl rfl rfl (fun _ _ hi => hi) (fun _ he => he) (fun conn' e hin => ?_)
    (fun conn' i response hout => ?_) ?_
  · rcases hchannel conn' with heq | heq
    · rw [heq] at hin
      exact hincoming e hin
    · rw [heq] at hin
      exact h.incoming conn' e hin
  · rcases hchannel conn' with heq | heq
    · rw [heq] at hout
      exact (houtgoing i response hout).extends he
    · rw [heq] at hout
      exact (h.outgoing conn' i response hout).extends he
  · exact h.receiver.extends he (fun i a hr => h.lookup_completing hr) fun i c hc hd => ⟨c, hc, hd⟩

/-- A call moves on, and the table stays. -/
theorem setPhase (h : CorrInv s) (hc : s.calls i = some c) {phase : CallPhase}
    (hphase : phase ≠ .drawn) (hreturned : ∀ a, phase = .returned (.ok a) → s.Owns i a)
    (hentered : phase.entered = true ∨ c.slot ≠ none) :
    CorrInv (s.setPhase i c phase) := by
  have hsound := h.sound i c hc
  refine h.setCall hc { c with phase } s.pending rfl hphase
    ⟨hsound.id, fun hdrawn => absurd hdrawn hphase, hsound.slot, hreturned⟩
    (fun _ _ _ hj => hj) (fun id hid => ?_) fun j a hr => h.lookup_completing hr
  obtain ⟨hcall, d, hd, hslot, -⟩ := h.pending id i hid
  cases hc.symm.trans hd
  exact ⟨hcall, hslot, hentered.resolve_right fun hne => hne hslot⟩

/-- The call enters the table, unless its id is there. -/
theorem callRegister (h : CorrInv s) (hcount : s.count < 2 ^ 64) (hc : s.calls i = some c) {j : Nat}
    (hs : s.callStep i c (.register j) = some s') : CorrInv s' := by
  have hsound := h.sound i c hc
  have hknown := h.known i c hc
  simp only [ClientState.callStep] at hs
  split at hs
  next hphase =>
    cases hs
    have hlookup : ∀ id k, k ≠ i → (s.pending.emplace c.request.id i).lookup id = some k →
        s.pending.lookup id = some k := by
      intro id k hk hid
      unfold PendingTable.emplace at hid
      split at hid
      · exact hid
      · by_cases hne : id = c.request.id
        · subst hne
          rw [AList.lookup_insert, Option.some.injEq] at hid
          exact absurd hid.symm hk
        · rwa [AList.lookup_insert_ne hne] at hid
    refine h.setCall hc { c with phase := .registered } (s.pending.emplace c.request.id i) rfl
      (fun hd => by cases hd)
      ⟨hsound.id, fun _ => hsound.fresh hphase, hsound.slot, fun a ha => by cases ha⟩ hlookup
      (fun id hid => ?_) fun j a hr => ?_
    · refine ⟨?_, hsound.fresh hphase, rfl⟩
      unfold PendingTable.emplace at hid
      split at hid
      · exact (h.pending id i hid).1
      · by_cases hne : id = c.request.id
        · rw [hne, hsound.id]
        · rw [AList.lookup_insert_ne hne] at hid
          exact (h.pending id i hid).1
    · -- the call that is completed is another one
      have hreceiver := h.receiver
      rw [hr] at hreceiver
      obtain ⟨-, hnone, d, hd, hdrawn⟩ := hreceiver
      have hne : callId j ≠ c.request.id := by
        rw [hsound.id]
        intro heq
        cases callId_inj hcount (h.known j d hd) hknown heq
        cases hc.symm.trans hd
        exact hdrawn hphase
      unfold PendingTable.emplace
      split
      · exact hnone
      · rw [AList.lookup_insert_ne hne, hnone]
  next => cases hs

theorem callFrame (h : CorrInv s) (hc : s.calls i = some c) {j : Nat} {outcome : Framing}
    (hs : s.callStep i c (.frame j outcome) = some s') : CorrInv s' := by
  simp only [ClientState.callStep] at hs
  split at hs
  next =>
    cases hs
    cases outcome with
    | framed => exact h.setPhase hc (fun hd => by cases hd) (fun a ha => by cases ha) (.inl rfl)
    | failed status =>
      exact h.setPhase hc (fun hd => by cases hd) (fun a ha => by cases ha) (.inl rfl)
    | throws => exact h.setPhase hc (fun hd => by cases hd) (fun a ha => by cases ha) (.inl rfl)
  next => cases hs

/-- What is written on the pipe is the request. -/
theorem callWrite (h : CorrInv s) (hc : s.calls i = some c) {j : Nat} {failure : Option Status}
    (hs : s.callStep i c (.write j failure) = some s') : CorrInv s' := by
  simp only [ClientState.callStep] at hs
  split at hs
  next =>
    split at hs
    next =>
      cases hs
      exact h.setPhase hc (fun hd => by cases hd) (fun a ha => by cases ha) (.inl rfl)
    next conn hpipe =>
      split at hs
      next =>
        cases hs
        exact h.setPhase hc (fun hd => by cases hd) (fun a ha => by cases ha) (.inl rfl)
      next =>
        cases hs
        have hwritten : CorrInv (s.setChannel conn
            { s.channels conn with
              incoming := (s.channels conn).incoming ++ [(i, requestDoc c.request)] }) := by
          refine h.setChannel (fun e he => ?_) (h.outgoing conn)
          rcases List.mem_append.mp he with he | he
          · exact h.incoming conn e he
          · rw [List.mem_singleton.mp he]
            exact ⟨c.request, requestOf_eq hc, rfl⟩
        exact hwritten.setPhase hc (fun hd => by cases hd) (fun a ha => by cases ha) (.inl rfl)
  next => cases hs

theorem callFinish (h : CorrInv s) (hc : s.calls i = some c) {j : Nat}
    (hs : s.callStep i c (.finish j) = some s') : CorrInv s' := by
  have hsound := h.sound i c hc
  simp only [ClientState.callStep] at hs
  split at hs
  next result hphase hslot =>
    cases hs
    refine h.setPhase hc (fun hd => by cases hd) (fun a ha => ?_) (.inr ?_)
    · cases ha
      exact hsound.slot a hslot
    · rw [hslot]
      exact Option.some_ne_none _
  next => cases hs

theorem callTimeout (h : CorrInv s) (hc : s.calls i = some c) {j : Nat}
    (hs : s.callStep i c (.timeout j) = some s') : CorrInv s' := by
  simp only [ClientState.callStep] at hs
  split at hs
  next =>
    cases hs
    exact h.setPhase hc (fun hd => by cases hd) (fun a ha => by cases ha) (.inl rfl)
  next => cases hs

/-- A call that gives up takes its entry with it. -/
theorem callCancel (h : CorrInv s) (hc : s.calls i = some c) {j : Nat}
    (hs : s.callStep i c (.cancel j) = some s') : CorrInv s' := by
  have hsound := h.sound i c hc
  simp only [ClientState.callStep] at hs
  split at hs
  next status hphase =>
    cases hs
    refine h.setCall hc { c with phase := .returned (.error status) }
      (s.pending.erase c.request.id) rfl (fun hd => by cases hd)
      ⟨hsound.id, fun hd => (by cases hd), hsound.slot, fun a ha => (by cases ha)⟩
      (fun id k _ hk => ?_) (fun id hid => ?_) fun k a hr => ?_
    · by_cases hne : id = c.request.id
      · rw [hne, AList.lookup_erase] at hk
        cases hk
      · rwa [AList.lookup_erase_ne hne] at hk
    · -- the id of the call is the one that was erased
      by_cases hne : id = c.request.id
      · rw [hne, AList.lookup_erase] at hid
        cases hid
      · rw [AList.lookup_erase_ne hne] at hid
        exact absurd ((h.pending id i hid).1.trans hsound.id.symm) hne
    · by_cases hne : callId k = c.request.id
      · rw [hne, AList.lookup_erase]
      · rw [AList.lookup_erase_ne hne]
        exact h.lookup_completing hr
  next => cases hs

theorem callMarkConnected (h : CorrInv s) {j : Nat}
    (hs : s.callStep i c (.markConnected j) = some s') : CorrInv s' := by
  simp only [ClientState.callStep] at hs
  split at hs
  next =>
    split at hs
    next =>
      cases hs
      have he : Extends s { s with connected := true } := extends_of_calls rfl fun _ he => he
      exact h.congr rfl rfl rfl (fun _ _ hi => hi) (fun _ he => he) h.incoming
        (fun conn i response hout => (h.outgoing conn i response hout).extends he)
        (h.receiver.extends he (fun i a hr => h.lookup_completing hr) fun i c hc hd => ⟨c, hc, hd⟩)
    next => cases hs
  next => cases hs

theorem callStep (h : CorrInv s) (hcount : s.count < 2 ^ 64) (hc : s.calls i = some c)
    {act : ClientAct} (hs : s.callStep i c act = some s') : CorrInv s' := by
  cases act with
  | register j => exact h.callRegister hcount hc hs
  | frame j outcome => exact h.callFrame hc hs
  | write j failure => exact h.callWrite hc hs
  | finish j => exact h.callFinish hc hs
  | timeout j => exact h.callTimeout hc hs
  | cancel j => exact h.callCancel hc hs
  | markConnected j => exact h.callMarkConnected hs
  | _ => cases hs

/-- The receiver moves on, and the calls stay. -/
theorem setReceiver (h : CorrInv s) (receiver : ReceiverPhase) (pending : PendingTable)
    (hpending : ∀ id i, pending.lookup id = some i → s.pending.lookup id = some i)
    (lost : List Nat) (hreceiver : receiver.Sound { s with receiver, pending, lost }) :
    CorrInv { s with receiver, pending, lost } := by
  have he : Extends s { s with receiver, pending, lost } := extends_of_calls rfl fun _ he => he
  exact h.congr rfl rfl rfl hpending (fun _ he => he) h.incoming
    (fun conn i response hout => (h.outgoing conn i response hout).extends he) hreceiver

/-- A response that is delivered belongs to the call that waits under its id. -/
theorem lookup_delivering (h : CorrInv s) (hcount : s.count < 2 ^ 64) {a : Answered}
    (hr : s.receiver = .delivering a) {i : Nat}
    (hi : s.pending.lookup a.response.id = some i) :
    a.response.id = callId i ∧ s.Owns i a := by
  have hreceiver := h.receiver
  rw [hr] at hreceiver
  obtain ⟨response, hreplies, hreceived⟩ := hreceiver
  obtain ⟨hid, c, hc, -, -⟩ := h.pending _ i hi
  have hresponse : a.response.id = response.id := by
    rw [hreceived, Client.received_id]
  refine ⟨hid, ?_⟩
  rcases hreplies with hzero | ⟨horigin, hserves⟩
  · exact absurd (hid.symm.trans (hresponse.trans hzero)) (callId_ne_zero hcount (h.known i c hc))
  · obtain ⟨request, hrequest, hserved⟩ := hserves
    obtain ⟨d, hd, -⟩ := Option.map_eq_some_iff.mp hrequest
    have heq : a.origin = i := callId_inj hcount (h.known _ d hd) (h.known i c hc)
      (horigin.symm.trans (hresponse.symm.trans hid))
    rw [heq] at hrequest hserved
    exact ⟨heq, response, ⟨request, hrequest, hserved⟩, hreceived⟩

theorem receiverLook (h : CorrInv s) (hs : s.receiverStep .look = some s') : CorrInv s' := by
  simp only [ClientState.receiverStep] at hs
  split at hs
  next =>
    split at hs
    next =>
      cases hs
      exact h.setReceiver .ended s.pending (fun _ _ hi => hi) _ trivial
    next conn hpipe =>
      cases hs
      exact h.setReceiver (.reading conn) s.pending (fun _ _ hi => hi) s.lost trivial
  next => cases hs

/-- What is read was written in answer to a request. -/
theorem receiverRead (h : CorrInv s) (hs : s.receiverStep .read = some s') : CorrInv s' := by
  simp only [ClientState.receiverStep] at hs
  split at hs
  next conn hr =>
    split at hs
    next => cases hs
    next frame rest hout =>
      cases hs
      have hread : CorrInv (s.setChannel conn { s.channels conn with outgoing := rest }) :=
        h.setChannel (h.incoming conn) fun i response hi =>
          h.outgoing conn i response (by rw [hout]; exact List.mem_cons_of_mem _ hi)
      refine hread.setReceiver _ s.pending (fun _ _ hi => hi) s.lost ?_
      cases frame with
      | event e =>
        rw [Frame.received_event]
        trivial
      | response i r =>
        rw [Frame.received_response]
        have hreplies : s.Replies i r := h.outgoing conn i r (by rw [hout]; exact List.mem_cons_self)
        exact ⟨r, hreplies.extends (extends_of_calls rfl fun _ he => he), rfl⟩
  next => cases hs

theorem receiverReadFails (h : CorrInv s)
    (hs : s.receiverStep .readFails = some s') : CorrInv s' := by
  simp only [ClientState.receiverStep] at hs
  split at hs
  next =>
    split at hs
    next =>
      cases hs
      exact h.setReceiver .ended s.pending (fun _ _ hi => hi) _ trivial
    next =>
      cases hs
      exact h.setReceiver .starting s.pending (fun _ _ hi => hi) s.lost trivial
  next => cases hs

/-- A response that is delivered goes to the call that waits under its id. -/
theorem receiverDeliver (h : CorrInv s) (hcount : s.count < 2 ^ 64)
    (hs : s.receiverStep .deliver = some s') : CorrInv s' := by
  simp only [ClientState.receiverStep] at hs
  split at hs
  next a hr =>
    split at hs
    next =>
      cases hs
      exact h.setReceiver .looping s.pending (fun _ _ hi => hi) s.lost trivial
    next i hi =>
      cases hs
      obtain ⟨hid, howns⟩ := h.lookup_delivering hcount hr hi
      obtain ⟨-, c, hc, -, hentered⟩ := h.pending _ i hi
      refine h.setReceiver (.completing i a) (s.pending.erase a.response.id) (fun id j hj => ?_)
        s.lost ⟨howns.extends (extends_of_calls rfl fun _ he => he), ?_, c, hc, ?_⟩
      · by_cases hne : id = a.response.id
        · rw [hne, AList.lookup_erase] at hj
          cases hj
        · rwa [AList.lookup_erase_ne hne] at hj
      · rw [hid]
        exact AList.lookup_erase ..
      · intro hdrawn
        rw [hdrawn] at hentered
        cases hentered
  next => cases hs

theorem receiverComplete (h : CorrInv s)
    (hs : s.receiverStep .complete = some s') : CorrInv s' := by
  simp only [ClientState.receiverStep] at hs
  split at hs
  next i a hr =>
    obtain ⟨c, hc, hs⟩ := Option.map_eq_some_iff.mp hs
    subst hs
    have hreceiver := h.receiver
    rw [hr] at hreceiver
    obtain ⟨howns, hnone, d, hd, hdrawn⟩ := hreceiver
    cases hc.symm.trans hd
    have hsound := h.sound i c hc
    have hset : CorrInv (s.setCall i { c with slot := some (.ok a) }) := by
      refine h.setCall hc { c with slot := some (.ok a) } s.pending rfl hdrawn
        ⟨hsound.id, fun hphase => absurd hphase hdrawn, fun b hb => ?_, hsound.returned⟩
        (fun _ _ _ hj => hj) (fun id hid => ?_) fun j b hj => h.lookup_completing hj
      · cases hb
        exact howns
      · rw [(h.pending id i hid).1, hnone] at hid
        cases hid
    exact hset.setReceiver .looping s.pending (fun _ _ hi => hi) s.lost trivial
  next => cases hs

theorem receiverStep (h : CorrInv s) (hcount : s.count < 2 ^ 64) {act : ClientAct}
    (hs : s.receiverStep act = some s') : CorrInv s' := by
  cases act with
  | look => exact h.receiverLook hs
  | read => exact h.receiverRead hs
  | readFails => exact h.receiverReadFails hs
  | deliver => exact h.receiverDeliver hcount hs
  | complete => exact h.receiverComplete hs
  | _ => cases hs

/-- The pipe, the flags and the channel of a new pipe change. -/

theorem setPipe (h : CorrInv s) (hnext : s'.nextId = s.nextId) (hcount : s'.count = s.count)
    (hcalls : s'.calls = s.calls) (hpending : s'.pending = s.pending)
    (hserved : s'.served = s.served) (hchannels : s'.channels = s.channels)
    (hreceiver : s'.receiver.Sound s') : CorrInv s' := by
  have hall : ∀ e ∈ s.served, e ∈ s'.served := by
    rw [hserved]
    exact fun _ he => he
  have he : Extends s s' := extends_of_calls hcalls hall
  refine h.congr hnext hcount hcalls (fun id i hi => ?_) hall (fun conn e hin => ?_)
    (fun conn i response hout => ?_) hreceiver
  · rwa [hpending] at hi
  · rw [hchannels] at hin
    exact h.incoming conn e hin
  · rw [hchannels] at hout
    exact (h.outgoing conn i response hout).extends he

/-- What the receiver holds stays sound if the calls and the table stay. -/
theorem receiver_sound (h : CorrInv s) (hcalls : s'.calls = s.calls)
    (hpending : s'.pending = s.pending) (hserved : s'.served = s.served) :
    s.receiver.Sound s' := by
  have hall : ∀ e ∈ s.served, e ∈ s'.served := by
    rw [hserved]
    exact fun _ he => he
  refine h.receiver.extends (extends_of_calls hcalls hall) (fun i a hr => ?_) fun i c hc hd => ?_
  · rw [hpending]
    exact h.lookup_completing hr
  · rw [hcalls]
    exact ⟨c, hc, hd⟩

/-- A call fails when the client disconnects. -/
theorem failPending (h : CorrInv s) :
    CorrInv { s with
      failing := s.failing - 1
      pending := ∅
      calls := fun i => (s.calls i).map fun c => if s.pending.holds i then c.fail else c } := by
  have hsame : ∀ (i : Nat) (c : PendingCall),
      (if s.pending.holds i then c.fail else c).request = c.request ∧
        (if s.pending.holds i then c.fail else c).phase = c.phase := by
    intro i c
    split <;> exact ⟨rfl, rfl⟩
  have he : Extends s { s with
      failing := s.failing - 1
      pending := ∅
      calls := fun i => (s.calls i).map fun c => if s.pending.holds i then c.fail else c } := by
    refine ⟨fun i request hi => ?_, fun _ he => he⟩
    obtain ⟨c, hc, rfl⟩ := Option.map_eq_some_iff.mp hi
    show ((s.calls i).map _).map _ = _
    rw [hc, Option.map_some, Option.map_some, (hsame i c).1]
  -- a call that is in the table has entered it
  have hdrawn : ∀ i c, s.calls i = some c → c.phase = .drawn → s.pending.holds i = false := by
    intro i c hc hphase
    by_contra hholds
    rw [Bool.not_eq_false, PendingTable.holds, List.any_eq_true] at hholds
    obtain ⟨⟨id, j⟩, hmem, hj⟩ := hholds
    cases of_decide_eq_true hj
    obtain ⟨-, d, hd, -, hentered⟩ := h.pending id _ (AList.mem_lookup_iff.mpr hmem)
    cases hc.symm.trans hd
    rw [hphase] at hentered
    cases hentered
  refine ⟨h.nextId, fun i c hc => ?_, fun i c hc => ?_, fun id i hi => ?_, fun conn e hin => ?_,
    fun conn i response hout => (h.outgoing conn i response hout).extends he, ?_⟩
  · obtain ⟨d, hd, -⟩ := Option.map_eq_some_iff.mp hc
    exact h.known i d hd
  · obtain ⟨d, hd, hcd⟩ := Option.map_eq_some_iff.mp hc
    have hsound := (h.sound i d hd).extends he
    by_cases hholds : s.pending.holds i = true
    · rw [if_pos hholds] at hcd
      subst hcd
      refine ⟨hsound.id, fun hphase => ?_, fun a ha => ?_, hsound.returned⟩
      · rw [hdrawn i d hd hphase] at hholds
        cases hholds
      · cases ha
    · rw [if_neg hholds] at hcd
      subst hcd
      exact hsound
  · cases hi
  · obtain ⟨request, hr, hdoc⟩ := h.incoming conn e hin
    exact ⟨request, he.requests _ _ hr, hdoc⟩
  · refine h.receiver.extends he (fun _ _ _ => rfl) fun i c hc hphase => ?_
    refine ⟨if s.pending.holds i then c.fail else c, ?_, ?_⟩
    · show (s.calls i).map _ = _
      rw [hc]
      rfl
    · rw [(hsame i c).2]
      exact hphase

theorem connectionStep (h : CorrInv s) {act : ClientAct} (hs : s.connectionStep act = some s') :
    CorrInv s' := by
  cases act with
  | openPipe isAdmin =>
    cases hs
    have hopened : CorrInv (s.setChannel s.opened { isAdmin }) :=
      h.setChannel (fun e he => absurd he List.not_mem_nil) fun i r he => absurd he List.not_mem_nil
    refine hopened.setPipe rfl rfl rfl rfl rfl rfl ?_
    have hreceiver : s.receiver.Sound { s.setChannel s.opened { isAdmin } with
        pipe := some s.opened
        opened := s.opened + 1
        receiver := s.receiver.reopened } := hopened.receiver_sound rfl rfl rfl
    exact hreceiver.reopened
  | startReceiver =>
    simp only [ClientState.connectionStep] at hs
    split at hs
    next =>
      split at hs
      next => cases hs
      next =>
        cases hs
        exact h.setPipe rfl rfl rfl rfl rfl rfl trivial
    next => cases hs
  | take =>
    simp only [ClientState.connectionStep] at hs
    split at hs
    next =>
      cases hs
      exact h
    next =>
      cases hs
      exact h.setPipe rfl rfl rfl rfl rfl rfl (h.receiver_sound rfl rfl rfl)
  | join =>
    simp only [ClientState.connectionStep] at hs
    split at hs
    next => cases hs
    next =>
      split at hs
      next => cases hs
      next =>
        cases hs
        exact h.setPipe rfl rfl rfl rfl rfl rfl (h.receiver_sound rfl rfl rfl)
  | failPending =>
    simp only [ClientState.connectionStep] at hs
    split at hs
    next => cases hs
    next =>
      cases hs
      exact h.failPending
  | _ => cases hs

theorem serviceStep (h : CorrInv s) {handlers : List Method} {version : String} {act : ClientAct}
    (hs : s.serviceStep handlers version act = some s') : CorrInv s' := by
  cases act with
  | serve conn uptimeSeconds answer =>
    simp only [ClientState.serviceStep] at hs
    split at hs
    next => cases hs
    next origin value rest hin =>
      cases hs
      obtain ⟨request, hrequest, hvalue⟩ := h.incoming conn (origin, value)
        (by rw [hin]; exact List.mem_cons_self)
      obtain ⟨c, hc, rfl⟩ := Option.map_eq_some_iff.mp hrequest
      replace hvalue : value = requestDoc c.request := hvalue
      subst hvalue
      generalize hreply : respond handlers version uptimeSeconds (s.channels conn) answer
        (requestDoc c.request) = reply
      have hall : ∀ e ∈ s.served, e ∈ reply.logged origin ++ s.served :=
        fun e he => List.mem_append_right _ he
      have he : Extends s { s with served := reply.logged origin ++ s.served } :=
        extends_of_calls rfl hall
      have hlogged : CorrInv { s with served := reply.logged origin ++ s.served } := by
        refine h.congr rfl rfl rfl (fun _ _ hi => hi) hall h.incoming
          (fun conn i response hout => (h.outgoing conn i response hout).extends he) ?_
        exact h.receiver.extends he (fun i a hr => h.lookup_completing hr) fun i c hc hd => ⟨c, hc, hd⟩
      refine hlogged.setChannel (fun e hin' => ?_) fun i response hout => ?_
      · exact h.incoming conn e (by rw [hin]; exact List.mem_cons_of_mem _ hin')
      · rcases List.mem_append.mp hout with hout | hout
        · exact (h.outgoing conn i response hout).extends he
        · cases List.mem_singleton.mp hout
          rcases respond_cases handlers version uptimeSeconds (s.channels conn) answer c.request
            hreply with ⟨-, hzero⟩ | ⟨hsome, hid⟩
          · exact Or.inl hzero
          · refine Or.inr ⟨hid.trans (h.sound origin c hc).id, c.request, hrequest, ?_⟩
            refine List.mem_append_left _ ?_
            rw [Reply.logged, hsome]
            exact List.mem_singleton.mpr rfl
  | broadcast conn event =>
    cases hs
    refine h.setChannel (h.incoming conn) fun i response hout => ?_
    rcases List.mem_append.mp hout with hout | hout
    · exact h.outgoing conn i response hout
    · cases List.mem_singleton.mp hout
  | _ => cases hs

/-- A call draws the next id. -/
theorem call (h : CorrInv s) (method : Method) (params : Doc) : CorrInv (s.draw method params) := by
  have hne : ∀ i c, s.calls i = some c → i ≠ s.count := fun i c hc => Nat.ne_of_lt (h.known i c hc)
  have hold : ∀ (f : Option PendingCall) i c, s.calls i = some c →
      Function.update s.calls s.count f i = some c := by
    intro f i c hc
    rw [Function.update_of_ne (hne i c hc), hc]
  have he : Extends s (s.draw method params) := by
    refine ⟨fun i request hi => ?_, fun _ he => he⟩
    obtain ⟨c, hc, rfl⟩ := Option.map_eq_some_iff.mp hi
    exact Option.map_eq_some_iff.mpr ⟨c, hold _ i c hc, rfl⟩
  refine ⟨?_, fun i c hc => ?_, fun i c hc => ?_, fun id i hi => ?_, fun conn e hin => ?_,
    fun conn i response hout => (h.outgoing conn i response hout).extends he, ?_⟩
  · show s.nextId + 1 = callId (s.count + 1)
    rw [h.nextId, callId_succ]
  · rcases update_some_cases hc with ⟨rfl, -⟩ | ⟨-, hc⟩
    · exact Nat.lt_succ_self _
    · exact Nat.lt_succ_of_lt (h.known i c hc)
  · rcases update_some_cases hc with ⟨rfl, rfl⟩ | ⟨-, hc⟩
    · exact ⟨h.nextId, fun _ => rfl, fun a ha => (by cases ha), fun a ha => (by cases ha)⟩
    · exact (h.sound i c hc).extends he
  · obtain ⟨hid, c, hc, hrest⟩ := h.pending id i hi
    exact ⟨hid, c, hold _ i c hc, hrest⟩
  · obtain ⟨request, hr, hdoc⟩ := h.incoming conn e hin
    exact ⟨request, he.requests _ _ hr, hdoc⟩
  · exact h.receiver.extends he (fun i a hr => h.lookup_completing hr)
      fun i c hc hdrawn => ⟨c, hold _ i c hc, hdrawn⟩

theorem init : CorrInv {} :=
  ⟨rfl, fun _ _ hc => (by cases hc), fun _ _ hc => (by cases hc), fun _ _ hi => (by cases hi),
    fun _ _ he => absurd he List.not_mem_nil, fun _ _ _ hout => absurd hout List.not_mem_nil, trivial⟩

theorem step (h : CorrInv s) (hcount : s.count < 2 ^ 64) {handlers : List Method}
    {version : String} {act : ClientAct} (hs : s.step handlers version act = some s') :
    CorrInv s' := by
  rcases step_cases hs with ⟨method, params, -, rfl⟩ | ⟨i, c, hc, hs⟩ | hs | hs | hs
  · exact h.call method params
  · exact h.callStep hcount hc hs
  · exact h.connectionStep hs
  · exact h.receiverStep hcount hs
  · exact h.serviceStep hs

end CorrInv

/-! ## Responses -/

/-- A call returns the response that the service computed for its request, no
two calls return the same, one that arrives after its call has failed is
dropped, and no other call is touched by any. -/
structure Correlated (s : ClientState) : Prop where
  own : ∀ i c a, s.calls i = some c → c.phase = .returned (.ok a) →
    ∃ response, { origin := i, request := c.request, response } ∈ s.served ∧
      a.response = response.received
  once : ∀ i j c d a b, s.calls i = some c → s.calls j = some d →
    c.phase = .returned (.ok a) → d.phase = .returned (.ok b) → a.origin = b.origin → i = j
  late : ∀ a c status, s.receiver = .delivering a → s.calls a.origin = some c →
    c.phase = .returned (.error status) →
      s.receiverStep .deliver = some { s with receiver := .looping }
  others : ∀ a s', s.receiver = .delivering a → s.receiverStep .deliver = some s' →
    s'.calls = s.calls ∧ ∀ id i, i ≠ a.origin →
      (s'.pending.lookup id = some i ↔ s.pending.lookup id = some i)
  completes : ∀ i a, s.receiver = .completing i a → i = a.origin

namespace CorrInv

variable {s s' : ClientState}

theorem late (h : CorrInv s) (hcount : s.count < 2 ^ 64) {a : Answered} {c : PendingCall}
    {status : Status} (hr : s.receiver = .delivering a) (hc : s.calls a.origin = some c)
    (hphase : c.phase = .returned (.error status)) :
    s.receiverStep .deliver = some { s with receiver := .looping } := by
  have hnone : s.pending.lookup a.response.id = none := by
    by_contra hsome
    obtain ⟨i, hi⟩ := Option.ne_none_iff_exists'.mp hsome
    obtain ⟨-, horigin, -⟩ := h.lookup_delivering hcount hr hi
    obtain ⟨-, d, hd, -, hentered⟩ := h.pending _ i hi
    rw [← horigin, hc] at hd
    cases hd
    rw [hphase] at hentered
    cases hentered
  simp only [ClientState.receiverStep, hr, hnone]

theorem others (h : CorrInv s) (hcount : s.count < 2 ^ 64) {a : Answered}
    (hr : s.receiver = .delivering a) (hs : s.receiverStep .deliver = some s') :
    s'.calls = s.calls ∧ ∀ id i, i ≠ a.origin →
      (s'.pending.lookup id = some i ↔ s.pending.lookup id = some i) := by
  simp only [ClientState.receiverStep, hr] at hs
  split at hs
  next =>
    cases hs
    exact ⟨rfl, fun _ _ _ => Iff.rfl⟩
  next j hj =>
    cases hs
    obtain ⟨-, horigin, -⟩ := h.lookup_delivering hcount hr hj
    refine ⟨rfl, fun id i hi => ?_⟩
    show (s.pending.erase a.response.id).lookup id = some i ↔ _
    by_cases hne : id = a.response.id
    · rw [hne, AList.lookup_erase, hj, Option.some.injEq]
      exact iff_of_false (fun hn => (by cases hn)) fun heq => hi (heq.symm.trans horigin.symm)
    · rw [AList.lookup_erase_ne hne]

theorem toCorrelated (h : CorrInv s) (hcount : s.count < 2 ^ 64) : Correlated s where
  own i c a hc hphase := by
    obtain ⟨-, response, ⟨request, hrequest, hserved⟩, hreceived⟩ :=
      (h.sound i c hc).returned a hphase
    rw [requestOf_eq hc] at hrequest
    cases hrequest
    exact ⟨response, hserved, hreceived⟩
  once i j c d a b hc hd hi hj horigin := by
    have howni := ((h.sound i c hc).returned a hi).1
    have hownj := ((h.sound j d hd).returned b hj).1
    exact howni.symm.trans (horigin.trans hownj)
  late a c status hr hc hphase := h.late hcount hr hc hphase
  others a s' hr hs := h.others hcount hr hs
  completes i a hr := by
    have hreceiver := h.receiver
    rw [hr] at hreceiver
    exact hreceiver.1.1.symm

end CorrInv

/-- In every state that is reached with fewer than 2^64 calls, responses and
calls correspond. -/
theorem correlated {handlers : List Method} {version : String} {acts : List ClientAct}
    {s : ClientState} (hr : run (ClientState.step handlers version) {} acts = some s)
    (hcount : s.count < 2 ^ 64) : Correlated s := by
  have hinv : s.count < 2 ^ 64 → CorrInv s := by
    refine run_invariant' (I := fun s => s.count < 2 ^ 64 → CorrInv s)
      (fun s act s' h hs hcount' => ?_) (fun _ => .init) hr
    have hbefore : s.count < 2 ^ 64 := Nat.lt_of_le_of_lt (count_le_of_step hs) hcount'
    exact (h hbefore).step hbefore hs
  exact (hinv hcount).toCorrelated hcount

/-- A call up to its wait, with the response to its frame. -/
def writeAndServe (i : Nat) : List ClientAct :=
  [.register i, .frame i .framed, .write i none, .serve 0 5 (.ok .object)]

/-- The next frame reaches the slot of a call. -/
def receiveOne : List ClientAct := [.look, .read, .deliver, .complete]

def connected : List ClientAct := [.openPipe false, .startReceiver]

/-- Two calls that wait at the same time; the second returns first. -/
def answeredCalls : List ClientAct :=
  .call .hello .object :: .call .listProfiles .object :: connected ++ writeAndServe 0 ++
    writeAndServe 1 ++ receiveOne ++ receiveOne ++ [.finish 1, .finish 0]

/-- The call that the answer of a call came from. -/
def ClientState.originOf (s : ClientState) (i : Nat) : Option Nat :=
  (s.calls i).bind fun c =>
    match c.phase with
    | .returned (.ok a) => some a.origin
    | _ => none

theorem correlated_answered :
    ∃ s, run (ClientState.step [.listProfiles] "1.0") {} answeredCalls = some s ∧
      s.originOf 0 = some 0 ∧ s.originOf 1 = some 1 ∧ Correlated s := by
  have hrun : (run (ClientState.step [.listProfiles] "1.0") {} answeredCalls).map
      (fun s => (s.originOf 0, s.originOf 1, s.count)) = some (some 0, some 1, 2) := by
    decide +kernel
  obtain ⟨s, hs, heq⟩ := Option.map_eq_some_iff.mp hrun
  simp only [Prod.mk.injEq] at heq
  obtain ⟨hfirst, hsecond, hcount⟩ := heq
  exact ⟨s, hs, hfirst, hsecond, correlated hs (by omega)⟩

/-! ## All ids are drawn -/

/-- The state after `n` calls that have done no more than draw their ids: the
first is to list the profiles, the others say hello. -/
def drawnState (n : Nat) : ClientState where
  nextId := callId n
  count := n
  calls i :=
    if i < n then
      some
        { request :=
            { id := callId i, method := if i = 0 then .listProfiles else .hello, params := .object } }
    else none

theorem run_draws (handlers : List Method) (version : String) (n m : Nat) (hm : 0 < m) :
    run (ClientState.step handlers version) (drawnState m)
      (List.replicate n (.call .hello .object)) = some (drawnState (m + n)) := by
  induction n generalizing m with
  | zero => rfl
  | succ n ih =>
    have hstep : (drawnState m).draw .hello .object = drawnState (m + 1) := by
      have hcalls : ((drawnState m).draw .hello .object).calls = (drawnState (m + 1)).calls := by
        funext i
        show Function.update (drawnState m).calls m _ i = _
        by_cases hi : i = m
        · subst hi
          rw [Function.update_self]
          simp [drawnState, Nat.ne_of_gt hm]
        · rw [Function.update_of_ne hi]
          have hiff : i < m + 1 ↔ i < m := by omega
          simp only [drawnState, hiff]
      have hdraw : (drawnState m).draw .hello .object = { drawnState (m + 1) with
          nextId := callId m + 1
          calls := ((drawnState m).draw .hello .object).calls } := rfl
      rw [hdraw, hcalls, callId_succ]
      rfl
    rw [List.replicate_succ, run]
    show run _ ((drawnState m).draw .hello .object) _ = _
    rw [hstep, ih (m + 1) (Nat.succ_pos m)]
    congr 2
    omega

theorem draw_first (handlers : List Method) (version : String) :
    ClientState.step handlers version {} (.call .listProfiles .object) = some (drawnState 1) := by
  have hcalls : (({} : ClientState).draw .listProfiles .object).calls = (drawnState 1).calls := by
    funext i
    show Function.update (fun _ => none) 0 _ i = _
    by_cases hi : i = 0
    · subst hi
      rfl
    · rw [Function.update_of_ne hi]
      have hlt : ¬ i < 1 := by omega
      simp only [drawnState, if_neg hlt]
  have hdraw : ({} : ClientState).draw .listProfiles .object = { drawnState 1 with
      calls := (({} : ClientState).draw .listProfiles .object).calls } := rfl
  rw [ClientState.step, hdraw, hcalls]

/-- The first call enters the table, and the one that has drawn the same id
writes before it. -/
def sameId : List ClientAct :=
  connected ++ [.register 0, .frame 0 .framed, .call .hello .object] ++
    writeAndServe 18446744073709551616 ++ receiveOne ++ [.write 0 none, .finish 0]

/-- The first call returns the response to the other. -/
theorem ids_come_round : ¬ ∀ handlers version acts s,
    run (ClientState.step handlers version) {} acts = some s → Correlated s := by
  intro h
  have hdraws : run (ClientState.step [] "1.0") {} (.call .listProfiles .object ::
      List.replicate 18446744073709551615 (.call .hello .object)) =
        some (drawnState 18446744073709551616) := by
    rw [run, draw_first, Option.bind_some]
    exact run_draws [] "1.0" 18446744073709551615 1 Nat.one_pos
  have hlast : (run (ClientState.step [] "1.0") (drawnState 18446744073709551616) sameId).map
      (fun s => (s.originOf 0, s.served.map (·.origin))) =
        some (some 18446744073709551616, [18446744073709551616]) := by decide +kernel
  obtain ⟨s, hs, heq⟩ := Option.map_eq_some_iff.mp hlast
  obtain ⟨horigin, hserved⟩ := Prod.mk.inj heq
  have hrun : run (ClientState.step [] "1.0") {} ((.call .listProfiles .object ::
      List.replicate 18446744073709551615 (.call .hello .object)) ++ sameId) = some s := by
    rw [run_append, hdraws, Option.bind_some, hs]
  obtain ⟨c, hc, hphase⟩ := Option.bind_eq_some_iff.mp horigin
  split at hphase
  · rename_i a hreturned
    obtain ⟨response, hmem, -⟩ := (h _ _ _ s hrun).own 0 c a hc hreturned
    have horigins := List.mem_map_of_mem (f := fun e : Served => e.origin) hmem
    rw [hserved, List.mem_singleton] at horigins
    replace horigins : 0 = 18446744073709551616 := horigins
    omega
  · cases hphase

end NovaVpn.Ipc
