import NovaVpn.Services.Correlation

/-!
# A lost connection

`receiveLoop` ends when a read fails, and does nothing else: the client stays
connected, and the calls that wait are left to their time limits
(`loss_unnoticed`). It is `disconnect` that clears the flag and fails the
calls. `loss_noticed`: if every loop ends after `disconnect` has taken its
pipe, and `connect` sets the flag while its pipe is there, the end of the loop
is noticed.
-/

namespace NovaVpn.Ipc

open NovaVpn.Framework ClientState

/-- Once the loop has ended the client is not connected; and as soon as no
`disconnect` is under way, no call is left to wait, and those that were in the
table have failed. -/
structure LossNoticed (s : ClientState) : Prop where
  disconnected : s.receiver = .ended → s.connected = false
  completed : s.receiver = .ended → s.joining = 0 → s.failing = 0 →
    ∀ i c, s.calls i = some c → c.phase = .waiting →
      c.slot ≠ none ∧ (i ∈ s.lost → ∃ status, c.slot = some (.error status))

/-- A loop ends by a failed read only after its pipe was taken, `connect` sets
the flag while there is a pipe, and fewer than 2^64 calls are made. -/
def endsByDisconnect (s : ClientState) : ClientAct → Bool
  | .readFails =>
    match s.receiver with
    | .reading conn => s.pipe ≠ some conn
    | _ => true
  | .markConnected _ => s.pipe.isSome
  | .call _ _ => s.count + 1 < 2 ^ 64
  | _ => true

/-- Between the table and the slot of a call. -/
def Completing (s : ClientState) (i : Nat) : Prop := ∃ a, s.receiver = .completing i a

structure LossInv (s : ClientState) : Prop where
  flag : s.connected = true → s.pipe ≠ none
  closed : s.receiver = .ended → s.pipe = none
  listed : ∀ i c, s.calls i = some c → c.phase.entered = true → c.slot = none →
    s.pending.lookup (callId i) = some i ∨ Completing s i
  idle : s.pipe = none → s.joining = 0 → s.failing = 0 →
    ∀ i c, s.calls i = some c → c.phase = .waiting → c.slot ≠ none ∨ Completing s i
  lost : s.receiver = .ended → ∀ i ∈ s.lost, ∀ c a, s.calls i = some c → c.slot ≠ some (.ok a)

namespace LossInv

variable {s s' : ClientState} {i : Nat} {c : PendingCall}

/-- A receiver that is elsewhere completes no call. -/
theorem not_completing {receiver : ReceiverPhase} (hr : s.receiver = receiver)
    (hne : ∀ i a, receiver ≠ .completing i a) (i : Nat) : ¬ Completing s i := by
  rintro ⟨a, ha⟩
  exact hne i a (hr.symm.trans ha)

theorem noticed (h : LossInv s) : LossNoticed s := by
  refine ⟨fun hr => ?_, fun hr hjoining hfailing i c hc hwaiting => ?_⟩
  · by_contra hconnected
    exact h.flag (eq_true_of_ne_false hconnected) (h.closed hr)
  · have hslot : c.slot ≠ none :=
      (h.idle (h.closed hr) hjoining hfailing i c hc hwaiting).resolve_right
        (not_completing hr (fun _ _ ha => by cases ha) i)
    refine ⟨hslot, fun hlost => ?_⟩
    obtain ⟨result, hresult⟩ := Option.ne_none_iff_exists'.mp hslot
    cases result with
    | error status => exact ⟨status, hresult⟩
    | ok a => exact absurd hresult (h.lost hr i hlost c a hc)

/-- A call moves on, with its entry in the table. -/
theorem setCall (h : LossInv s) (hc : s.calls i = some c) (c' : PendingCall) (pending : PendingTable)
    (hothers : ∀ j, j ≠ i → s.pending.lookup (callId j) = some j →
      pending.lookup (callId j) = some j)
    (hlisted : c'.phase.entered = true → c'.slot = none →
      pending.lookup (callId i) = some i ∨ Completing s i)
    (hidle : c'.phase = .waiting → s.pipe ≠ none ∨ c.phase = .waiting)
    (hslot : c'.slot = c.slot) :
    LossInv ({ s with pending }.setCall i c') := by
  refine ⟨h.flag, h.closed, fun j d hd hentered hnone => ?_,
    fun hpipe hjoining hfailing j d hd hwaiting => ?_, fun hr j hj d a hd => ?_⟩
  · rcases update_some_cases hd with ⟨rfl, rfl⟩ | ⟨hne, hd⟩
    · exact hlisted hentered hnone
    · exact (h.listed j d hd hentered hnone).imp_left (hothers j hne)
  · rcases update_some_cases hd with ⟨rfl, rfl⟩ | ⟨-, hd⟩
    · rw [hslot]
      exact h.idle hpipe hjoining hfailing j c hc ((hidle hwaiting).resolve_left fun hne => hne hpipe)
    · exact h.idle hpipe hjoining hfailing j d hd hwaiting
  · rcases update_some_cases hd with ⟨rfl, rfl⟩ | ⟨-, hd⟩
    · rw [hslot]
      exact h.lost hr j hj c a hc
    · exact h.lost hr j hj d a hd

/-- A call moves on, and the table stays. -/
theorem setPhase (h : LossInv s) (hc : s.calls i = some c) {phase : CallPhase}
    (hentered : phase.entered = true → c.phase.entered = true)
    (hidle : phase = .waiting → s.pipe ≠ none) : LossInv (s.setPhase i c phase) :=
  h.setCall hc { c with phase } s.pending (fun _ _ hj => hj)
    (fun hphase hnone => h.listed i c hc (hentered hphase) hnone)
    (fun hphase => Or.inl (hidle hphase)) rfl

/-- Frames go to and fro. -/
theorem setChannel (h : LossInv s) (conn : Nat) (channel : Channel) (served : List Served) :
    LossInv ({ s with served }.setChannel conn channel) :=
  ⟨h.flag, h.closed, h.listed, h.idle, h.lost⟩

/-- A call leaves the ids of the others alone. -/
theorem callId_ne (hinv : CorrInv s) (hcount : s.count < 2 ^ 64) (hc : s.calls i = some c) {j : Nat}
    (hne : j ≠ i) (hj : s.pending.lookup (callId j) = some j) : callId j ≠ c.request.id := by
  obtain ⟨-, d, hd, -⟩ := hinv.pending _ j hj
  rw [(hinv.sound i c hc).id]
  intro heq
  exact hne (callId_inj hcount (hinv.known j d hd) (hinv.known i c hc) heq)

/-- Nobody else waits under the id that the call has drawn. -/
theorem callRegister (h : LossInv s) (hinv : CorrInv s) (hcount : s.count < 2 ^ 64)
    (hc : s.calls i = some c) {j : Nat} (hs : s.callStep i c (.register j) = some s') :
    LossInv s' := by
  have hid := (hinv.sound i c hc).id
  simp only [ClientState.callStep] at hs
  split at hs
  next hphase =>
    cases hs
    have hfree : c.request.id ∉ s.pending := by
      intro hmem
      obtain ⟨k, hk⟩ := Option.isSome_iff_exists.mp (AList.lookup_isSome.mpr hmem)
      obtain ⟨hkid, d, hd, -, hentered⟩ := hinv.pending _ k hk
      cases callId_inj hcount (hinv.known i c hc) (hinv.known k d hd) (hid.symm.trans hkid)
      cases hc.symm.trans hd
      rw [hphase] at hentered
      cases hentered
    refine h.setCall hc { c with phase := .registered } _ (fun k hk hlookup => ?_)
      (fun _ _ => Or.inl ?_) (fun hwaiting => by cases hwaiting) rfl
    · rw [PendingTable.emplace, if_neg hfree,
        AList.lookup_insert_ne (callId_ne hinv hcount hc hk hlookup), hlookup]
    · rw [PendingTable.emplace, if_neg hfree, ← hid, AList.lookup_insert]
  next => cases hs

theorem callFrame (h : LossInv s) (hc : s.calls i = some c) {j : Nat} {outcome : Framing}
    (hs : s.callStep i c (.frame j outcome) = some s') : LossInv s' := by
  simp only [ClientState.callStep] at hs
  split at hs
  next hphase =>
    cases hs
    have hentered : c.phase.entered = true := by rw [hphase]; rfl
    cases outcome with
    | framed => exact h.setPhase hc (fun _ => hentered) fun hwaiting => by cases hwaiting
    | failed status => exact h.setPhase hc (fun _ => hentered) fun hwaiting => by cases hwaiting
    | throws => exact h.setPhase hc (fun _ => hentered) fun hwaiting => by cases hwaiting
  next => cases hs

theorem callWrite (h : LossInv s) (hc : s.calls i = some c) {j : Nat} {failure : Option Status}
    (hs : s.callStep i c (.write j failure) = some s') : LossInv s' := by
  simp only [ClientState.callStep] at hs
  split at hs
  next hphase =>
    have hentered : c.phase.entered = true := by rw [hphase]; rfl
    split at hs
    next =>
      cases hs
      exact h.setPhase hc (fun _ => hentered) fun hwaiting => by cases hwaiting
    next conn hpipe =>
      split at hs
      next =>
        cases hs
        exact h.setPhase hc (fun _ => hentered) fun hwaiting => by cases hwaiting
      next =>
        cases hs
        refine (h.setChannel conn _ s.served).setPhase hc (fun _ => hentered) fun _ => ?_
        show s.pipe ≠ none
        rw [hpipe]
        exact Option.some_ne_none conn
  next => cases hs

theorem callFinish (h : LossInv s) (hc : s.calls i = some c) {j : Nat}
    (hs : s.callStep i c (.finish j) = some s') : LossInv s' := by
  simp only [ClientState.callStep] at hs
  split at hs
  next =>
    cases hs
    exact h.setPhase hc (fun hentered => by cases hentered) fun hwaiting => by cases hwaiting
  next => cases hs

theorem callTimeout (h : LossInv s) (hc : s.calls i = some c) {j : Nat}
    (hs : s.callStep i c (.timeout j) = some s') : LossInv s' := by
  simp only [ClientState.callStep] at hs
  split at hs
  next hphase hslot =>
    cases hs
    exact h.setPhase hc (fun _ => by rw [hphase]; rfl) fun hwaiting => by cases hwaiting
  next => cases hs

/-- A call that gives up takes its entry with it, and no other. -/
theorem callCancel (h : LossInv s) (hinv : CorrInv s) (hcount : s.count < 2 ^ 64)
    (hc : s.calls i = some c) {j : Nat} (hs : s.callStep i c (.cancel j) = some s') :
    LossInv s' := by
  simp only [ClientState.callStep] at hs
  split at hs
  next status hphase =>
    cases hs
    refine h.setCall hc { c with phase := .returned (.error status) } _ (fun k hk hlookup => ?_)
      (fun hentered => by cases hentered) (fun hwaiting => by cases hwaiting) rfl
    rw [AList.lookup_erase_ne (callId_ne hinv hcount hc hk hlookup), hlookup]
  next => cases hs

theorem callMarkConnected (h : LossInv s) {j : Nat}
    (hok : endsByDisconnect s (.markConnected j) = true)
    (hs : s.callStep i c (.markConnected j) = some s') : LossInv s' := by
  simp only [ClientState.callStep] at hs
  split at hs
  next =>
    split at hs
    next =>
      cases hs
      exact ⟨fun _ => Option.isSome_iff_ne_none.mp hok, h.closed, h.listed, h.idle, h.lost⟩
    next => cases hs
  next => cases hs

theorem callStep (h : LossInv s) (hinv : CorrInv s) (hcount : s.count < 2 ^ 64)
    (hc : s.calls i = some c) {act : ClientAct} (hok : endsByDisconnect s act = true)
    (hs : s.callStep i c act = some s') : LossInv s' := by
  cases act with
  | register j => exact h.callRegister hinv hcount hc hs
  | frame j outcome => exact h.callFrame hc hs
  | write j failure => exact h.callWrite hc hs
  | finish j => exact h.callFinish hc hs
  | timeout j => exact h.callTimeout hc hs
  | cancel j => exact h.callCancel hinv hcount hc hs
  | markConnected j => exact h.callMarkConnected hok hs
  | _ => cases hs

/-- The receiver moves on without a call in its hands. -/
theorem setReceiver (h : LossInv s) (hr : ∀ i, ¬ Completing s i)
    (receiver : ReceiverPhase) (lost : List Nat) (hclosed : receiver = .ended → s.pipe = none)
    (hlost : receiver = .ended → ∀ i ∈ lost, ∀ c a, s.calls i = some c → c.slot ≠ some (.ok a)) :
    LossInv { s with receiver, lost } := by
  refine ⟨h.flag, hclosed, fun i c hc hentered hnone => Or.inl ?_,
    fun hpipe hjoining hfailing i c hc hwaiting => Or.inl ?_, hlost⟩
  · exact (h.listed i c hc hentered hnone).resolve_right (hr i)
  · exact (h.idle hpipe hjoining hfailing i c hc hwaiting).resolve_right (hr i)

/-- A call that is in the table when the loop ends has no answer. -/
theorem slot_of_pending (hinv : CorrInv s) (hi : i ∈ s.pending.entries.map (·.2))
    (hc : s.calls i = some c) : c.slot = none := by
  obtain ⟨⟨id, j⟩, hmem, rfl⟩ := List.mem_map.mp hi
  obtain ⟨-, d, hd, hslot, -⟩ := hinv.pending id _ (AList.mem_lookup_iff.mpr hmem)
  cases hc.symm.trans hd
  exact hslot

theorem ends (h : LossInv s) (hinv : CorrInv s) (hr : ∀ i, ¬ Completing s i)
    (hpipe : s.pipe = none) :
    LossInv { s with receiver := .ended, lost := s.pending.entries.map (·.2) } := by
  refine h.setReceiver hr .ended _ (fun _ => hpipe) fun _ i hi c a hc ha => ?_
  rw [slot_of_pending hinv hi hc] at ha
  cases ha

theorem receiverLook (h : LossInv s) (hinv : CorrInv s)
    (hs : s.receiverStep .look = some s') : LossInv s' := by
  simp only [ClientState.receiverStep] at hs
  split at hs
  next hr =>
    have hne := not_completing hr fun _ _ ha => by cases ha
    split at hs
    next hpipe =>
      cases hs
      exact h.ends hinv hne hpipe
    next conn hpipe =>
      cases hs
      exact h.setReceiver hne (.reading conn) s.lost (fun hended => by cases hended)
        fun hended => by cases hended
  next => cases hs

theorem receiverRead (h : LossInv s) (hs : s.receiverStep .read = some s') : LossInv s' := by
  simp only [ClientState.receiverStep] at hs
  split at hs
  next conn hr =>
    split at hs
    next => cases hs
    next frame rest hout =>
      cases hs
      have hne := not_completing hr fun _ _ ha => by cases ha
      have hread := h.setChannel conn { s.channels conn with outgoing := rest } s.served
      cases frame.received with
      | none =>
        exact hread.setReceiver hne .looping s.lost (fun hended => by cases hended)
          fun hended => by cases hended
      | some answer =>
        exact hread.setReceiver hne (.delivering answer) s.lost (fun hended => by cases hended)
          fun hended => by cases hended
  next => cases hs

theorem receiverReadFails (h : LossInv s) (hinv : CorrInv s) (hok : endsByDisconnect s .readFails = true)
    (hs : s.receiverStep .readFails = some s') : LossInv s' := by
  simp only [ClientState.receiverStep] at hs
  split at hs
  next conn hr =>
    have hne := not_completing hr fun _ _ ha => by cases ha
    have hpipe : s.pipe ≠ some conn := by simpa [endsByDisconnect, hr] using hok
    split at hs
    next hlater =>
      cases hs
      refine h.ends hinv hne ?_
      -- the pipe is either gone or a later one
      cases hlast : s.pipe with
      | none => rfl
      | some later =>
        rw [hlast, Option.all_some, decide_eq_true_eq] at hlater
        rw [hlast, hlater] at hpipe
        exact absurd rfl hpipe
    next =>
      cases hs
      exact h.setReceiver hne .starting s.lost (fun hended => by cases hended)
        fun hended => by cases hended
  next => cases hs

theorem receiverDeliver (h : LossInv s) (hinv : CorrInv s) (hcount : s.count < 2 ^ 64)
    (hs : s.receiverStep .deliver = some s') : LossInv s' := by
  simp only [ClientState.receiverStep] at hs
  split at hs
  next a hr =>
    have hne := not_completing hr fun _ _ ha => by cases ha
    split at hs
    next =>
      cases hs
      exact h.setReceiver hne .looping s.lost (fun hended => by cases hended)
        fun hended => by cases hended
    next i hi =>
      cases hs
      obtain ⟨hid, -⟩ := hinv.lookup_delivering hcount hr hi
      refine ⟨h.flag, fun hended => (by cases hended), fun j d hd hentered hnone => ?_,
        fun hpipe hjoining hfailing j d hd hwaiting => Or.inl ?_, fun hended => (by cases hended)⟩
      · have hj := (h.listed j d hd hentered hnone).resolve_right (hne j)
        by_cases heq : j = i
        · subst heq
          exact Or.inr ⟨a, rfl⟩
        · refine Or.inl ?_
          have hother : callId j ≠ a.response.id := by
            intro hsame
            rw [hsame, hi, Option.some.injEq] at hj
            exact heq hj.symm
          show (s.pending.erase a.response.id).lookup (callId j) = some j
          rw [AList.lookup_erase_ne hother, hj]
      · have hslot := h.idle hpipe hjoining hfailing j d hd hwaiting
        exact hslot.resolve_right (hne j)
  next => cases hs

theorem receiverComplete (h : LossInv s)
    (hs : s.receiverStep .complete = some s') : LossInv s' := by
  simp only [ClientState.receiverStep] at hs
  split at hs
  next i a hr =>
    obtain ⟨c, hc, hs⟩ := Option.map_eq_some_iff.mp hs
    subst hs
    have hcall : ∀ j d, Function.update s.calls i (some { c with slot := some (.ok a) }) j = some d →
        d.slot ≠ none ∨ (s.calls j = some d ∧ ¬ Completing s j) := by
      intro j d hd
      rcases update_some_cases hd with ⟨-, rfl⟩ | ⟨hne, hd⟩
      · exact Or.inl (Option.some_ne_none _)
      · refine Or.inr ⟨hd, ?_⟩
        rintro ⟨b, hb⟩
        rw [hr] at hb
        cases hb
        exact hne rfl
    refine ⟨h.flag, fun hended => (by cases hended), fun j d hd hentered hnone => Or.inl ?_,
      fun hpipe hjoining hfailing j d hd hwaiting => Or.inl ?_, fun hended => (by cases hended)⟩
    · obtain ⟨hd, hcompleting⟩ := (hcall j d hd).resolve_left fun hslot => hslot hnone
      exact (h.listed j d hd hentered hnone).resolve_right hcompleting
    · rcases hcall j d hd with hslot | ⟨hd, hcompleting⟩
      · exact hslot
      · exact (h.idle hpipe hjoining hfailing j d hd hwaiting).resolve_right hcompleting
  next => cases hs

theorem receiverStep (h : LossInv s) (hinv : CorrInv s) (hcount : s.count < 2 ^ 64)
    {act : ClientAct} (hok : endsByDisconnect s act = true) (hs : s.receiverStep act = some s') :
    LossInv s' := by
  cases act with
  | look => exact h.receiverLook hinv hs
  | read => exact h.receiverRead hs
  | readFails => exact h.receiverReadFails hinv hok hs
  | deliver => exact h.receiverDeliver hinv hcount hs
  | complete => exact h.receiverComplete hs
  | _ => cases hs

theorem openPipe (h : LossInv s) (isAdmin : Bool) :
    LossInv { s.setChannel s.opened { isAdmin } with
      pipe := some s.opened
      opened := s.opened + 1
      receiver := s.receiver.reopened } := by
  have hended : s.receiver.reopened ≠ .ended := by
    cases s.receiver <;> exact fun h => by cases h
  refine ⟨fun _ => Option.some_ne_none _, fun hr => absurd hr hended,
    fun i c hc hentered hnone => (h.listed i c hc hentered hnone).imp_right ?_,
    fun hpipe => (by cases hpipe), fun hr => absurd hr hended⟩
  rintro ⟨a, ha⟩
  refine ⟨a, ?_⟩
  show s.receiver.reopened = _
  rw [ha]
  rfl

/-- Every call that waits without an answer is failed. -/
theorem failPending (h : LossInv s) :
    LossInv { s with
      failing := s.failing - 1
      pending := ∅
      calls := fun i => (s.calls i).map fun c => if s.pending.holds i then c.fail else c } := by
  have hcall : ∀ i d, (s.calls i).map (fun c => if s.pending.holds i then c.fail else c) = some d →
      ∃ c, s.calls i = some c ∧ d.phase = c.phase ∧
        (d.slot = some (.error (Err.make .cancelled "client disconnected")) ∨
          s.pending.holds i = false ∧ d.slot = c.slot) := by
    intro i d hd
    obtain ⟨c, hc, rfl⟩ := Option.map_eq_some_iff.mp hd
    refine ⟨c, hc, ?_⟩
    split
    next => exact ⟨rfl, Or.inl rfl⟩
    next hholds => exact ⟨rfl, Or.inr ⟨eq_false_of_ne_true hholds, rfl⟩⟩
  have hheld : ∀ i, s.pending.holds i = false → s.pending.lookup (callId i) ≠ some i := by
    intro i hholds hi
    have hmem : (⟨callId i, i⟩ : Sigma fun _ : UInt64 => Nat) ∈ s.pending.entries :=
      AList.mem_lookup_iff.mp hi
    have htrue : s.pending.holds i = true :=
      List.any_eq_true.mpr ⟨_, hmem, decide_eq_true rfl⟩
    rw [hholds] at htrue
    cases htrue
  have hlisted : ∀ i d, (s.calls i).map (fun c => if s.pending.holds i then c.fail else c) = some d →
      d.phase.entered = true → d.slot = none → Completing s i := by
    intro i d hd hentered hnone
    obtain ⟨c, hc, hphase, hslot | ⟨hholds, hslot⟩⟩ := hcall i d hd
    · rw [hnone] at hslot
      cases hslot
    · rw [hphase] at hentered
      exact (h.listed i c hc hentered (hslot.symm.trans hnone)).resolve_left (hheld i hholds)
  refine ⟨h.flag, h.closed, fun i d hd hentered hnone => Or.inr (hlisted i d hd hentered hnone),
    fun _ _ _ i d hd hwaiting => ?_, fun hr i hi d a hd ha => ?_⟩
  · by_cases hnone : d.slot = none
    · refine Or.inr (hlisted i d hd ?_ hnone)
      rw [hwaiting]
      rfl
    · exact Or.inl hnone
  · obtain ⟨c, hc, -, hslot | ⟨-, hslot⟩⟩ := hcall i d hd
    · rw [ha] at hslot
      cases hslot
    · exact h.lost hr i hi c a hc (hslot.symm.trans ha)

theorem connectionStep (h : LossInv s) {act : ClientAct} (hs : s.connectionStep act = some s') :
    LossInv s' := by
  cases act with
  | openPipe isAdmin =>
    cases hs
    exact h.openPipe isAdmin
  | startReceiver =>
    simp only [ClientState.connectionStep] at hs
    split at hs
    next hr =>
      split at hs
      next => cases hs
      next =>
        cases hs
        have hne := not_completing hr fun _ _ ha => by cases ha
        have hlooping := h.setReceiver hne .looping [] (fun hended => by cases hended)
          fun hended => by cases hended
        exact ⟨hlooping.flag, hlooping.closed, hlooping.listed, hlooping.idle, hlooping.lost⟩
    next => cases hs
  | take =>
    simp only [ClientState.connectionStep] at hs
    split at hs
    next =>
      cases hs
      exact h
    next =>
      cases hs
      exact ⟨fun hconnected => (by cases hconnected), fun _ => rfl, h.listed,
        fun _ hjoining => (by cases hjoining), h.lost⟩
  | join =>
    simp only [ClientState.connectionStep] at hs
    split at hs
    next => cases hs
    next =>
      split at hs
      next => cases hs
      next =>
        cases hs
        exact ⟨h.flag, h.closed, h.listed, fun _ _ hfailing => (by cases hfailing), h.lost⟩
  | failPending =>
    simp only [ClientState.connectionStep] at hs
    split at hs
    next => cases hs
    next =>
      cases hs
      exact h.failPending
  | _ => cases hs

theorem serviceStep (h : LossInv s) {handlers : List Method} {version : String} {act : ClientAct}
    (hs : s.serviceStep handlers version act = some s') : LossInv s' := by
  cases act with
  | serve conn uptimeSeconds answer =>
    simp only [ClientState.serviceStep] at hs
    split at hs
    next => cases hs
    next =>
      cases hs
      exact h.setChannel conn _ _
  | broadcast conn event =>
    cases hs
    exact h.setChannel conn _ s.served
  | _ => cases hs

theorem call (h : LossInv s) (method : Method) (params : Doc) :
    LossInv (s.draw method params) := by
  have hcall : ∀ i d, (s.draw method params).calls i = some d →
      s.calls i = some d ∨ (d.phase = .drawn ∧ d.slot = none) := by
    intro i d hd
    rcases update_some_cases hd with ⟨-, rfl⟩ | ⟨-, hd⟩
    · exact Or.inr ⟨rfl, rfl⟩
    · exact Or.inl hd
  refine ⟨h.flag, h.closed, fun i d hd hentered hnone => ?_,
    fun hpipe hjoining hfailing i d hd hwaiting => ?_, fun hr i hi d a hd ha => ?_⟩
  · rcases hcall i d hd with hd | ⟨hdrawn, -⟩
    · exact h.listed i d hd hentered hnone
    · rw [hdrawn] at hentered
      cases hentered
  · rcases hcall i d hd with hd | ⟨hdrawn, -⟩
    · exact h.idle hpipe hjoining hfailing i d hd hwaiting
    · rw [hdrawn] at hwaiting
      cases hwaiting
  · rcases hcall i d hd with hd | ⟨-, hnone⟩
    · exact h.lost hr i hi d a hd ha
    · rw [hnone] at ha
      cases ha

theorem step (h : LossInv s) (hinv : CorrInv s) (hcount : s.count < 2 ^ 64)
    {handlers : List Method} {version : String} {act : ClientAct}
    (hok : endsByDisconnect s act = true) (hs : s.step handlers version act = some s') :
    LossInv s' := by
  rcases step_cases hs with ⟨method, params, -, rfl⟩ | ⟨i, c, hc, hs⟩ | hs | hs | hs
  · exact h.call method params
  · exact h.callStep hinv hcount hc hok hs
  · exact h.connectionStep hs
  · exact h.receiverStep hinv hcount hok hs
  · exact h.serviceStep hs

theorem init : LossInv {} :=
  ⟨fun hconnected => (by cases hconnected), fun _ => rfl, fun _ _ hc => (by cases hc),
    fun _ _ _ _ _ hc => (by cases hc), fun _ _ hi => absurd hi List.not_mem_nil⟩

end LossInv

theorem loss_noticed {handlers : List Method} {version : String} {acts : List ClientAct}
    {s : ClientState}
    (hok : RunMeets (ClientState.step handlers version) (fun s act => endsByDisconnect s act = true)
      {} acts)
    (hr : run (ClientState.step handlers version) {} acts = some s) : LossNoticed s := by
  have hinv : CorrInv s ∧ s.count < 2 ^ 64 ∧ LossInv s := by
    refine run_invariant (I := fun s => CorrInv s ∧ s.count < 2 ^ 64 ∧ LossInv s)
      (fun s act s' h hok hs => ?_) ⟨.init, by decide, .init⟩ hok hr
    obtain ⟨hinv, hcount, h⟩ := h
    refine ⟨hinv.step hcount hs, ?_, h.step hinv hcount hok hs⟩
    rcases count_cases hs with hsame | ⟨method, params, rfl, hnext⟩
    · rwa [hsame]
    · rw [hnext]
      exact of_decide_eq_true hok
  exact hinv.2.2.noticed

/-- `connect`, up to the flag, and a second call that waits. -/
def callWaits : List ClientAct :=
  .call .hello .object :: connected ++ writeAndServe 0 ++ receiveOne ++
    [.finish 0, .markConnected 0, .call .hello .object, .register 1, .frame 1 .framed,
      .write 1 none, .look]

/-- The flag, and whether a call that waits has been completed. -/
def ClientState.waits (s : ClientState) (i : Nat) : Option (Bool × Bool) :=
  (s.calls i).bind fun c =>
    match c.phase with
    | .waiting => some (s.connected, c.slot.isSome)
    | _ => none

theorem loss_noticed_disconnect : ∃ s, run (ClientState.step [] "1.0") {}
    (callWaits ++ [.take, .readFails, .join, .failPending]) = some s ∧
      s.waits 1 = some (false, true) ∧ LossNoticed s := by
  have hok : RunMeets (ClientState.step [] "1.0") (fun s act => endsByDisconnect s act = true) {}
      (callWaits ++ [.take, .readFails, .join, .failPending]) := by decide +kernel
  have hrun : (run (ClientState.step [] "1.0") {}
      (callWaits ++ [.take, .readFails, .join, .failPending])).map (fun s => s.waits 1) =
        some (some (false, true)) := by decide +kernel
  obtain ⟨s, hs, hwaits⟩ := Option.map_eq_some_iff.mp hrun
  exact ⟨s, hs, hwaits, loss_noticed hok hs⟩

def ReceiverPhase.isEnded : ReceiverPhase → Bool
  | ended => true
  | _ => false

/-- The service goes away, and the client is still connected. -/
theorem loss_unnoticed : ¬ ∀ handlers version acts s,
    run (ClientState.step handlers version) {} acts = some s → LossNoticed s := by
  intro h
  have hrun : (run (ClientState.step [] "1.0") {} (callWaits ++ [.readFails])).map
      (fun s => (s.receiver.isEnded, s.connected)) = some (true, true) := by decide +kernel
  obtain ⟨s, hs, heq⟩ := Option.map_eq_some_iff.mp hrun
  obtain ⟨hended, hconnected⟩ := Prod.mk.inj heq
  have hr : s.receiver = .ended := by
    cases hreceiver : s.receiver <;> rw [hreceiver] at hended <;> cases hended
  have hnot := (h _ _ _ s hs).disconnected hr
  rw [hconnected] at hnot
  cases hnot

end NovaVpn.Ipc
