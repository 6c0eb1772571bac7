import Mathlib.Data.List.MinMax
import Mathlib.Data.List.Nodup
import NovaVpn.Framework.Prog
import NovaVpn.Networking.IpAddress

/-!
# The Windows Filtering Platform, as the engine uses it

A filter is what `FwpmFilterAdd0` is given (`FilterSpec`: layer, provider,
sublayer, weight, action, conditions, the persistent flag and a name)
together with the identifier the platform gave it and the dynamic session
that added it. A flow is decided inside a sublayer, at the connect layer of
its family, by the matching filter of greatest weight (`decision`).

`FwWorld` is the state of the platform: the filters in force, the working
copy of the open transaction, and the sessions this process holds open. What
a transaction does shows only when it commits; closing a session, and the end
of the process, drops the filters it added that are not persistent. A call
fails by answering an error code other than success, without change.
-/

namespace NovaVpn.Firewall

open NovaVpn.Framework NovaVpn.Net

/-! ## Filters -/

abbrev Guid := BitVec 128

inductive Layer where
  /-- `FWPM_LAYER_ALE_AUTH_CONNECT_V4`. -/
  | connectV4
  /-- `FWPM_LAYER_ALE_AUTH_CONNECT_V6`. -/
  | connectV6
  /-- Any layer this program does not use. -/
  | other (key : Guid)
  deriving DecidableEq, Repr

inductive Action where
  | block
  | permit
  deriving DecidableEq, Repr

/-- The value a field is compared with, by `FWP_MATCH_EQUAL`. -/
inductive ConditionValue where
  | uint64 (value : UInt64)
  | uint32 (value : BitVec 32)
  | byteArray16 (bytes : List Byte)
  | v4AddrMask (addr mask : BitVec 32)
  | v6AddrMask (addr : List Byte) (prefixLength : Nat)
  deriving DecidableEq, Repr

inductive ConditionField where
  | ipLocalInterface
  | ipRemoteAddress
  deriving DecidableEq, Repr

structure Condition where
  fieldKey : ConditionField
  conditionValue : ConditionValue
  deriving DecidableEq, Repr

structure FilterSpec where
  layerKey : Layer
  subLayerKey : Guid
  providerKey : Option Guid
  name : String
  weight : UInt8
  persistent : Bool
  action : Action
  conditions : List Condition := []
  deriving DecidableEq, Repr

structure Filter where
  id : Nat
  spec : FilterSpec
  /-- The session of this program that added it. -/
  session : Option Nat := none
  deriving DecidableEq, Repr

/-! ## Flows and their decision -/

inductive Transport where
  | udp
  | tcp
  deriving DecidableEq, Repr

/-- An outbound flow, as the connect layers see it. -/
structure Flow where
  localInterface : UInt64
  remoteAddress : IpAddress
  transport : Transport := .udp
  remotePort : UInt16 := 0
  deriving DecidableEq, Repr

/-- The layer a flow is authorised at. -/
def Flow.layer (flow : Flow) : Layer :=
  match flow.remoteAddress.family with
  | .ipv4 => .connectV4
  | .ipv6 => .connectV6

/-- An IPv4 address in the platform's host-order word. -/
def v4Word : List Byte → BitVec 32
  | [a, b, c, d] => beWord a b c d
  | _ => 0

def Condition.matches (c : Condition) (flow : Flow) : Bool :=
  match c.fieldKey, c.conditionValue with
  | .ipLocalInterface, .uint64 luid => flow.localInterface = luid
  | .ipRemoteAddress, .uint32 addr =>
    flow.remoteAddress.family = .ipv4 ∧ v4Word flow.remoteAddress.bytes = addr
  | .ipRemoteAddress, .byteArray16 bytes =>
    flow.remoteAddress.family = .ipv6 ∧ flow.remoteAddress.bytes = bytes
  | .ipRemoteAddress, .v4AddrMask addr mask =>
    flow.remoteAddress.family = .ipv4 ∧ v4Word flow.remoteAddress.bytes &&& mask = addr &&& mask
  | .ipRemoteAddress, .v6AddrMask addr prefixLength =>
    flow.remoteAddress.family = .ipv6 ∧ AgreeOn prefixLength flow.remoteAddress.bytes addr
  | _, _ => false

def FilterSpec.matches (f : FilterSpec) (flow : Flow) : Bool :=
  f.layerKey = flow.layer ∧ f.conditions.all (·.matches flow)

/-- What a sublayer says of a flow: the action of the matching filter of
greatest weight, and nothing if none matches. -/
def decision (sublayer : Guid) (filters : List FilterSpec) (flow : Flow) : Option Action :=
  ((filters.filter fun f => f.subLayerKey = sublayer && f.matches flow).argmax
    (·.weight.toNat)).map (·.action)

section Decision

variable {sublayer : Guid} {filters : List FilterSpec} {flow : Flow}

theorem decision_eq_some {a : Action} (h : decision sublayer filters flow = some a) :
    ∃ f ∈ filters, f.subLayerKey = sublayer ∧ f.matches flow = true ∧ f.action = a ∧
      ∀ g ∈ filters, g.subLayerKey = sublayer → g.matches flow = true → g.weight ≤ f.weight := by
  rw [decision, Option.map_eq_some_iff] at h
  obtain ⟨f, hf, rfl⟩ := h
  have hmem := List.argmax_mem hf
  simp only [List.mem_filter, Bool.and_eq_true, decide_eq_true_eq] at hmem
  refine ⟨f, hmem.1, hmem.2.1, hmem.2.2, rfl, fun g hg hs hm => ?_⟩
  have hle := List.le_of_mem_argmax (f := fun f : FilterSpec => f.weight.toNat)
    (List.mem_filter.mpr ⟨hg, by simp [hs, hm]⟩) hf
  exact UInt8.le_iff_toNat_le.mpr hle

/-- A flow that some filter matches is decided. -/
theorem decision_isSome {f : FilterSpec} (hf : f ∈ filters) (hs : f.subLayerKey = sublayer)
    (hm : f.matches flow = true) : ∃ a, decision sublayer filters flow = some a := by
  have hmem : f ∈ filters.filter fun f => f.subLayerKey = sublayer && f.matches flow :=
    List.mem_filter.mpr ⟨hf, by simp [hs, hm]⟩
  cases h : (filters.filter fun f => f.subLayerKey = sublayer && f.matches flow).argmax
      (·.weight.toNat) with
  | none => rw [List.argmax_eq_none.mp h] at hmem; cases hmem
  | some g => exact ⟨g.action, by rw [decision, h]; rfl⟩

/-- Where every permit outweighs every block, a flow is permitted if and only
if some permit matches it. -/
theorem decision_permit_iff (hsub : ∀ f ∈ filters, f.subLayerKey = sublayer)
    (hweight : ∀ f ∈ filters, ∀ g ∈ filters, f.action = .block → g.action = .permit →
      f.weight < g.weight) :
    decision sublayer filters flow = some .permit ↔
      ∃ f ∈ filters, f.action = .permit ∧ f.matches flow = true := by
  constructor
  · intro h
    obtain ⟨f, hf, -, hm, ha, -⟩ := decision_eq_some h
    exact ⟨f, hf, ha, hm⟩
  · rintro ⟨g, hg, hga, hgm⟩
    obtain ⟨a, ha⟩ := decision_isSome hg (hsub g hg) hgm
    obtain ⟨f, hf, -, -, hfa, hmax⟩ := decision_eq_some ha
    have hle := hmax g hg (hsub g hg) hgm
    cases a with
    | permit => exact ha
    | block => exact absurd (hweight f hf g hg hfa hga) (UInt8.not_lt.mpr hle)

end Decision

/-! ## The table of filters -/

/-- The filters of the machine. Identifiers are unique, and all below the
next one the platform will give. -/
@[ext] structure FilterTable where
  filters : List Filter
  nextId : Nat
  nodup : (filters.map Filter.id).Nodup
  fresh : ∀ f ∈ filters, f.id < nextId

namespace FilterTable

def empty : FilterTable := ⟨[], 0, List.nodup_nil, fun _ h => absurd h List.not_mem_nil⟩

/-- The table of the filters that satisfy `p`. -/
def keep (t : FilterTable) (p : Filter → Bool) : FilterTable where
  filters := t.filters.filter p
  nextId := t.nextId
  nodup := t.nodup.sublist (List.filter_sublist.map _)
  fresh f hf := t.fresh f (List.mem_of_mem_filter hf)

theorem keep_eq_self {t : FilterTable} {p : Filter → Bool} (h : ∀ f ∈ t.filters, p f = true) :
    t.keep p = t :=
  FilterTable.ext (List.filter_eq_self.mpr h) rfl

theorem keep_keep (t : FilterTable) (p q : Filter → Bool) :
    (t.keep p).keep q = t.keep fun f => p f && q f := by
  refine FilterTable.ext ?_ rfl
  simp [keep, List.filter_filter, Bool.and_comm]

def add (t : FilterTable) (spec : FilterSpec) (session : Option Nat) : FilterTable where
  filters := t.filters ++ [⟨t.nextId, spec, session⟩]
  nextId := t.nextId + 1
  nodup := by
    rw [List.map_append, List.nodup_append]
    refine ⟨t.nodup, by simp, ?_⟩
    rintro i hi j hj rfl
    obtain ⟨f, hf, rfl⟩ := List.mem_map.mp hi
    have := t.fresh f hf
    simp only [List.map_cons, List.map_nil, List.mem_singleton] at hj
    omega
  fresh f hf := by
    rcases List.mem_append.mp hf with hf | hf
    · exact Nat.lt_succ_of_lt (t.fresh f hf)
    · simp only [List.mem_singleton] at hf
      simp [hf]

def deleteById (t : FilterTable) (id : Nat) : FilterTable := t.keep fun f => id ≠ f.id

/-- A filter is the only one with its identifier. -/
theorem eq_of_id {t : FilterTable} {f g : Filter} (hf : f ∈ t.filters) (hg : g ∈ t.filters)
    (h : f.id = g.id) : f = g :=
  List.inj_on_of_nodup_map t.nodup hf hg h

/-- The filters of a session are dropped with it, unless they are
persistent. -/
def closeSession (t : FilterTable) (session : Nat) : FilterTable :=
  t.keep fun f => f.spec.persistent || f.session ≠ some session

/-- A restart of the machine keeps the persistent filters alone. -/
def reboot (t : FilterTable) : FilterTable := t.keep fun f => f.spec.persistent

end FilterTable

/-! ## The platform's state and calls -/

structure FwWorld where
  /-- The filters in force. -/
  table : FilterTable
  /-- The open transaction. -/
  working : Option FilterTable := none
  /-- The sessions this process holds open. -/
  sessions : List Nat := []
  nextSession : Nat := 0

/-- An error code. -/
abbrev Failure := { code : UInt32 // code ≠ Win.noError }

/-- `FWP_E_ALREADY_EXISTS`. -/
def fwpAlreadyExists : UInt32 := 0x80320009

/-- `FWP_E_FILTER_NOT_FOUND`. -/
def fwpFilterNotFound : UInt32 := 0x80320003

/-- `FWP_E_TXN_IN_PROGRESS`. -/
def fwpTxnInProgress : UInt32 := 0x8032000E

/-- `FWP_E_NO_TXN_IN_PROGRESS`. -/
def fwpNoTxnInProgress : UInt32 := 0x8032000D

/-- An order of enumeration: it lists every filter once. -/
abbrev EnumOrder := { order : List Filter → List Filter // ∀ filters, (order filters).Perm filters }

namespace FwWorld

/-- The filters a call inside the session sees: those of the transaction, if
one is open. -/
def current (w : FwWorld) : FilterTable := w.working.getD w.table

def setCurrent (w : FwWorld) (t : FilterTable) : FwWorld :=
  match w.working with
  | some _ => { w with working := some t }
  | none => { w with table := t }

def engineOpen (o : Option Failure) (w : FwWorld) : Except UInt32 Nat × FwWorld :=
  match o with
  | some code => (.error code, w)
  | none => (.ok w.nextSession,
      { w with sessions := w.nextSession :: w.sessions, nextSession := w.nextSession + 1 })

def engineClose (session : Nat) (w : FwWorld) : FwWorld where
  table := w.table.closeSession session
  sessions := w.sessions.filter (· ≠ session)
  nextSession := w.nextSession

def transactionBegin (o : Option Failure) (w : FwWorld) : UInt32 × FwWorld :=
  match o with
  | some code => (code, w)
  | none =>
    if w.working.isSome then (fwpTxnInProgress, w)
    else (Win.noError, { w with working := some w.table })

def transactionAbort (w : FwWorld) : FwWorld := { w with working := none }

/-- A commit that fails drops the transaction. -/
def transactionCommit (o : Option Failure) (w : FwWorld) : UInt32 × FwWorld :=
  match o, w.working with
  | none, some t => (Win.noError, { w with table := t, working := none })
  | none, none => (fwpNoTxnInProgress, w)
  | some code, _ => (code, { w with working := none })

/-- Enumerates without a template: the first `numEntriesRequested` of all
filters, in some order. -/
def filterEnum (numEntriesRequested : Nat) (o : Except Failure EnumOrder) (w : FwWorld) :
    Except UInt32 (List Filter) :=
  match o with
  | .error code => .error code
  | .ok order => .ok ((order.1 w.current.filters).take numEntriesRequested)

def filterDeleteById (id : Nat) (o : Option Failure) (w : FwWorld) : UInt32 × FwWorld :=
  match o with
  | some code => (code, w)
  | none =>
    if w.current.filters.any (·.id = id) then
      (Win.noError, w.setCurrent (w.current.deleteById id))
    else (fwpFilterNotFound, w)

/-- Filters added in a dynamic session belong to it. -/
def filterAdd (session : Nat) (spec : FilterSpec) (o : Option Failure) (w : FwWorld) :
    UInt32 × FwWorld :=
  match o with
  | some code => (code, w)
  | none => (Win.noError, w.setCurrent (w.current.add spec (some session)))

/-- The process is gone: its transaction is dropped and its sessions are
closed. -/
def crash (w : FwWorld) : FwWorld where
  table := w.sessions.foldl FilterTable.closeSession w.table
  nextSession := w.nextSession

def reboot (w : FwWorld) : FwWorld where
  table := w.table.reboot
  nextSession := w.nextSession

end FwWorld

inductive FwCall where
  | engineOpen
  | engineClose (engine : Nat)
  | providerAdd (engine : Nat)
  | subLayerAdd (engine : Nat)
  | transactionBegin (engine : Nat)
  | transactionAbort (engine : Nat)
  | transactionCommit (engine : Nat)
  | filterCreateEnumHandle (engine : Nat)
  | filterEnum (engine : Nat) (numEntriesRequested : Nat)
  | filterDestroyEnumHandle (engine : Nat)
  | filterDeleteById (engine : Nat) (id : Nat)
  | filterAdd (engine : Nat) (spec : FilterSpec)

@[reducible] def fwApi : Api where
  Call := FwCall
  Ans
    | .engineOpen => Except UInt32 Nat
    | .filterEnum _ _ => Except UInt32 (List Filter)
    | .engineClose _ | .transactionAbort _ | .filterDestroyEnumHandle _ => Unit
    | _ => UInt32

@[reducible] def fwEnv : Env fwApi FwWorld where
  Outcome
    | .filterEnum _ _ => Except Failure EnumOrder
    | .engineClose _ | .transactionAbort _ | .filterDestroyEnumHandle _ => Unit
    | _ => Option Failure
  step
    | .engineOpen, o, w => w.engineOpen o
    | .engineClose engine, _, w => ((), w.engineClose engine)
    | .providerAdd _, o, w => (o.elim Win.noError (·.1), w)
    | .subLayerAdd _, o, w => (o.elim Win.noError (·.1), w)
    | .transactionBegin _, o, w => w.transactionBegin o
    | .transactionAbort _, _, w => ((), w.transactionAbort)
    | .transactionCommit _, o, w => w.transactionCommit o
    | .filterCreateEnumHandle _, o, w => (o.elim Win.noError (·.1), w)
    | .filterEnum _ n, o, w => (w.filterEnum n o, w)
    | .filterDestroyEnumHandle _, _, w => ((), w)
    | .filterDeleteById _ id, o, w => w.filterDeleteById id o
    | .filterAdd engine spec, o, w => w.filterAdd engine spec o

abbrev FwProg := Prog fwApi

/-- The program that makes one call. -/
def FwCall.perform (call : FwCall) : FwProg (fwApi.Ans call) := Prog.perform (A := fwApi) call

/-- The turn at which every call succeeds, and filters are listed in the order
of the table. -/
def fwQuietTurn : fwEnv.Turn
  | .filterEnum _ _ => .ok ⟨id, fun _ => List.Perm.rfl⟩
  | .engineClose _ | .transactionAbort _ | .filterDestroyEnumHandle _ => ()
  | .engineOpen | .providerAdd _ | .subLayerAdd _ | .transactionBegin _ | .transactionCommit _
  | .filterCreateEnumHandle _ | .filterDeleteById _ _ | .filterAdd _ _ => none

end NovaVpn.Firewall
