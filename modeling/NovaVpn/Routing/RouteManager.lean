import Mathlib.Data.List.AList
import NovaVpn.Framework.Prog
import NovaVpn.Networking.IpAddress
import NovaVpn.Profiles.Profile

/-!
# The route manager

`Routing/RouteManager.cpp`. The manager creates and deletes rows of the
system's route table and keeps a ledger of those it owns: in memory, keyed by
`routeKey`, and in a file written from the memory at every change.

The manager's code is a `Prog` over the calls below: the calls into the
system, and the sections it runs under its mutex (`recordRoute`,
`unrecordRoute`, the copy of the owned entries, the interface bindings). The
state `RouteWorld` is the route table, in which every row remembers whether a
create of this program inserted it, the ledger file and the manager's
members. The file is modelled by the entries it lists, none if there is no
file. A save that fails leaves it as it was or leaves none, which is all that
`writeAtomicBytes` may do to it (`saveRecordLocked_of_exec`).

A hash table is an `AList`, iterated in the order of its list.
-/

namespace NovaVpn.Routing

open NovaVpn.Framework NovaVpn.Net

structure RouteEntry where
  destination : IpRange
  /-- Unset: on-link. -/
  nextHop : Option IpAddress := none
  interfaceIndex : UInt32 := 0
  metric : UInt32 := 0
  owned : Bool := true
  deriving DecidableEq, Repr

inductive DefaultRouteMode where
  | none
  | splitHalves
  | replace
  deriving DecidableEq, Repr

inductive Disposition where
  | tunnel
  | direct
  | block
  deriving DecidableEq, Repr

structure IpRule where
  id : String
  enabled : Bool := true
  /-- Higher wins when two rules match equally well. -/
  priority : Int := 0
  disposition : Disposition := .tunnel
  /-- Empty: the primary tunnel. -/
  tunnelId : String := ""
  range : IpRange
  /-- Unset: every port. -/
  port : Option UInt16 := none
  transport : Option Profiles.Transport := none
  deriving DecidableEq, Repr

/-- `RoutingPolicy`, of its rules those for addresses. -/
structure RoutingPolicy where
  defaultDisposition : Disposition := .tunnel
  defaultTunnelId : String := ""
  ipRules : List IpRule
  deriving DecidableEq, Repr

/-- `kOwnedRouteMetric`. -/
def ownedRouteMetric : UInt32 := 0

/-! ## Rows of the system's table -/

/-- What identifies a row: destination prefix, interface and next hop. -/
structure RowKey where
  destination : IpRange
  interfaceIndex : UInt32
  nextHop : IpAddress
  deriving DecidableEq, Repr

structure ForwardRow where
  key : RowKey
  metric : UInt32
  deriving DecidableEq, Repr

/-- The row an entry is for; an on-link entry has the all-zero next hop. -/
def rowKey (entry : RouteEntry) : RowKey where
  destination := entry.destination
  interfaceIndex := entry.interfaceIndex
  nextHop := entry.nextHop.getD
    (if entry.destination.family = .ipv4 then IpAddress.anyV4 else IpAddress.anyV6)

def toRow (entry : RouteEntry) : Result ForwardRow :=
  match entry.nextHop with
  | some hop =>
    if hop.family ≠ entry.destination.family then
      .error (Err.invalidArgument ("route next hop family does not match destination " ++
        entry.destination.toString))
    else .ok { key := rowKey entry, metric := entry.metric }
  | none => .ok { key := rowKey entry, metric := entry.metric }

theorem toRow_key {entry : RouteEntry} {row : ForwardRow} (h : toRow entry = .ok row) :
    row.key = rowKey entry := by
  unfold toRow at h
  split at h
  · split at h <;> cases h
    rfl
  · cases h
    rfl

/-- An entry without a row is refused with an error. -/
theorem toRow_error {entry : RouteEntry} {status : Status} (h : toRow entry = .error status) :
    status.isError = true := by
  unfold toRow at h
  split at h
  · split at h <;> cases h
    rfl
  · cases h

/-- `routeKey`, of a destination and an interface: the next hop is no part
of it. -/
def keyText (destination : IpRange) (interfaceIndex : UInt32) : String :=
  destination.toString ++ "@" ++ toString interfaceIndex.toNat

def routeKey (entry : RouteEntry) : String := keyText entry.destination entry.interfaceIndex

/-- The ledger key of a row. -/
def RowKey.routeKey (key : RowKey) : String := keyText key.destination key.interfaceIndex

theorem routeKey_rowKey (entry : RouteEntry) : (rowKey entry).routeKey = routeKey entry := rfl

/-! ## The owned entries -/

/-- `m_owned`: entries by their key. -/
structure OwnedRoutes where
  map : AList fun _ : String => RouteEntry
  keyed : ∀ k e, map.lookup k = some e → routeKey e = k

namespace OwnedRoutes

def empty : OwnedRoutes := ⟨∅, fun _ _ h => by simp at h⟩

def record (o : OwnedRoutes) (entry : RouteEntry) : OwnedRoutes where
  map := o.map.insert (routeKey entry) entry
  keyed k e h := by
    by_cases hk : k = routeKey entry
    · subst hk
      rw [AList.lookup_insert, Option.some.injEq] at h
      rw [h]
    · rw [AList.lookup_insert_ne hk] at h
      exact o.keyed k e h

def unrecord (o : OwnedRoutes) (entry : RouteEntry) : OwnedRoutes where
  map := o.map.erase (routeKey entry)
  keyed k e h := by
    by_cases hk : k = routeKey entry
    · subst hk
      rw [AList.lookup_erase] at h
      cases h
    · rw [AList.lookup_erase_ne hk] at h
      exact o.keyed k e h

/-- The entries, in the order of the table. -/
def entries (o : OwnedRoutes) : List RouteEntry := o.map.entries.map (·.2)

theorem mem_entries {o : OwnedRoutes} {e : RouteEntry} :
    e ∈ o.entries ↔ o.map.lookup (routeKey e) = some e := by
  simp only [entries, List.mem_map]
  constructor
  · rintro ⟨⟨k, e'⟩, hm, rfl⟩
    have hl : o.map.lookup k = some e' := AList.mem_lookup_iff.mpr hm
    rw [o.keyed k e' hl, hl]
  · intro h
    exact ⟨⟨_, e⟩, AList.mem_lookup_iff.mp h, rfl⟩

theorem mem_record_self (o : OwnedRoutes) (e : RouteEntry) : e ∈ (o.record e).entries :=
  mem_entries.mpr (AList.lookup_insert _)

theorem mem_record_of_ne {o : OwnedRoutes} {e e' : RouteEntry} (h : e' ∈ o.entries)
    (hk : routeKey e' ≠ routeKey e) : e' ∈ (o.record e).entries := by
  rw [mem_entries] at h ⊢
  exact (AList.lookup_insert_ne hk).trans h

theorem mem_of_mem_record {o : OwnedRoutes} {e e' : RouteEntry}
    (h : e' ∈ (o.record e).entries) : e' = e ∨ e' ∈ o.entries := by
  rw [mem_entries] at h
  by_cases hk : routeKey e' = routeKey e
  · rw [hk] at h
    have := (AList.lookup_insert o.map).symm.trans h
    exact .inl (Option.some.inj this).symm
  · exact .inr (mem_entries.mpr ((AList.lookup_insert_ne hk).symm.trans h))

theorem mem_unrecord_of_ne {o : OwnedRoutes} {e e' : RouteEntry} (h : e' ∈ o.entries)
    (hk : routeKey e' ≠ routeKey e) : e' ∈ (o.unrecord e).entries := by
  rw [mem_entries] at h ⊢
  exact (AList.lookup_erase_ne hk).trans h

theorem mem_of_mem_unrecord {o : OwnedRoutes} {e e' : RouteEntry}
    (h : e' ∈ (o.unrecord e).entries) : e' ∈ o.entries := by
  rw [mem_entries] at h ⊢
  by_cases hk : routeKey e' = routeKey e
  · rw [hk] at h
    cases (AList.lookup_erase _ _).symm.trans h
  · exact (AList.lookup_erase_ne hk).symm.trans h

end OwnedRoutes

/-! ## The state -/

/-- Who inserted a row. -/
inductive Origin where
  | foreign
  | nova
  deriving DecidableEq, Repr

structure TableRow where
  metric : UInt32
  origin : Origin
  deriving DecidableEq, Repr

structure RouteWorld where
  table : RowKey → Option TableRow
  ledger : List RouteEntry
  owned : OwnedRoutes
  underlayInterface : UInt32 := 0
  tunnelInterfaces : AList (fun _ : String => UInt32) := ∅

namespace RouteWorld

def originOf (w : RouteWorld) (key : RowKey) : Option Origin := (w.table key).map (·.origin)

/-- `loadRecord`: the entries of the ledger file, less those without an
interface, which `routeEntryFromJson` rejects. -/
def loadRecord (ledger : List RouteEntry) : OwnedRoutes :=
  (ledger.filter fun e => e.interfaceIndex ≠ 0).foldl OwnedRoutes.record OwnedRoutes.empty

theorem mem_of_mem_foldl_record {ledger : List RouteEntry} {o : OwnedRoutes} {e : RouteEntry}
    (h : e ∈ (ledger.foldl OwnedRoutes.record o).entries) : e ∈ ledger ∨ e ∈ o.entries := by
  induction ledger generalizing o with
  | nil => exact .inr h
  | cons entry ledger ih =>
    rcases ih h with hm | hm
    · exact .inl (List.mem_cons_of_mem _ hm)
    · rcases OwnedRoutes.mem_of_mem_record hm with rfl | hm
      · exact .inl List.mem_cons_self
      · exact .inr hm

theorem mem_of_mem_loadRecord {ledger : List RouteEntry} {e : RouteEntry}
    (h : e ∈ (loadRecord ledger).entries) : e ∈ ledger := by
  rcases mem_of_mem_foldl_record h with hm | hm
  · exact List.mem_of_mem_filter hm
  · cases hm

/-- A new manager over the table and the file as they stand. One that cannot
read the file, or finds no array in it, starts empty, and the file stays until
the next save. -/
def restart (w : RouteWorld) (readable : Bool) : RouteWorld where
  table := w.table
  ledger := w.ledger
  owned := if readable then loadRecord w.ledger else OwnedRoutes.empty

theorem mem_of_mem_restart {w : RouteWorld} {readable : Bool} {e : RouteEntry}
    (h : e ∈ (w.restart readable).owned.entries) : e ∈ w.ledger := by
  cases readable with
  | true => exact mem_of_mem_loadRecord h
  | false => cases h

/-- What a save of the ledger file comes to. -/
inductive SaveOutcome where
  | saved
  /-- The file is as it was. -/
  | kept (failure : { st : Status // st.isError = true })
  /-- There is no file under its name any more. -/
  | lost (failure : { st : Status // st.isError = true })

/-- The save leaves no file. -/
def SaveOutcome.Loses : SaveOutcome → Prop
  | .saved | .kept _ => False
  | .lost _ => True

def saveRecordLocked (w : RouteWorld) : SaveOutcome → Status × RouteWorld
  | .saved => (Status.ok, { w with ledger := w.owned.entries })
  | .kept failure => (failure, w)
  | .lost failure => (failure, { w with ledger := [] })

def recordRoute (entry : RouteEntry) (o : SaveOutcome) (w : RouteWorld) : Status × RouteWorld :=
  let saved := { w with owned := w.owned.record entry }.saveRecordLocked o
  (saved.1.withContext "persisting the route ledger", saved.2)

def unrecordRoute (entry : RouteEntry) (o : SaveOutcome) (w : RouteWorld) : Status × RouteWorld :=
  let saved := { w with owned := w.owned.unrecord entry }.saveRecordLocked o
  (saved.1.withContext "persisting the route ledger", saved.2)

/-- How `CreateIpForwardEntry2` fails, other than by finding the row. -/
abbrev CreateFailure :=
  { code : UInt32 // code ≠ Win.noError ∧ code ≠ Win.errorObjectAlreadyExists }

/-- How `DeleteIpForwardEntry2` fails, other than by not finding the row. -/
abbrev DeleteFailure := { code : UInt32 // code ≠ Win.noError ∧ code ≠ Win.errorNotFound }

/-- `CreateIpForwardEntry2`: inserts the row unless one with its key is there,
or fails without change. -/
def createIpForwardEntry2 (row : ForwardRow) (o : Option CreateFailure) (w : RouteWorld) :
    UInt32 × RouteWorld :=
  match o with
  | some code => (code, w)
  | none =>
    if (w.table row.key).isSome then (Win.errorObjectAlreadyExists, w)
    else
      (Win.noError,
        { w with table := Function.update w.table row.key (some ⟨row.metric, .nova⟩) })

/-- `DeleteIpForwardEntry2`: removes the row with this key if it is there, or
fails without change. -/
def deleteIpForwardEntry2 (row : ForwardRow) (o : Option DeleteFailure) (w : RouteWorld) :
    UInt32 × RouteWorld :=
  match o with
  | some code => (code, w)
  | none =>
    if (w.table row.key).isSome then
      (Win.noError, { w with table := Function.update w.table row.key none })
    else (Win.errorNotFound, w)

/-- The interface a rule lands on, 0 if it has none; a rule that blocks has
no route at all. -/
def interfaceFor (rule : IpRule) (w : RouteWorld) : Option UInt32 :=
  match rule.disposition with
  | .tunnel =>
    match w.tunnelInterfaces.lookup rule.tunnelId with
    | some index => some index
    | none =>
      if rule.tunnelId.isEmpty then
        some ((w.tunnelInterfaces.entries.head?.map (·.2)).getD 0)
      else some 0
  | .direct => some w.underlayInterface
  | .block => none

end RouteWorld

/-! ### What the steps change -/

namespace RouteWorld

@[simp] theorem table_saveRecordLocked (w : RouteWorld) (o : SaveOutcome) :
    (w.saveRecordLocked o).2.table = w.table := by
  cases o <;> rfl

@[simp] theorem owned_saveRecordLocked (w : RouteWorld) (o : SaveOutcome) :
    (w.saveRecordLocked o).2.owned = w.owned := by
  cases o <;> rfl

/-- What a save may make of the file. -/
inductive Filed (o : SaveOutcome) (old entries : List RouteEntry) : List RouteEntry → Prop where
  | kept : Filed o old entries old
  | written : Filed o old entries entries
  | lost (h : o.Loses) : Filed o old entries []

theorem filed_saveRecordLocked (w : RouteWorld) (o : SaveOutcome) :
    Filed o w.ledger w.owned.entries (w.saveRecordLocked o).2.ledger := by
  cases o with
  | saved => exact .written
  | kept failure => exact .kept
  | lost failure => exact .lost trivial

theorem saveRecordLocked_ok {w : RouteWorld} {o : SaveOutcome}
    (h : (w.saveRecordLocked o).1.isError = false) :
    (w.saveRecordLocked o).2.ledger = w.owned.entries := by
  cases o with
  | saved => rfl
  | kept failure | lost failure => exact absurd (failure.2.symm.trans h) (by decide)

@[simp] theorem table_recordRoute (w : RouteWorld) (entry : RouteEntry) (o : SaveOutcome) :
    (w.recordRoute entry o).2.table = w.table := by
  simp [recordRoute]

@[simp] theorem table_unrecordRoute (w : RouteWorld) (entry : RouteEntry) (o : SaveOutcome) :
    (w.unrecordRoute entry o).2.table = w.table := by
  simp [unrecordRoute]

@[simp] theorem owned_recordRoute (w : RouteWorld) (entry : RouteEntry) (o : SaveOutcome) :
    (w.recordRoute entry o).2.owned = w.owned.record entry := by
  simp [recordRoute]

@[simp] theorem owned_unrecordRoute (w : RouteWorld) (entry : RouteEntry) (o : SaveOutcome) :
    (w.unrecordRoute entry o).2.owned = w.owned.unrecord entry := by
  simp [unrecordRoute]

theorem filed_recordRoute (w : RouteWorld) (entry : RouteEntry) (o : SaveOutcome) :
    Filed o w.ledger (w.owned.record entry).entries (w.recordRoute entry o).2.ledger :=
  filed_saveRecordLocked { w with owned := w.owned.record entry } o

theorem filed_unrecordRoute (w : RouteWorld) (entry : RouteEntry) (o : SaveOutcome) :
    Filed o w.ledger (w.owned.unrecord entry).entries (w.unrecordRoute entry o).2.ledger :=
  filed_saveRecordLocked { w with owned := w.owned.unrecord entry } o

/-- A record that reports success is in the file. -/
theorem mem_ledger_recordRoute {w : RouteWorld} {entry : RouteEntry} {o : SaveOutcome}
    (h : (w.recordRoute entry o).1.isError = false) : entry ∈ (w.recordRoute entry o).2.ledger := by
  have hl := saveRecordLocked_ok (w := { w with owned := w.owned.record entry }) (o := o)
    (by simpa [recordRoute] using h)
  exact hl ▸ w.owned.mem_record_self entry

/-- What a create changes: it inserts the row, as the manager's, if no row had
its key; and nothing else. -/
theorem table_createIpForwardEntry2 (w : RouteWorld) (row : ForwardRow)
    (o : Option CreateFailure) (key : RowKey) :
    (w.createIpForwardEntry2 row o).2.table key = w.table key ∨
      key = row.key ∧ w.table key = none ∧
        (w.createIpForwardEntry2 row o).2.table key = some ⟨row.metric, .nova⟩ := by
  unfold createIpForwardEntry2
  split
  · exact .inl rfl
  · split
    · exact .inl rfl
    · rename_i hs
      by_cases hk : key = row.key
      · subst hk
        exact .inr ⟨rfl, by simpa using hs, by simp⟩
      · exact .inl (by simp [hk])

@[simp] theorem ledger_createIpForwardEntry2 (w : RouteWorld) (row : ForwardRow)
    (o : Option CreateFailure) : (w.createIpForwardEntry2 row o).2.ledger = w.ledger := by
  unfold createIpForwardEntry2
  split
  · rfl
  · split <;> rfl

@[simp] theorem owned_createIpForwardEntry2 (w : RouteWorld) (row : ForwardRow)
    (o : Option CreateFailure) : (w.createIpForwardEntry2 row o).2.owned = w.owned := by
  unfold createIpForwardEntry2
  split
  · rfl
  · split <;> rfl

/-- What a delete changes: it removes the row with this key, and nothing
else. -/
theorem table_deleteIpForwardEntry2 (w : RouteWorld) (row : ForwardRow)
    (o : Option DeleteFailure) (key : RowKey) :
    (w.deleteIpForwardEntry2 row o).2.table key = w.table key ∨
      key = row.key ∧ (w.deleteIpForwardEntry2 row o).2.table key = none := by
  unfold deleteIpForwardEntry2
  split
  · exact .inl rfl
  · split
    · by_cases hk : key = row.key
      · subst hk
        exact .inr ⟨rfl, by simp⟩
      · exact .inl (by simp [hk])
    · exact .inl rfl

@[simp] theorem ledger_deleteIpForwardEntry2 (w : RouteWorld) (row : ForwardRow)
    (o : Option DeleteFailure) : (w.deleteIpForwardEntry2 row o).2.ledger = w.ledger := by
  unfold deleteIpForwardEntry2
  split
  · rfl
  · split <;> rfl

@[simp] theorem owned_deleteIpForwardEntry2 (w : RouteWorld) (row : ForwardRow)
    (o : Option DeleteFailure) : (w.deleteIpForwardEntry2 row o).2.owned = w.owned := by
  unfold deleteIpForwardEntry2
  split
  · rfl
  · split <;> rfl

end RouteWorld

/-! ## The calls -/

inductive RouteCall where
  | recordRoute (entry : RouteEntry)
  | unrecordRoute (entry : RouteEntry)
  | copyOwned
  | interfaceFor (rule : IpRule)
  | setUnderlayInterface (interfaceIndex : UInt32)
  | setTunnelInterface (tunnelId : String) (interfaceIndex : UInt32)
  | clearTunnelInterface (tunnelId : String)
  | createIpForwardEntry2 (row : ForwardRow)
  | deleteIpForwardEntry2 (row : ForwardRow)
  | getBestRoute2 (destination : IpAddress) (interfaceIndex : UInt32)

@[reducible] def routeApi : Api where
  Call := RouteCall
  Ans
    | .recordRoute _ | .unrecordRoute _ => Status
    | .copyOwned => List RouteEntry
    | .interfaceFor _ => Option UInt32
    | .setUnderlayInterface _ | .setTunnelInterface _ _ | .clearTunnelInterface _ => Unit
    | .createIpForwardEntry2 _ | .deleteIpForwardEntry2 _ => UInt32
    -- the next hop of the best route, unset when it has neither family
    | .getBestRoute2 _ _ => Except UInt32 (Option IpAddress)

@[reducible] def routeEnv : Env routeApi RouteWorld where
  Outcome
    | .recordRoute _ | .unrecordRoute _ => RouteWorld.SaveOutcome
    | .createIpForwardEntry2 _ => Option RouteWorld.CreateFailure
    | .deleteIpForwardEntry2 _ => Option RouteWorld.DeleteFailure
    | .getBestRoute2 _ _ => Except { code : UInt32 // code ≠ Win.noError } (Option IpAddress)
    | _ => Unit
  step
    | .recordRoute entry, o, w => w.recordRoute entry o
    | .unrecordRoute entry, o, w => w.unrecordRoute entry o
    | .copyOwned, _, w => (w.owned.entries, w)
    | .interfaceFor rule, _, w => (w.interfaceFor rule, w)
    | .setUnderlayInterface index, _, w => ((), { w with underlayInterface := index })
    | .setTunnelInterface id index, _, w =>
      ((), { w with tunnelInterfaces := w.tunnelInterfaces.insert id index })
    | .clearTunnelInterface id, _, w =>
      ((), { w with tunnelInterfaces := w.tunnelInterfaces.erase id })
    | .createIpForwardEntry2 row, o, w => w.createIpForwardEntry2 row o
    | .deleteIpForwardEntry2 row, o, w => w.deleteIpForwardEntry2 row o
    | .getBestRoute2 _ _, o, w => (o.mapError (·.1), w)

abbrev RouteProg := Prog routeApi

/-! ## The manager's code -/

/-- The program that makes one call. -/
def RouteCall.perform (call : RouteCall) : RouteProg (routeApi.Ans call) :=
  Prog.perform (A := routeApi) call

namespace RouteManager

def recordRoute (entry : RouteEntry) : RouteProg Status := RouteCall.perform (.recordRoute entry)
def unrecordRoute (entry : RouteEntry) : RouteProg Status := RouteCall.perform (.unrecordRoute entry)
def copyOwned : RouteProg (List RouteEntry) := RouteCall.perform .copyOwned
def interfaceFor (rule : IpRule) : RouteProg (Option UInt32) := RouteCall.perform (.interfaceFor rule)
def createIpForwardEntry2 (row : ForwardRow) : RouteProg UInt32 :=
  RouteCall.perform (.createIpForwardEntry2 row)
def deleteIpForwardEntry2 (row : ForwardRow) : RouteProg UInt32 :=
  RouteCall.perform (.deleteIpForwardEntry2 row)
def getBestRoute2 (destination : IpAddress) (interfaceIndex : UInt32) :
    RouteProg (Except UInt32 (Option IpAddress)) :=
  RouteCall.perform (.getBestRoute2 destination interfaceIndex)

/-- What `addRoute` reports of a create that failed. -/
def createFailure (entry : RouteEntry) (status : UInt32) : Status :=
  let failure := Win.fromWin32 status ("CreateIpForwardEntry2(" ++ entry.destination.toString ++ ")")
  { code := if failure.code = .permissionDenied then .permissionDenied else .routeApplyFailed
    message := failure.message
    platformCode := failure.platformCode }

theorem isError_createFailure (entry : RouteEntry) (status : UInt32) :
    (createFailure entry status).isError = true := by
  unfold createFailure Status.isError
  dsimp only
  split <;> rfl

/-- Records the entry before it creates the row, and drops it again when the
create fails. -/
def addRoute (entry : RouteEntry) : RouteProg Status :=
  match toRow entry with
  | .error st => pure st
  | .ok row => do
    let recorded ← recordRoute entry
    if recorded.isError then pure recorded
    else do
      let status ← createIpForwardEntry2 row
      if status ≠ Win.noError ∧ status ≠ Win.errorObjectAlreadyExists then do
        let _ ← unrecordRoute entry
        pure (createFailure entry status)
      else pure Status.ok

def removeRoute (entry : RouteEntry) : RouteProg Status :=
  match toRow entry with
  | .error st => pure st
  | .ok row => do
    let status ← deleteIpForwardEntry2 row
    if status ≠ Win.noError ∧ status ≠ Win.errorNotFound then
      pure (Win.fromWin32 status
        ("DeleteIpForwardEntry2(" ++ entry.destination.toString ++ ")"))
    else unrecordRoute entry

/-- The host route to the gateway over the underlay, by the next hop the
system uses today. -/
def pinGatewayRoute (gateway : IpAddress) (underlayInterfaceIndex : UInt32) : RouteProg Status := do
  match ← getBestRoute2 gateway underlayInterfaceIndex with
  | .error status =>
    pure (Win.fromWin32 status ("GetBestRoute2(" ++ gateway.toString ++ ")"))
  | .ok nextHop =>
    match IpRange.make gateway (if gateway.isV4 then 32 else 128) with
    | .error st => pure st
    | .ok destination =>
      addRoute
        { destination
          nextHop := nextHop.filter fun hop => !hop.isUnspecified
          interfaceIndex := underlayInterfaceIndex
          metric := ownedRouteMetric }

/-- The routes a capture mode stands for. -/
def defaultRouteEntries (mode : DefaultRouteMode) (family : AddressFamily)
    (tunnelInterfaceIndex : UInt32) : List RouteEntry :=
  let makeEntry (cidr : String) : List RouteEntry :=
    match IpRange.parse cidr.toList with
    | .ok destination =>
      [{ destination, interfaceIndex := tunnelInterfaceIndex, metric := ownedRouteMetric }]
    | .error _ => []
  match mode with
  | .none => []
  | .splitHalves =>
    if family = .ipv4 then makeEntry "0.0.0.0/1" ++ makeEntry "128.0.0.0/1"
    else makeEntry "::/1" ++ makeEntry "8000::/1"
  | .replace => makeEntry (if family = .ipv4 then "0.0.0.0/0" else "::/0")

example : (defaultRouteEntries .splitHalves .ipv4 7).map routeKey = ["0.0.0.0/1@7", "128.0.0.0/1@7"] := by
  decide

/-- The loop of `captureDefaultRoute`. -/
def captureRoutes : List RouteEntry → RouteProg Status
  | [] => pure Status.ok
  | entry :: entries => do
    let status ← addRoute entry
    if status.isError then pure (status.withContext "capturing the default route")
    else captureRoutes entries

def captureDefaultRoute (tunnelInterfaceIndex : UInt32) (mode : DefaultRouteMode)
    (family : AddressFamily) : RouteProg Status :=
  captureRoutes (defaultRouteEntries mode family tunnelInterfaceIndex)

/-- The loop of `applyPolicy`. -/
def applyRules : List IpRule → RouteProg Status
  | [] => pure Status.ok
  | rule :: rules =>
    if !rule.enabled then applyRules rules
    else do
      match ← interfaceFor rule with
      | none => applyRules rules
      | some interfaceIndex =>
        if interfaceIndex = 0 then applyRules rules
        else do
          let status ← addRoute
            { destination := rule.range, interfaceIndex, metric := ownedRouteMetric }
          if status.isError then pure (status.withContext ("applying rule " ++ rule.id))
          else applyRules rules

def applyPolicy (policy : RoutingPolicy) : RouteProg Status := applyRules policy.ipRules

/-- The loop of `removeAllOwnedRoutes` and of `reconcile`: every entry is
tried, and the first failure is kept. -/
def removeEach : Status → List RouteEntry → RouteProg Status
  | firstFailure, [] => pure firstFailure
  | firstFailure, entry :: entries => do
    let status ← removeRoute entry
    removeEach (if status.isError && firstFailure.isOk then status else firstFailure) entries

def removeAllOwnedRoutes : RouteProg Status := do
  let owned ← copyOwned
  removeEach Status.ok owned

def reconcile : RouteProg Status := do
  let recorded ← copyOwned
  if recorded.isEmpty then pure Status.ok else removeEach Status.ok recorded

end RouteManager

/-! ## Runs -/

/-- The operations of `IRouteManager` that add routes or set bindings. -/
inductive AddOp where
  | addRoute (entry : RouteEntry)
  | pinGatewayRoute (gateway : IpAddress) (underlayInterfaceIndex : UInt32)
  | captureDefaultRoute (tunnelInterfaceIndex : UInt32) (mode : DefaultRouteMode)
      (family : AddressFamily)
  | applyPolicy (policy : RoutingPolicy)
  | setUnderlayInterface (interfaceIndex : UInt32)
  | setTunnelInterface (tunnelId : String) (interfaceIndex : UInt32)
  | clearTunnelInterface (tunnelId : String)

/-- The operations of `IRouteManager`. -/
inductive RouteOp where
  | add (op : AddOp)
  | removeRoute (entry : RouteEntry)
  | removeAllOwnedRoutes
  | reconcile

def AddOp.run : AddOp → RouteProg Status
  | .addRoute entry => RouteManager.addRoute entry
  | .pinGatewayRoute gateway index => RouteManager.pinGatewayRoute gateway index
  | .captureDefaultRoute index mode family => RouteManager.captureDefaultRoute index mode family
  | .applyPolicy policy => RouteManager.applyPolicy policy
  | .setUnderlayInterface index => do
    let _ ← RouteCall.perform (.setUnderlayInterface index)
    pure Status.ok
  | .setTunnelInterface id index => do
    let _ ← RouteCall.perform (.setTunnelInterface id index)
    pure Status.ok
  | .clearTunnelInterface id => do
    let _ ← RouteCall.perform (.clearTunnelInterface id)
    pure Status.ok

def RouteOp.run : RouteOp → RouteProg Status
  | .add op => op.run
  | .removeRoute entry => RouteManager.removeRoute entry
  | .removeAllOwnedRoutes => RouteManager.removeAllOwnedRoutes
  | .reconcile => RouteManager.reconcile

/-- A sequence of operations, one after another whatever they return. -/
def runOps : List RouteOp → RouteProg Unit
  | [] => pure ()
  | op :: ops => do
    let _ ← op.run
    runOps ops

def addOps : List AddOp → RouteProg Unit
  | [] => pure ()
  | op :: ops => do
    let _ ← op.run
    addOps ops

/-- A session: routes added by any operations, then all removed. -/
def addThenRemoveAll (ops : List AddOp) : RouteProg Status := do
  addOps ops
  RouteManager.removeAllOwnedRoutes

/-- The turn at which every call succeeds. -/
def quietTurn : routeEnv.Turn
  | .recordRoute _ | .unrecordRoute _ => .saved
  | .createIpForwardEntry2 _ | .deleteIpForwardEntry2 _ => none
  | .getBestRoute2 _ _ => .ok none
  | .copyOwned | .interfaceFor _ | .setUnderlayInterface _ | .setTunnelInterface _ _
  | .clearTunnelInterface _ => ()

/-- A new manager over a table of other programs' rows, without a ledger. -/
def RouteWorld.ofForeign (rows : List RowKey) : RouteWorld where
  table key := if key ∈ rows then some ⟨0, .foreign⟩ else none
  ledger := []
  owned := OwnedRoutes.empty

/-! ## Composition

The operations touch the table and the ledger through `addRoute` and
`removeRoute` only, so what these two keep, every operation keeps. -/

section Compose

variable {ok : (call : RouteCall) → routeEnv.Outcome call → RouteWorld → Prop}
  {I : RouteWorld → Prop}

/-- The program keeps `I` at every point of its runs from `w`. -/
def Keeps (ok : (call : RouteCall) → routeEnv.Outcome call → RouteWorld → Prop)
    (I : RouteWorld → Prop) {α : Type} (p : RouteProg α) (w : RouteWorld) : Prop :=
  Prog.Safe routeEnv ok I (fun _ _ => True) p w

theorem Keeps.ret {α : Type} {a : α} {w : RouteWorld} (h : I w) : Keeps ok I (pure a) w :=
  ⟨h, trivial⟩

theorem Keeps.bind {α β : Type} {p : RouteProg α} {f : α → RouteProg β} {w : RouteWorld}
    (hp : Keeps ok I p w) (hf : ∀ a w, I w → Keeps ok I (f a) w) : Keeps ok I (p >>= f) w :=
  Prog.Safe.bind hp fun a w hI _ => hf a w hI

theorem Keeps.call {call : RouteCall} {β : Type} {f : routeApi.Ans call → RouteProg β}
    {w : RouteWorld} (hI : I w)
    (h : ∀ o, ok call o w → Keeps ok I (f (routeEnv.step call o w).1) (routeEnv.step call o w).2) :
    Keeps ok I (call.perform >>= f) w :=
  Prog.Safe.step hI h

theorem Keeps.exec {α : Type} {p : RouteProg α} {w : RouteWorld} {ts : List routeEnv.Turn}
    (h : Keeps ok I p w) (hm : Prog.Meets routeEnv ok p w ts) : I (Prog.exec routeEnv p w ts).2 :=
  Prog.Safe.exec h hm

/-- `addRoute` and the interface bindings keep `I`. -/
structure KeptByAdding (ok : (call : RouteCall) → routeEnv.Outcome call → RouteWorld → Prop)
    (I : RouteWorld → Prop) : Prop where
  addRoute : ∀ entry w, I w → Keeps ok I (RouteManager.addRoute entry) w
  underlay : ∀ (w : RouteWorld) index, I w → I { w with underlayInterface := index }
  tunnels : ∀ (w : RouteWorld) bindings, I w → I { w with tunnelInterfaces := bindings }

namespace KeptByAdding

theorem captureRoutes (h : KeptByAdding ok I) (entries : List RouteEntry) {w : RouteWorld}
    (hI : I w) : Keeps ok I (RouteManager.captureRoutes entries) w := by
  induction entries generalizing w with
  | nil => exact .ret hI
  | cons entry entries ih =>
    refine Keeps.bind (h.addRoute entry w hI) fun status w hI => ?_
    split
    · exact .ret hI
    · exact ih hI

theorem applyRules (h : KeptByAdding ok I) (rules : List IpRule) {w : RouteWorld} (hI : I w) :
    Keeps ok I (RouteManager.applyRules rules) w := by
  induction rules generalizing w with
  | nil => exact .ret hI
  | cons rule rules ih =>
    unfold RouteManager.applyRules
    split
    · exact ih hI
    · refine Keeps.call hI fun _ _ => ?_
      split
      · exact ih hI
      · split
        · exact ih hI
        · refine Keeps.bind (h.addRoute _ w hI) fun status w hI => ?_
          split
          · exact .ret hI
          · exact ih hI

theorem pinGatewayRoute (h : KeptByAdding ok I) (gateway : IpAddress) (index : UInt32)
    {w : RouteWorld} (hI : I w) : Keeps ok I (RouteManager.pinGatewayRoute gateway index) w := by
  refine Keeps.call hI fun _ _ => ?_
  split
  · exact .ret hI
  · split
    · exact .ret hI
    · exact h.addRoute _ w hI

theorem run (h : KeptByAdding ok I) (op : AddOp) {w : RouteWorld} (hI : I w) :
    Keeps ok I op.run w := by
  cases op with
  | addRoute entry => exact h.addRoute entry w hI
  | pinGatewayRoute gateway index => exact h.pinGatewayRoute gateway index hI
  | captureDefaultRoute index mode family => exact h.captureRoutes _ hI
  | applyPolicy policy => exact h.applyRules _ hI
  | setUnderlayInterface index => exact Keeps.call hI fun _ _ => .ret (h.underlay w index hI)
  | setTunnelInterface id index => exact Keeps.call hI fun _ _ => .ret (h.tunnels w _ hI)
  | clearTunnelInterface id => exact Keeps.call hI fun _ _ => .ret (h.tunnels w _ hI)

end KeptByAdding

/-- The removal loop keeps `I` if each of its entries satisfies `P` and
`removeRoute` keeps `I` on those. -/
theorem removeEach_keeps {P : RouteEntry → Prop}
    (h : ∀ entry w, P entry → I w → Keeps ok I (RouteManager.removeRoute entry) w)
    {entries : List RouteEntry} (hP : ∀ entry ∈ entries, P entry) (first : Status) {w : RouteWorld}
    (hI : I w) : Keeps ok I (RouteManager.removeEach first entries) w := by
  induction entries generalizing first w with
  | nil => exact .ret hI
  | cons entry entries ih =>
    refine Keeps.bind (h entry w (hP entry List.mem_cons_self) hI) fun status w hI => ?_
    exact ih (fun e he => hP e (List.mem_cons_of_mem _ he)) _ hI

theorem removeAllOwnedRoutes_keeps {P : RouteEntry → Prop}
    (h : ∀ entry w, P entry → I w → Keeps ok I (RouteManager.removeRoute entry) w) {w : RouteWorld}
    (hP : ∀ entry ∈ w.owned.entries, P entry) (hI : I w) :
    Keeps ok I RouteManager.removeAllOwnedRoutes w :=
  Keeps.call hI fun _ _ => removeEach_keeps h hP _ hI

theorem reconcile_keeps {P : RouteEntry → Prop}
    (h : ∀ entry w, P entry → I w → Keeps ok I (RouteManager.removeRoute entry) w) {w : RouteWorld}
    (hP : ∀ entry ∈ w.owned.entries, P entry) (hI : I w) :
    Keeps ok I RouteManager.reconcile w := by
  refine Keeps.call hI fun _ _ => ?_
  split
  · exact .ret hI
  · exact removeEach_keeps h hP _ hI

end Compose

end NovaVpn.Routing
