import Mathlib.Algebra.Group.Nat.Defs
import Mathlib.Data.List.Basic
import NovaVpn.Framework.Simulation

/-!
# Memory for secrets

`SecureBuffer` of `Core/SecureMemory.cpp` over a process with any number of buffers.
A pointer is the address of a region of `VirtualAlloc`, which is any that is not in
use, so that the address of a released region may come back. An access to memory that
is not there is a fault, and what a region held when it was released is kept.

A `SecureString` is one buffer; its `assign` and `clone` fill a temporary, move it
and destroy it. Values are texts and lists of bytes of less than 2^64 bytes.
-/

namespace NovaVpn.Secure

open NovaVpn.Framework

/-! ## The memory of a process -/

/-- Pages of one `VirtualAlloc`, and whether they are locked. -/
structure Region where
  bytes : List UInt8
  locked : Bool := false
  deriving DecidableEq, Repr

structure SecureBuffer where
  /-- `m_data`. -/
  data : Option Nat := none
  size : Nat := 0
  locked : Bool := false
  deriving DecidableEq, Repr

structure Process where
  regions : Nat → Option Region := fun _ => none
  /-- What was released, as it was then. -/
  released : List Region := []
  fault : Bool := false
  /-- The buffers that are alive, by name. -/
  buffers : Nat → Option SecureBuffer := fun _ => none

def zeros (count : Nat) : List UInt8 := List.replicate count 0

/-- `dwPageSize` is what `GetSystemInfo` says. -/
def pageSize (dwPageSize : Nat) : Nat := if dwPageSize ≠ 0 then dwPageSize else 4096

def roundToPage (dwPageSize size : Nat) : Nat :=
  let page := pageSize dwPageSize
  let rounded := (size + page - 1) % 2 ^ 64 / page * page
  if rounded = 0 then page else rounded

namespace Process

def setRegion (p : Process) (address : Nat) (region : Option Region) : Process :=
  { p with regions := Function.update p.regions address region }

def setBuffer (p : Process) (b : Nat) (buffer : Option SecureBuffer) : Process :=
  { p with buffers := Function.update p.buffers b buffer }

/-- The first bytes of a region are overwritten. -/
def overwrite (p : Process) (address : Nat) (data : List UInt8) : Process :=
  match p.regions address with
  | none => { p with fault := true }
  | some region =>
    if data.length ≤ region.bytes.length then
      p.setRegion address (some { region with bytes := data ++ region.bytes.drop data.length })
    else { p with fault := true }

def poke (p : Process) (address index : Nat) (value : UInt8) : Process :=
  match p.regions address with
  | none => { p with fault := true }
  | some region =>
    if index < region.bytes.length then
      p.setRegion address (some { region with bytes := region.bytes.set index value })
    else { p with fault := true }

def memset (p : Process) (address count : Nat) : Process := p.overwrite address (zeros count)

def virtualAlloc (p : Process) (address size : Nat) : Process :=
  p.setRegion address (some { bytes := zeros size })

/-- `VirtualLock` and `VirtualUnlock` of a whole region. -/
def setLocked (p : Process) (address size : Nat) (locked : Bool) : Process :=
  match p.regions address with
  | none => { p with fault := true }
  | some region =>
    if size = region.bytes.length then
      p.setRegion address (some { region with locked })
    else { p with fault := true }

def virtualFree (p : Process) (address : Nat) : Process :=
  match p.regions address with
  | none => { p with fault := true }
  | some region =>
    { p.setRegion address none with released := p.released ++ [region] }

/-- `bytes()` as it is read. -/
def bytes (p : Process) (buffer : SecureBuffer) : List UInt8 :=
  match buffer.data.bind p.regions with
  | none => []
  | some region => region.bytes.take buffer.size

/-- The bytes can be read. -/
def readable (p : Process) (buffer : SecureBuffer) : Bool :=
  match buffer.data with
  | none => buffer.size = 0
  | some address =>
    match p.regions address with
    | none => false
    | some region => buffer.size ≤ region.bytes.length

/-! ## The buffers -/

/-- The constructor of a size. `answer` is the address that `VirtualAlloc` gives and
whether the pages are locked, if it gives any; there is no buffer when it throws. -/
def allocate (p : Process) (dwPageSize size : Nat) (answer : Option (Nat × Bool)) :
    Option (Process × SecureBuffer) :=
  if size = 0 then some (p, {})
  else
    match answer with
    | none => none
    | some (address, locked) =>
      let reserved := roundToPage dwPageSize size
      let p := p.virtualAlloc address reserved
      let p := if locked then p.setLocked address reserved true else p
      some (p.memset address reserved, { data := some address, size, locked })

def copyFrom (p : Process) (dwPageSize : Nat) (data : List UInt8) (answer : Option (Nat × Bool)) :
    Option (Process × SecureBuffer) :=
  (p.allocate dwPageSize data.length answer).map fun (p, buffer) =>
    if data = [] then (p, buffer)
    else
      match buffer.data with
      | none => ({ p with fault := true }, buffer)
      | some address => (p.overwrite address data, buffer)

def reset (p : Process) (dwPageSize : Nat) (buffer : SecureBuffer) : Process × SecureBuffer :=
  match buffer.data with
  | none => (p, { buffer with size := 0, locked := false })
  | some address =>
    let reserved := roundToPage dwPageSize buffer.size
    let p := p.memset address reserved
    let p := if buffer.locked then p.setLocked address reserved false else p
    (p.virtualFree address, {})

end Process

/-- `constantTimeEquals`: every pair of bytes is looked at. -/
def constantTimeEquals (a b : List UInt8) : Bool :=
  if a.length ≠ b.length then false
  else (a.zip b).foldl (fun diff (x, y) => diff ||| (x ^^^ y)) 0 == 0

/-- What a program does with buffers. -/
inductive BufferAct where
  | construct (b : Nat)
  | allocate (b size : Nat) (answer : Option (Nat × Bool))
  | copyFrom (b : Nat) (data : List UInt8) (answer : Option (Nat × Bool))
  | clone (b source : Nat) (answer : Option (Nat × Bool))
  | moveConstruct (b source : Nat)
  | moveAssign (b source : Nat)
  | write (b index : Nat) (value : UInt8)
  | reset (b : Nat)
  | destroy (b : Nat)
  deriving DecidableEq, Repr

namespace Process

/-- The address is not in use. -/
def offers (p : Process) (answer : Option (Nat × Bool)) : Bool :=
  answer.all fun (address, _) => (p.regions address).isNone

/-- A new buffer, if its constructor does not throw. -/
def born (p : Process) (b : Nat) : Option (Process × SecureBuffer) → Process
  | none => p
  | some (p, buffer) => p.setBuffer b (some buffer)

def step (dwPageSize : Nat) (p : Process) : BufferAct → Option Process
  | .construct b => if p.buffers b = none then some (p.setBuffer b (some {})) else none
  | .allocate b size answer =>
    if p.buffers b = none ∧ p.offers answer = true then
      some (p.born b (p.allocate dwPageSize size answer))
    else none
  | .copyFrom b data answer =>
    if p.buffers b = none ∧ p.offers answer = true then
      some (p.born b (p.copyFrom dwPageSize data answer))
    else none
  | .clone b source answer =>
    match p.buffers b, p.buffers source with
    | none, some other =>
      if p.offers answer = true then
        let p := if p.readable other then p else { p with fault := true }
        some (p.born b (p.copyFrom dwPageSize (p.bytes other) answer))
      else none
    | _, _ => none
  | .moveConstruct b source =>
    match p.buffers b, p.buffers source with
    | none, some other => some ((p.setBuffer b (some other)).setBuffer source (some {}))
    | _, _ => none
  | .moveAssign b source =>
    match p.buffers b, p.buffers source with
    | some this, some other =>
      some (if b = source then p
        else (((p.reset dwPageSize this).1.setBuffer b (some other)).setBuffer source (some {})))
    | _, _ => none
  | .write b index value =>
    match p.buffers b with
    | none => none
    | some buffer =>
      if index < buffer.size then
        some (match buffer.data with
          | none => { p with fault := true }
          | some address => p.poke address index value)
      else none
  | .reset b =>
    match p.buffers b with
    | none => none
    | some buffer =>
      let done := p.reset dwPageSize buffer
      some (done.1.setBuffer b (some done.2))
  | .destroy b =>
    match p.buffers b with
    | none => none
    | some buffer => some ((p.reset dwPageSize buffer).1.setBuffer b none)

/-! ## Who owns what -/

variable {dwPageSize : Nat} {p p' : Process} {buffer : SecureBuffer} {region : Region}
  {b address size : Nat} {answer : Option (Nat × Bool)}

/-- The size can be rounded to pages: `size + page - 1` is a `size_t`. -/
def Fits (dwPageSize : Nat) : BufferAct → Prop
  | .allocate _ size _ => size + pageSize dwPageSize ≤ 2 ^ 64
  | .copyFrom _ data _ => data.length + pageSize dwPageSize ≤ 2 ^ 64
  | _ => True

instance : DecidablePred (Fits dwPageSize) := fun act =>
  match act with
  | .allocate .. | .copyFrom .. => inferInstanceAs (Decidable (_ ≤ _))
  | .construct _ | .clone .. | .moveConstruct .. | .moveAssign .. | .write .. | .reset _
  | .destroy _ => inferInstanceAs (Decidable True)

/-- The region of a buffer: whole pages, and zeros behind the bytes. -/
structure Holds (dwPageSize : Nat) (buffer : SecureBuffer) (region : Region) : Prop where
  length_eq : region.bytes.length = roundToPage dwPageSize buffer.size
  covers : buffer.size ≤ region.bytes.length
  locked_eq : region.locked = buffer.locked
  rest : region.bytes.drop buffer.size = zeros (region.bytes.length - buffer.size)

/-- Every region has one owner, which is alive; what was released is blank. -/
structure Owned (dwPageSize : Nat) (p : Process) : Prop where
  holds : ∀ {b buffer address}, p.buffers b = some buffer → buffer.data = some address →
    ∃ region, p.regions address = some region ∧ Holds dwPageSize buffer region
  empty : ∀ {b buffer}, p.buffers b = some buffer → buffer.data = none → buffer = {}
  unique : ∀ {b c buffer other address}, p.buffers b = some buffer → p.buffers c = some other →
    buffer.data = some address → other.data = some address → b = c
  covered : ∀ {address region}, p.regions address = some region →
    ∃ b buffer, p.buffers b = some buffer ∧ buffer.data = some address
  clean : ∀ region ∈ p.released, region = { bytes := zeros region.bytes.length }
  sound : p.fault = false

theorem le_roundToPage (h : size + pageSize dwPageSize ≤ 2 ^ 64) :
    size ≤ roundToPage dwPageSize size := by
  have hpage : 0 < pageSize dwPageSize := by
    unfold pageSize
    split <;> omega
  rw [roundToPage, Nat.mod_eq_of_lt (by omega)]
  have hdiv := Nat.div_add_mod (size + pageSize dwPageSize - 1) (pageSize dwPageSize)
  have hmod := Nat.mod_lt (size + pageSize dwPageSize - 1) hpage
  rw [Nat.mul_comm] at hdiv
  split <;> omega

/-- The last sizes there are wrap to a single page. -/
example : roundToPage 4096 (2 ^ 64 - 1) = 4096 := by decide

theorem owned_initial : Owned dwPageSize {} where
  holds h := by cases h
  empty h := by cases h
  unique h := by cases h
  covered h := by cases h
  clean _ h := by cases h
  sound := rfl

@[simp] theorem length_zeros (count : Nat) : (zeros count).length = count := List.length_replicate

@[simp] theorem setRegion_self (region : Option Region) :
    (p.setRegion address region).regions address = region := Function.update_self ..

@[simp] theorem setBuffer_self (buffer : Option SecureBuffer) :
    (p.setBuffer b buffer).buffers b = buffer := Function.update_self ..

theorem setRegion_setRegion (region region' : Option Region) :
    (p.setRegion address region).setRegion address region' = p.setRegion address region' := by
  simp only [setRegion, Function.update_idem]

theorem setBuffer_setBuffer (buffer buffer' : Option SecureBuffer) :
    (p.setBuffer b buffer).setBuffer b buffer' = p.setBuffer b buffer' := by
  simp only [setBuffer, Function.update_idem]

theorem setRegion_eq_self (hregion : p.regions address = some region) :
    p.setRegion address (some region) = p := by
  rw [setRegion, ← hregion, Function.update_eq_self]

theorem overwrite_setRegion (p : Process) (address : Nat) (region : Region) {data : List UInt8}
    (hle : data.length ≤ region.bytes.length) :
    (p.setRegion address (some region)).overwrite address data =
      p.setRegion address (some { region with bytes := data ++ region.bytes.drop data.length }) := by
  unfold overwrite
  simp only [setRegion_self, if_pos hle, setRegion_setRegion]

theorem memset_setRegion (p : Process) (address : Nat) (region : Region) :
    (p.setRegion address (some region)).memset address region.bytes.length =
      p.setRegion address (some { region with bytes := zeros region.bytes.length }) := by
  rw [memset, overwrite_setRegion _ _ _ (Nat.le_of_eq (length_zeros _)), length_zeros,
    List.drop_length, List.append_nil]

theorem setLocked_setRegion (p : Process) (address : Nat) (region : Region) (locked : Bool) :
    (p.setRegion address (some region)).setLocked address region.bytes.length locked =
      p.setRegion address (some { region with locked }) := by
  unfold setLocked
  simp only [setRegion_self, if_true, setRegion_setRegion]

theorem virtualFree_setRegion (p : Process) (address : Nat) (region : Region) :
    (p.setRegion address (some region)).virtualFree address =
      { p.setRegion address none with released := p.released ++ [region] } := by
  unfold virtualFree
  simp only [setRegion_self, setRegion_setRegion]
  rfl

/-- The lengths of blank regions are said of their bytes. -/
theorem zeros_region (p : Process) (address count : Nat) (locked : Bool) :
    (p.setRegion address (some { bytes := zeros count, locked })).memset address count =
        p.setRegion address (some { bytes := zeros count, locked }) ∧
      ∀ locked', (p.setRegion address (some { bytes := zeros count, locked })).setLocked address
        count locked' = p.setRegion address (some { bytes := zeros count, locked := locked' }) := by
  have hset := memset_setRegion p address { bytes := zeros count, locked }
  have hlock := setLocked_setRegion p address { bytes := zeros count, locked }
  simp only [length_zeros] at hset hlock
  exact ⟨hset, hlock⟩

/-- A constructor that returns leaves an empty buffer, or one with pages of its own. -/
theorem allocate_cases {size : Nat} (h : p.allocate dwPageSize size answer = some (p', buffer)) :
    size = 0 ∧ p' = p ∧ buffer = {} ∨
      size ≠ 0 ∧ ∃ address locked, answer = some (address, locked) ∧
        buffer = { data := some address, size, locked } ∧
        p' = p.setRegion address
          (some { bytes := zeros (roundToPage dwPageSize size), locked }) := by
  unfold allocate at h
  split at h
  next hzero =>
    cases h
    exact .inl ⟨hzero, rfl, rfl⟩
  next hzero =>
    split at h
    · cases h
    next address locked =>
      cases h
      refine .inr ⟨hzero, address, locked, rfl, rfl, ?_⟩
      have hlock : (if locked = true then
            (p.virtualAlloc address (roundToPage dwPageSize size)).setLocked address
              (roundToPage dwPageSize size) true
          else p.virtualAlloc address (roundToPage dwPageSize size)) =
          p.setRegion address
            (some { bytes := zeros (roundToPage dwPageSize size), locked }) := by
        cases locked with
        | false => rfl
        | true => exact (zeros_region ..).2 true
      rw [hlock, (zeros_region ..).1]

theorem copyFrom_cases {data : List UInt8} (hle : data.length ≤ roundToPage dwPageSize data.length)
    (h : p.copyFrom dwPageSize data answer = some (p', buffer)) :
    data = [] ∧ p' = p ∧ buffer = {} ∨
      data ≠ [] ∧ ∃ address locked, answer = some (address, locked) ∧
        buffer = { data := some address, size := data.length, locked } ∧
        p' = p.setRegion address (some
          { bytes := data ++ zeros (roundToPage dwPageSize data.length - data.length), locked }) := by
  obtain ⟨⟨p₁, buffer₁⟩, hnew, h⟩ := Option.map_eq_some_iff.mp h
  rcases allocate_cases hnew with ⟨hzero, rfl, rfl⟩ | ⟨hzero, address, locked, rfl, rfl, rfl⟩
  · rw [List.length_eq_zero_iff] at hzero
    simp only [hzero, if_true] at h
    cases h
    exact .inl ⟨hzero, rfl, rfl⟩
  · have hne : data ≠ [] := fun hnil => hzero (by rw [hnil]; rfl)
    simp only [if_neg hne] at h
    cases h
    refine .inr ⟨hne, address, locked, rfl, rfl, ?_⟩
    rw [overwrite_setRegion _ _ _ (by rwa [length_zeros]), zeros, List.drop_replicate]
    rfl

/-- A buffer that is reset is empty, and its region is released blank. -/
theorem reset_cases (h : Owned dwPageSize p) (hb : p.buffers b = some buffer) :
    buffer = {} ∧ p.reset dwPageSize buffer = (p, {}) ∨
      ∃ address region, buffer.data = some address ∧ p.regions address = some region ∧
        p.reset dwPageSize buffer = ({ p.setRegion address none with
          released := p.released ++ [{ bytes := zeros region.bytes.length }] }, {}) := by
  cases hdata : buffer.data with
  | none =>
    obtain rfl := h.empty hb hdata
    exact .inl ⟨rfl, rfl⟩
  | some address =>
    obtain ⟨region, hregion, hh⟩ := h.holds hb hdata
    refine .inr ⟨address, region, rfl, hregion, ?_⟩
    have hunlock : (if buffer.locked = true then
          (p.setRegion address (some ⟨zeros region.bytes.length, region.locked⟩)).setLocked address
            region.bytes.length false
        else p.setRegion address (some ⟨zeros region.bytes.length, region.locked⟩)) =
        p.setRegion address (some { bytes := zeros region.bytes.length }) := by
      rw [← hh.locked_eq]
      split
      next => exact (zeros_region ..).2 false
      next hlocked => rw [(Bool.not_eq_true _).mp hlocked]
    unfold reset
    simp only [hdata]
    rw [← hh.length_eq]
    have hset := memset_setRegion p address region
    rw [setRegion_eq_self hregion] at hset
    rw [hset, hunlock, virtualFree_setRegion]

end Process

end NovaVpn.Secure
