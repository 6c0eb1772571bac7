import NovaVpn.Core.SecureOwnership

/-!
# Secrets as values

A program that uses `SecureBuffer` sees lists of bytes under names. `valueStep` says what
each call does to them; the process of `NovaVpn.Core.SecureMemory`, with its pages and
pointers, refines it.
-/

namespace NovaVpn.Secure

open NovaVpn.Framework

/-- There are no pages for the bytes. -/
def throws (size : Nat) (answer : Option (Nat × Bool)) : Bool := size ≠ 0 && answer.isNone

/-- The bytes of each buffer that is alive. -/
abbrev Values := Nat → Option (List UInt8)

/-- What the calls are for. -/
def valueStep (v : Values) : BufferAct → Option Values
  | .construct b => if v b = none then some (Function.update v b (some [])) else none
  | .allocate b size answer =>
    if v b = none then
      some (if throws size answer then v else Function.update v b (some (zeros size)))
    else none
  | .copyFrom b data answer =>
    if v b = none then
      some (if throws data.length answer then v else Function.update v b (some data))
    else none
  | .clone b source answer =>
    match v b, v source with
    | none, some data =>
      some (if throws data.length answer then v else Function.update v b (some data))
    | _, _ => none
  | .moveConstruct b source =>
    match v b, v source with
    | none, some data => some (Function.update (Function.update v b (some data)) source (some []))
    | _, _ => none
  | .moveAssign b source =>
    match v b, v source with
    | some _, some data =>
      some (if b = source then v
        else Function.update (Function.update v b (some data)) source (some []))
    | _, _ => none
  | .write b index value =>
    match v b with
    | none => none
    | some data =>
      if index < data.length then some (Function.update v b (some (data.set index value))) else none
  | .reset b =>
    match v b with
    | none => none
    | some _ => some (Function.update v b (some []))
  | .destroy b =>
    match v b with
    | none => none
    | some _ => some (Function.update v b none)

/-- The difference of two lists is none if the first was none and each pair is of equals. -/
theorem foldl_diff_eq_zero {a b : List UInt8} (hlength : a.length = b.length) (diff : UInt8) :
    (a.zip b).foldl (fun diff (x, y) => diff ||| (x ^^^ y)) diff = 0 ↔ diff = 0 ∧ a = b := by
  induction a generalizing b diff with
  | nil =>
    rw [List.eq_nil_of_length_eq_zero hlength.symm]
    exact (and_iff_left rfl).symm
  | cons x a ih =>
    cases b with
    | nil => cases hlength
    | cons y b =>
      rw [List.zip_cons_cons, List.foldl_cons, ih (Nat.succ.inj hlength), UInt8.or_eq_zero_iff,
        UInt8.xor_eq_zero_iff, List.cons.injEq, and_assoc]

theorem constantTimeEquals_iff (a b : List UInt8) : constantTimeEquals a b = true ↔ a = b := by
  unfold constantTimeEquals
  split
  next hne => exact ⟨nofun, fun heq => absurd (congrArg List.length heq) hne⟩
  next hlength =>
    rw [beq_iff_eq, foldl_diff_eq_zero (not_not.mp hlength)]
    exact and_iff_right rfl

namespace Process

def values (p : Process) : Values := fun b => (p.buffers b).map p.bytes

variable {dwPageSize : Nat} {p p' : Process} {buffer other : SecureBuffer} {region : Region}
  {b c address size : Nat} {answer : Option (Nat × Bool)}

theorem values_some (hb : p.buffers b = some buffer) : p.values b = some (p.bytes buffer) := by
  rw [values, hb]
  rfl

theorem values_none (hb : p.buffers b = none) : p.values b = none := by
  rw [values, hb]
  rfl

theorem bytes_eq (hdata : buffer.data = some address) (hregion : p.regions address = some region) :
    p.bytes buffer = region.bytes.take buffer.size := by
  unfold bytes
  simp only [hdata, Option.bind_some, hregion]

/-- The bytes of a buffer are those of its region. -/
theorem bytes_congr (h : ∀ address ∈ buffer.data, p'.regions address = p.regions address) :
    p'.bytes buffer = p.bytes buffer := by
  cases hdata : buffer.data with
  | none =>
    unfold bytes
    simp only [hdata, Option.bind_none]
  | some address =>
    unfold bytes
    simp only [hdata, Option.bind_some, h address hdata]

/-- Where the regions of the others are as they were, only one value changes. -/
theorem values_update (hbuffers : ∀ c, c ≠ b → p'.buffers c = p.buffers c)
    (hregions : ∀ c other, c ≠ b → p.buffers c = some other → ∀ address ∈ other.data,
      p'.regions address = p.regions address) :
    p'.values = Function.update p.values b (p'.values b) := by
  funext c
  by_cases heq : c = b
  · rw [heq, Function.update_self]
  · rw [Function.update_of_ne heq, values, values, hbuffers c heq]
    cases hc : p.buffers c with
    | none => rfl
    | some other => exact congrArg some (bytes_congr (hregions c other heq hc))

/-- The region of one buffer is no other's. -/
theorem Owned.regions_update (h : Owned dwPageSize p) (hb : p.buffers b = some buffer)
    (hdata : buffer.data = some address) (region : Option Region) (hne : c ≠ b)
    (hc : p.buffers c = some other) {address' : Nat} (hdata' : address' ∈ other.data) :
    (p.setRegion address region).regions address' = p.regions address' := by
  refine Function.update_of_ne ?_ ..
  rintro rfl
  exact hne (h.unique hc hb hdata' hdata)

theorem Owned.values_drop (h : Owned dwPageSize p) (hb : p.buffers b = some buffer)
    {last : Option SecureBuffer} (hlast : ∀ buffer, last = some buffer → buffer = {}) :
    ((p.reset dwPageSize buffer).1.setBuffer b last).values =
      Function.update p.values b (last.map fun _ => []) := by
  have hself : ((p.reset dwPageSize buffer).1.setBuffer b last).values b = last.map fun _ => [] := by
    rw [values, setBuffer_self]
    cases last with
    | none => rfl
    | some buffer =>
      rw [hlast buffer rfl]
      rfl
  rw [← hself]
  rcases reset_cases h hb with ⟨-, heq⟩ | ⟨address, region, hdata, -, heq⟩ <;> rw [heq]
  · exact values_update (fun c hne => Function.update_of_ne hne ..) fun _ _ _ _ _ _ => rfl
  · exact values_update (fun c hne => Function.update_of_ne hne ..) fun c other hne hc _ hdata' =>
      h.regions_update hb hdata none hne hc hdata'

theorem Owned.values_fill (h : Owned dwPageSize p) (hfree : p.regions address = none)
    (hdata : buffer.data = some address) :
    ((p.setRegion address (some region)).setBuffer b (some buffer)).values =
      Function.update p.values b (some (region.bytes.take buffer.size)) := by
  have hself : ((p.setRegion address (some region)).setBuffer b (some buffer)).values b =
      some (region.bytes.take buffer.size) := by
    rw [values_some (setBuffer_self _)]
    exact congrArg some (bytes_eq hdata (setRegion_self _))
  rw [← hself]
  refine values_update (fun c hne => Function.update_of_ne hne ..) fun c other _ hc address' hdata' =>
    Function.update_of_ne ?_ ..
  rintro rfl
  obtain ⟨region', hregion', -⟩ := h.holds hc hdata'
  rw [hfree] at hregion'
  cases hregion'

theorem Owned.values_rewrite (h : Owned dwPageSize p) (hb : p.buffers b = some buffer)
    (hdata : buffer.data = some address) (region : Region) :
    (p.setRegion address (some region)).values =
      Function.update p.values b (some (region.bytes.take buffer.size)) := by
  have hself : (p.setRegion address (some region)).values b =
      some (region.bytes.take buffer.size) := by
    rw [values, show (p.setRegion address (some region)).buffers b = some buffer from hb,
      Option.map_some, bytes_eq hdata (setRegion_self _)]
  rw [← hself]
  exact values_update (fun _ _ => rfl) fun c other hne hc address' hdata' =>
    h.regions_update hb hdata (some region) hne hc hdata'

/-- An empty buffer where there was none. -/
theorem values_construct (b : Nat) :
    (p.setBuffer b (some {})).values = Function.update p.values b (some []) := by
  have hself : (p.setBuffer b (some {})).values b = some [] := by
    rw [values_some (setBuffer_self _)]
    rfl
  rw [← hself]
  exact values_update (fun c hne => Function.update_of_ne hne ..) fun _ _ _ _ _ _ => rfl

/-- Moving hands on the bytes: no region is touched. -/
theorem values_move (p : Process) (b source : Nat) (other : SecureBuffer) :
    ((p.setBuffer b (some other)).setBuffer source (some {})).values =
      Function.update (Function.update p.values b (some (p.bytes other))) source (some []) := by
  have hself : (p.setBuffer b (some other)).values b = some (p.bytes other) :=
    values_some (setBuffer_self _)
  have hother : (p.setBuffer b (some other)).values = Function.update p.values b (some (p.bytes other)) := by
    rw [← hself]
    exact values_update (fun c hne => Function.update_of_ne hne ..) fun _ _ _ _ _ _ => rfl
  rw [values_construct, hother]

/-- Only a size that is not zero wants pages. -/
theorem allocate_none {size : Nat} (h : p.allocate dwPageSize size answer = none) :
    throws size answer = true := by
  unfold allocate at h
  split at h
  · cases h
  next hzero =>
    split at h
    · simp only [throws, ne_eq, hzero, not_false_eq_true, decide_true, Option.isNone_none, Bool.and_self]
    · cases h

theorem throws_some (size : Nat) (pages : Nat × Bool) : throws size (some pages) = false :=
  Bool.and_false _

theorem Owned.values_allocated (h : Owned dwPageSize p) (hoffers : p.offers answer = true)
    (hle : size ≤ roundToPage dwPageSize size) :
    (p.born b (p.allocate dwPageSize size answer)).values =
      if throws size answer then p.values else Function.update p.values b (some (zeros size)) := by
  cases hmade : p.allocate dwPageSize size answer with
  | none =>
    rw [allocate_none hmade]
    rfl
  | some made =>
    obtain ⟨p', buffer⟩ := made
    rcases allocate_cases hmade with ⟨rfl, rfl, rfl⟩ | ⟨-, address, locked, rfl, rfl, rfl⟩
    · exact values_construct b
    · rw [throws_some]
      refine (h.values_fill (Option.isNone_iff_eq_none.mp hoffers) rfl).trans ?_
      simp only [zeros, List.take_replicate, Nat.min_eq_left hle]
      rfl

theorem Owned.values_copied (h : Owned dwPageSize p) (hoffers : p.offers answer = true)
    {data : List UInt8} (hle : data.length ≤ roundToPage dwPageSize data.length) :
    (p.born b (p.copyFrom dwPageSize data answer)).values =
      if throws data.length answer then p.values else Function.update p.values b (some data) := by
  cases hmade : p.copyFrom dwPageSize data answer with
  | none =>
    rw [allocate_none (Option.map_eq_none_iff.mp hmade)]
    rfl
  | some made =>
    obtain ⟨p', buffer⟩ := made
    rcases copyFrom_cases hle hmade with ⟨rfl, rfl, rfl⟩ | ⟨-, address, locked, rfl, rfl, rfl⟩
    · exact values_construct b
    · rw [throws_some]
      refine (h.values_fill (Option.isNone_iff_eq_none.mp hoffers) rfl).trans ?_
      rw [List.take_left]
      rfl

/-- What the buffer had is dropped before the other's bytes are its own. -/
theorem Owned.values_moveAssign (h : Owned dwPageSize p) {source : Nat}
    (hb : p.buffers b = some buffer) (hsource : p.buffers source = some other) (hne : b ≠ source) :
    (((p.reset dwPageSize buffer).1.setBuffer b (some other)).setBuffer source (some {})).values =
      Function.update (Function.update p.values b (some (p.bytes other))) source (some []) := by
  let q := (p.reset dwPageSize buffer).1.setBuffer b (some {})
  have hvalues : q.values = Function.update p.values b (some []) :=
    h.values_drop hb fun _ hlast => (Option.some.inj hlast).symm
  have hother : q.buffers source = some other :=
    (Function.update_of_ne (Ne.symm hne) ..).trans ((congrFun (h.reset_spec hb).2 _).trans hsource)
  have hbytes : q.bytes other = p.bytes other := by
    have heq := congrFun hvalues source
    rw [Function.update_of_ne (Ne.symm hne), values_some hother, values_some hsource] at heq
    exact Option.some.inj heq
  have hmove := values_move q b source other
  rwa [setBuffer_setBuffer, hvalues, hbytes, Function.update_idem] at hmove

/-- Each step is one of the values. -/
theorem Owned.values_step (h : Owned dwPageSize p) {act : BufferAct} (hfits : Fits dwPageSize act)
    (hs : p.step dwPageSize act = some p') : valueStep p.values act = some p'.values := by
  cases act with
  | construct b =>
    rw [Process.step, Option.ite_none_right_eq_some] at hs
    obtain ⟨hb, hs⟩ := hs
    cases hs
    rw [valueStep, if_pos (values_none hb), values_construct]
  | allocate b size answer =>
    rw [Process.step, Option.ite_none_right_eq_some] at hs
    obtain ⟨⟨hb, hoffers⟩, hs⟩ := hs
    cases hs
    rw [valueStep, if_pos (values_none hb), h.values_allocated hoffers (le_roundToPage hfits)]
  | copyFrom b data answer =>
    rw [Process.step, Option.ite_none_right_eq_some] at hs
    obtain ⟨⟨hb, hoffers⟩, hs⟩ := hs
    cases hs
    rw [valueStep, if_pos (values_none hb), h.values_copied hoffers (le_roundToPage hfits)]
  | clone b source answer =>
    rw [Process.step] at hs
    split at hs
    next other hb hsource =>
      rw [Option.ite_none_right_eq_some] at hs
      obtain ⟨hoffers, hs⟩ := hs
      obtain ⟨hread, hlength, hle⟩ := h.bytes_spec hsource
      rw [if_pos hread] at hs
      cases hs
      rw [valueStep, values_none hb, values_some hsource, h.values_copied hoffers (by rwa [hlength])]
    · cases hs
  | moveConstruct b source =>
    rw [Process.step] at hs
    split at hs
    next other hb hsource =>
      cases hs
      rw [valueStep, values_none hb, values_some hsource, values_move]
    · cases hs
  | moveAssign b source =>
    rw [Process.step] at hs
    split at hs
    next this other hb hsource =>
      cases hs
      rw [valueStep, values_some hb, values_some hsource]
      dsimp only
      split
      · rfl
      next hne =>
        rw [h.values_moveAssign hb hsource hne]
    · cases hs
  | write b index value =>
    rw [Process.step] at hs
    split at hs
    · cases hs
    next buffer hb =>
      rw [Option.ite_none_right_eq_some] at hs
      obtain ⟨hlt, hs⟩ := hs
      obtain ⟨address, region, hdata, hregion, hlt', hh⟩ := h.poked hb hlt value
      rw [hdata] at hs
      cases hs
      show valueStep p.values (.write b index value) = some (p.poke address index value).values
      rw [valueStep, values_some hb, poke_eq hregion hlt', h.values_rewrite hb hdata]
      dsimp only
      rw [if_pos (by rwa [(h.bytes_spec hb).2.1]), bytes_eq hdata hregion, ← List.take_set]
  | reset b =>
    rw [Process.step] at hs
    split at hs
    · cases hs
    next buffer hb =>
      obtain rfl := Option.some.inj hs
      rw [valueStep, values_some hb, (h.reset_spec hb).1,
        h.values_drop hb fun _ hlast => (Option.some.inj hlast).symm]
      rfl
  | destroy b =>
    rw [Process.step] at hs
    split at hs
    · cases hs
    next buffer hb =>
      cases hs
      rw [valueStep, values_some hb, h.values_drop hb fun _ hlast => by cases hlast]
      rfl

/-- The buffers of a program are the values it works with, and compare as they do: pages,
addresses that come back and moves of a buffer onto itself cannot be seen. -/
theorem buffers_refine_values {acts : List BufferAct}
    (hok : RunMeets (step dwPageSize) (fun _ => Fits dwPageSize) {} acts)
    (hr : run (step dwPageSize) {} acts = some p) :
    run valueStep (fun _ => none) acts = some p.values ∧
      ∀ b buffer text, p.buffers b = some buffer →
        (constantTimeEquals (p.bytes buffer) text = true ↔ p.values b = some text) := by
  refine ⟨run_refines (fun _ _ _ h hfits hs => ⟨h.step hfits hs, h.values_step hfits hs⟩)
    owned_initial hok hr, fun b buffer text hb => ?_⟩
  rw [constantTimeEquals_iff, values_some hb, Option.some.injEq]

theorem buffers_refine_values_secret : ∃ p, run (step 4) {} secretActs = some p ∧
    run valueStep (fun _ => none) secretActs = some p.values ∧
    (List.range 5).map p.values = [none, some [], some [], some (zeros 6), none] :=
  ⟨_, rfl, (@buffers_refine_values 4 _ secretActs (by decide) rfl).1, rfl⟩

end Process

end NovaVpn.Secure
