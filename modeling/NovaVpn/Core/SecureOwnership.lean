import NovaVpn.Core.SecureMemory

/-!
# Who owns a secret

Every region has one owner in every state a program can reach, and a region that is
released is blank: what each call of `NovaVpn.Core.SecureMemory` keeps, then the runs.
-/

namespace NovaVpn.Secure.Process

open NovaVpn.Framework

variable {dwPageSize : Nat} {p p' : Process} {buffer other : SecureBuffer} {region : Region}
  {b c address size : Nat} {answer : Option (Nat × Bool)}

/-! ## What each call keeps -/

theorem setBuffer_cases {last : Option SecureBuffer} (hlast : ∀ buffer, last = some buffer → buffer = {})
    (hc : Function.update p.buffers b last c = some buffer) :
    buffer = {} ∨ c ≠ b ∧ p.buffers c = some buffer := by
  by_cases heq : c = b
  · rw [heq, Function.update_self] at hc
    exact .inl (hlast buffer hc)
  · rw [Function.update_of_ne heq] at hc
    exact .inr ⟨heq, hc⟩

/-- A buffer with nothing in it comes or stays, or one goes. -/
theorem Owned.setEmpty (h : Owned dwPageSize p) (hb : ∀ buffer, p.buffers b = some buffer → buffer = {})
    {last : Option SecureBuffer} (hlast : ∀ buffer, last = some buffer → buffer = {}) :
    Owned dwPageSize (p.setBuffer b last) where
  holds hc hdata := by
    rcases setBuffer_cases hlast hc with rfl | ⟨-, hc⟩
    · cases hdata
    · exact h.holds hc hdata
  empty hc hdata := by
    rcases setBuffer_cases hlast hc with rfl | ⟨-, hc⟩
    · rfl
    · exact h.empty hc hdata
  unique hc hc' hdata hdata' := by
    rcases setBuffer_cases hlast hc with rfl | ⟨-, hc⟩
    · cases hdata
    rcases setBuffer_cases hlast hc' with rfl | ⟨-, hc'⟩
    · cases hdata'
    exact h.unique hc hc' hdata hdata'
  covered hregion := by
    obtain ⟨c, buffer, hc, hdata⟩ := h.covered hregion
    refine ⟨c, buffer, (Function.update_of_ne ?_ ..).trans hc, hdata⟩
    rintro rfl
    rw [hb buffer hc] at hdata
    cases hdata
  clean := h.clean
  sound := h.sound

/-- A buffer comes with pages that nobody has. -/
theorem Owned.fill (h : Owned dwPageSize p) (hb : p.buffers b = none)
    (hfree : p.regions address = none) (hdata : buffer.data = some address)
    (hh : Holds dwPageSize buffer region) :
    Owned dwPageSize ((p.setRegion address (some region)).setBuffer b (some buffer)) := by
  have hne : ∀ {c other address'}, p.buffers c = some other → other.data = some address' →
      address' ≠ address := by
    rintro c other address' hc hdata' rfl
    obtain ⟨region', hregion', -⟩ := h.holds hc hdata'
    rw [hfree] at hregion'
    cases hregion'
  constructor
  case holds =>
    intro c other address' hc hdata'
    rcases update_some_cases hc with ⟨-, rfl⟩ | ⟨-, hc⟩
    · obtain rfl : address' = address := Option.some.inj (hdata'.symm.trans hdata)
      exact ⟨region, setRegion_self _, hh⟩
    · obtain ⟨region', hregion', hh'⟩ := h.holds hc hdata'
      exact ⟨region', (Function.update_of_ne (hne hc hdata') ..).trans hregion', hh'⟩
  case empty =>
    intro c other hc hdata'
    rcases update_some_cases hc with ⟨-, rfl⟩ | ⟨-, hc⟩
    · rw [hdata] at hdata'
      cases hdata'
    · exact h.empty hc hdata'
  case unique =>
    intro c c' other other' address' hc hc' hdata' hdata''
    rcases update_some_cases hc with ⟨rfl, rfl⟩ | ⟨-, hold⟩ <;>
      rcases update_some_cases hc' with ⟨rfl, rfl⟩ | ⟨-, hold'⟩
    · rfl
    · rw [hdata] at hdata'
      exact absurd (Option.some.inj hdata').symm (hne hold' hdata'')
    · rw [hdata] at hdata''
      exact absurd (Option.some.inj hdata'').symm (hne hold hdata')
    · exact h.unique hold hold' hdata' hdata''
  case covered =>
    intro address' region' hregion'
    rcases update_some_cases hregion' with ⟨rfl, -⟩ | ⟨-, hregion'⟩
    · exact ⟨b, buffer, Function.update_self .., hdata⟩
    · obtain ⟨c, other, hc, hdata'⟩ := h.covered hregion'
      refine ⟨c, other, (Function.update_of_ne ?_ ..).trans hc, hdata'⟩
      rintro rfl
      rw [hb] at hc
      cases hc
  case clean => exact h.clean
  case sound => exact h.sound

/-- The bytes of a region change, and its tail does not. -/
theorem Owned.rewrite (h : Owned dwPageSize p) (hb : p.buffers b = some buffer)
    (hdata : buffer.data = some address) (hh : Holds dwPageSize buffer region) :
    Owned dwPageSize (p.setRegion address (some region)) where
  holds {c other address'} hc hdata' := by
    by_cases heq : address' = address
    · subst heq
      obtain rfl := h.unique hb hc hdata hdata'
      obtain rfl : buffer = other := Option.some.inj (hb.symm.trans hc)
      exact ⟨region, setRegion_self _, hh⟩
    · obtain ⟨region', hregion', hh'⟩ := h.holds hc hdata'
      exact ⟨region', (Function.update_of_ne heq ..).trans hregion', hh'⟩
  empty := h.empty
  unique := h.unique
  covered {address' region'} hregion' := by
    rcases update_some_cases hregion' with ⟨rfl, -⟩ | ⟨-, hregion'⟩
    · exact ⟨b, buffer, hb, hdata⟩
    · exact h.covered hregion'
  clean := h.clean
  sound := h.sound

/-- A buffer is emptied, and stays so or goes. -/
theorem Owned.drop (h : Owned dwPageSize p) (hb : p.buffers b = some buffer)
    {last : Option SecureBuffer} (hlast : ∀ buffer, last = some buffer → buffer = {}) :
    Owned dwPageSize ((p.reset dwPageSize buffer).1.setBuffer b last) := by
  rcases reset_cases h hb with ⟨rfl, heq⟩ | ⟨address, region, hdata, -, heq⟩ <;> rw [heq]
  · refine h.setEmpty (fun buffer hbuffer => ?_) hlast
    exact Option.some.inj (hbuffer.symm.trans hb)
  -- The address is no other buffer's.
  have hne : ∀ {c other address'}, c ≠ b → p.buffers c = some other → other.data = some address' →
      address' ≠ address := by
    rintro c other address' hcb hc hdata' rfl
    exact hcb (h.unique hc hb hdata' hdata)
  constructor
  case holds =>
    intro c other address' hc hdata'
    rcases setBuffer_cases hlast hc with rfl | ⟨hcb, hc⟩
    · cases hdata'
    · obtain ⟨region', hregion', hh'⟩ := h.holds hc hdata'
      exact ⟨region', (Function.update_of_ne (hne hcb hc hdata') ..).trans hregion', hh'⟩
  case empty =>
    intro c other hc hdata'
    rcases setBuffer_cases hlast hc with rfl | ⟨-, hc⟩
    · rfl
    · exact h.empty hc hdata'
  case unique =>
    intro c c' other other' address' hc hc' hdata' hdata''
    rcases setBuffer_cases hlast hc with rfl | ⟨-, hc⟩
    · cases hdata'
    rcases setBuffer_cases hlast hc' with rfl | ⟨-, hc'⟩
    · cases hdata''
    exact h.unique hc hc' hdata' hdata''
  case covered =>
    intro address' region' hregion'
    obtain ⟨hne', hregion'⟩ := update_none_cases hregion'
    obtain ⟨c, other, hc, hdata'⟩ := h.covered hregion'
    refine ⟨c, other, (Function.update_of_ne ?_ ..).trans hc, hdata'⟩
    rintro rfl
    obtain rfl := Option.some.inj (hb.symm.trans hc)
    exact hne' (Option.some.inj (hdata'.symm.trans hdata))
  case clean =>
    intro region' hmem
    rcases List.mem_append.mp hmem with hmem | hmem
    · exact h.clean region' hmem
    · rw [List.mem_singleton.mp hmem, length_zeros]
  case sound => exact h.sound

theorem Owned.emptied (h : Owned dwPageSize p) (hb : p.buffers b = some buffer) :
    Owned dwPageSize ((p.reset dwPageSize buffer).1.setBuffer b (some {})) :=
  h.drop hb fun _ hlast => (Option.some.inj hlast).symm

theorem Owned.reset_spec (h : Owned dwPageSize p) (hb : p.buffers b = some buffer) :
    (p.reset dwPageSize buffer).2 = {} ∧ (p.reset dwPageSize buffer).1.buffers = p.buffers := by
  rcases reset_cases h hb with ⟨-, heq⟩ | ⟨address, region, -, -, heq⟩ <;> rw [heq]
  · exact ⟨rfl, rfl⟩
  · exact ⟨rfl, rfl⟩

/-- What one buffer has becomes another's. -/
theorem Owned.move (h : Owned dwPageSize p) {source : Nat}
    (hb : ∀ buffer, p.buffers b = some buffer → buffer = {}) (hsource : p.buffers source = some other)
    (hne : b ≠ source) :
    Owned dwPageSize ((p.setBuffer b (some other)).setBuffer source (some {})) := by
  have hof : ∀ {c buffer address},
      ((p.setBuffer b (some other)).setBuffer source (some {})).buffers c = some buffer →
      buffer.data = some address → c = b ∧ buffer = other ∨
        c ≠ b ∧ c ≠ source ∧ p.buffers c = some buffer := by
    intro c buffer address hc hdata
    rcases update_some_cases hc with ⟨-, rfl⟩ | ⟨hcs, hc⟩
    · cases hdata
    · rcases update_some_cases hc with ⟨hcb, rfl⟩ | ⟨hcb, hc⟩
      · exact .inl ⟨hcb, rfl⟩
      · exact .inr ⟨hcb, hcs, hc⟩
  constructor
  case holds =>
    intro c buffer address hc hdata
    rcases hof hc hdata with ⟨-, rfl⟩ | ⟨-, -, hc⟩
    · exact h.holds hsource hdata
    · exact h.holds hc hdata
  case empty =>
    intro c buffer hc hdata
    rcases update_some_cases hc with ⟨-, rfl⟩ | ⟨-, hc⟩
    · rfl
    · rcases update_some_cases hc with ⟨-, rfl⟩ | ⟨-, hc⟩
      · exact h.empty hsource hdata
      · exact h.empty hc hdata
  case unique =>
    intro c c' buffer buffer' address hc hc' hdata hdata'
    rcases hof hc hdata with ⟨rfl, rfl⟩ | ⟨-, hcs, hold⟩ <;>
      rcases hof hc' hdata' with ⟨rfl, rfl⟩ | ⟨-, hcs', hold'⟩
    · rfl
    · exact absurd (h.unique hsource hold' hdata hdata').symm hcs'
    · exact absurd (h.unique hsource hold hdata' hdata).symm hcs
    · exact h.unique hold hold' hdata hdata'
  case covered =>
    intro address region hregion
    obtain ⟨c, buffer, hc, hdata⟩ := h.covered hregion
    by_cases hcs : c = source
    · subst hcs
      obtain rfl := Option.some.inj (hsource.symm.trans hc)
      refine ⟨b, other, ?_, hdata⟩
      exact (Function.update_of_ne hne ..).trans (Function.update_self ..)
    · have hcb : c ≠ b := by
        rintro rfl
        rw [hb buffer hc] at hdata
        cases hdata
      refine ⟨c, buffer, ?_, hdata⟩
      exact (Function.update_of_ne hcs ..).trans ((Function.update_of_ne hcb ..).trans hc)
  case clean => exact h.clean
  case sound => exact h.sound

theorem holds_zeros {address : Nat} {locked : Bool} (hle : size ≤ roundToPage dwPageSize size) :
    Holds dwPageSize { data := some address, size, locked }
      { bytes := zeros (roundToPage dwPageSize size), locked } where
  length_eq := length_zeros _
  covers := by rwa [length_zeros]
  locked_eq := rfl
  rest := by
    rw [length_zeros, zeros, List.drop_replicate]
    rfl

theorem holds_copy {address : Nat} {locked : Bool} {data : List UInt8}
    (hle : data.length ≤ roundToPage dwPageSize data.length) :
    Holds dwPageSize { data := some address, size := data.length, locked }
      { bytes := data ++ zeros (roundToPage dwPageSize data.length - data.length), locked } where
  length_eq := by
    rw [List.length_append, length_zeros]
    exact Nat.add_sub_cancel' hle
  covers := by
    rw [List.length_append]
    exact Nat.le_add_right ..
  locked_eq := rfl
  rest := by
    rw [List.drop_left, List.length_append, length_zeros, Nat.add_sub_cancel_left]

/-- A buffer that is made is empty, or has a region nobody has; else it threw. -/
theorem Owned.born (h : Owned dwPageSize p) (hb : p.buffers b = none) (hoffers : p.offers answer = true)
    {made : Option (Process × SecureBuffer)}
    (hmade : ∀ p' buffer, made = some (p', buffer) → p' = p ∧ buffer = {} ∨
      ∃ address locked region, answer = some (address, locked) ∧ buffer.data = some address ∧
        Holds dwPageSize buffer region ∧ p' = p.setRegion address (some region)) :
    Owned dwPageSize (p.born b made) := by
  cases made with
  | none => exact h
  | some made =>
    obtain ⟨p', buffer⟩ := made
    rcases hmade p' buffer rfl with ⟨rfl, rfl⟩ | ⟨address, locked, region, rfl, hdata, hh, rfl⟩
    · refine h.setEmpty (fun other hother => ?_) fun other hother => (Option.some.inj hother).symm
      rw [hb] at hother
      cases hother
    · exact h.fill hb (Option.isNone_iff_eq_none.mp hoffers) hdata hh

theorem Owned.copied (h : Owned dwPageSize p) (hb : p.buffers b = none)
    (hoffers : p.offers answer = true) {data : List UInt8}
    (hle : data.length ≤ roundToPage dwPageSize data.length) :
    Owned dwPageSize (p.born b (p.copyFrom dwPageSize data answer)) := by
  refine h.born hb hoffers fun p' buffer hmade => ?_
  rcases copyFrom_cases hle hmade with ⟨-, rfl, rfl⟩ | ⟨-, address, locked, heq, rfl, rfl⟩
  · exact .inl ⟨rfl, rfl⟩
  · exact .inr ⟨address, locked, _, heq, rfl, holds_copy hle, rfl⟩

/-- The bytes of a buffer that is alive can be read, and are as many as it says. -/
theorem Owned.bytes_spec (h : Owned dwPageSize p) (hb : p.buffers b = some buffer) :
    p.readable buffer = true ∧ (p.bytes buffer).length = buffer.size ∧
      buffer.size ≤ roundToPage dwPageSize buffer.size := by
  cases hdata : buffer.data with
  | none =>
    rw [h.empty hb hdata]
    exact ⟨rfl, rfl, Nat.zero_le _⟩
  | some address =>
    obtain ⟨region, hregion, hh⟩ := h.holds hb hdata
    refine ⟨?_, ?_, hh.length_eq ▸ hh.covers⟩
    · simp only [readable, hdata, hregion, decide_eq_true_eq]
      exact hh.covers
    · simp only [bytes, hdata, Option.bind_some, hregion]
      exact List.length_take_of_le hh.covers

theorem Owned.poked (h : Owned dwPageSize p) (hb : p.buffers b = some buffer) {index : Nat}
    (hlt : index < buffer.size) (value : UInt8) : ∃ address region, buffer.data = some address ∧
      p.regions address = some region ∧ index < region.bytes.length ∧
      Holds dwPageSize buffer { region with bytes := region.bytes.set index value } := by
  cases hdata : buffer.data with
  | none =>
    rw [h.empty hb hdata] at hlt
    exact absurd hlt (Nat.not_lt_zero _)
  | some address =>
    obtain ⟨region, hregion, hh⟩ := h.holds hb hdata
    refine ⟨address, region, rfl, hregion, Nat.lt_of_lt_of_le hlt hh.covers, ?_, ?_, hh.locked_eq, ?_⟩
    · rw [List.length_set, hh.length_eq]
    · rw [List.length_set]
      exact hh.covers
    · rw [List.length_set, List.drop_set_of_lt hlt, hh.rest]

theorem poke_eq (hregion : p.regions address = some region) {index : Nat}
    (hlt : index < region.bytes.length) (value : UInt8) : p.poke address index value =
      p.setRegion address (some { region with bytes := region.bytes.set index value }) := by
  rw [poke, hregion]
  exact if_pos hlt

theorem Owned.step (h : Owned dwPageSize p) {act : BufferAct} (hfits : Fits dwPageSize act)
    (hs : p.step dwPageSize act = some p') : Owned dwPageSize p' := by
  cases act with
  | construct b =>
    rw [Process.step, Option.ite_none_right_eq_some] at hs
    obtain ⟨hb, hs⟩ := hs
    cases hs
    refine h.setEmpty (fun other hother => ?_) fun other hother => (Option.some.inj hother).symm
    rw [hb] at hother
    cases hother
  | allocate b size answer =>
    rw [Process.step, Option.ite_none_right_eq_some] at hs
    obtain ⟨⟨hb, hoffers⟩, hs⟩ := hs
    cases hs
    refine h.born hb hoffers fun p' buffer hmade => ?_
    rcases allocate_cases hmade with ⟨-, rfl, rfl⟩ | ⟨-, address, locked, heq, rfl, rfl⟩
    · exact .inl ⟨rfl, rfl⟩
    · exact .inr ⟨address, locked, _, heq, rfl, holds_zeros (le_roundToPage hfits), rfl⟩
  | copyFrom b data answer =>
    rw [Process.step, Option.ite_none_right_eq_some] at hs
    obtain ⟨⟨hb, hoffers⟩, hs⟩ := hs
    cases hs
    exact h.copied hb hoffers (le_roundToPage hfits)
  | clone b source answer =>
    rw [Process.step] at hs
    split at hs
    next other hb hsource =>
      rw [Option.ite_none_right_eq_some] at hs
      obtain ⟨hoffers, hs⟩ := hs
      obtain ⟨hread, hlength, hle⟩ := h.bytes_spec hsource
      rw [if_pos hread] at hs
      cases hs
      exact h.copied hb hoffers (by rwa [hlength])
    · cases hs
  | moveConstruct b source =>
    rw [Process.step] at hs
    split at hs
    next other hb hsource =>
      cases hs
      refine h.move (fun buffer hbuffer => ?_) hsource ?_
      · rw [hb] at hbuffer
        cases hbuffer
      · rintro rfl
        rw [hb] at hsource
        cases hsource
    · cases hs
  | moveAssign b source =>
    rw [Process.step] at hs
    split at hs
    next this other hb hsource =>
      cases hs
      split
      · exact h
      next hne =>
        have hmove := (h.emptied hb).move (fun buffer hbuffer => ?_)
          ((Function.update_of_ne (Ne.symm hne) ..).trans ((congrFun (h.reset_spec hb).2 _).trans hsource)) hne
        · rwa [setBuffer_setBuffer] at hmove
        · rw [setBuffer_self] at hbuffer
          exact (Option.some.inj hbuffer).symm
    · cases hs
  | write b index value =>
    rw [Process.step] at hs
    split at hs
    · cases hs
    next buffer hb =>
      rw [Option.ite_none_right_eq_some] at hs
      obtain ⟨hlt, hs⟩ := hs
      obtain ⟨address, region, hdata, hregion, hlt', hh⟩ := h.poked hb hlt value
      rw [hdata] at hs
      cases hs
      show Owned dwPageSize (p.poke address index value)
      rw [poke_eq hregion hlt']
      exact h.rewrite hb hdata hh
  | reset b =>
    rw [Process.step] at hs
    split at hs
    · cases hs
    next buffer hb =>
      obtain rfl := Option.some.inj hs
      rw [(h.reset_spec hb).1]
      exact h.emptied hb
  | destroy b =>
    rw [Process.step] at hs
    split at hs
    · cases hs
    next buffer hb =>
      cases hs
      exact h.drop hb nofun

/-- Whatever a program does with its buffers, no byte outside the pages of a buffer is
touched and none is released twice, what is released is blank and not locked any more, and
each region that is left belongs to one buffer that is alive. -/
theorem released_blank {acts : List BufferAct}
    (hok : RunMeets (step dwPageSize) (fun _ => Fits dwPageSize) {} acts)
    (hr : run (step dwPageSize) {} acts = some p) :
    p.fault = false ∧ (∀ region ∈ p.released, region = { bytes := zeros region.bytes.length }) ∧
      ∀ address region, p.regions address = some region →
        ∃! b, ∃ buffer, p.buffers b = some buffer ∧ buffer.data = some address := by
  have h : Owned dwPageSize p :=
    run_invariant (fun _ _ _ h hfits hs => h.step hfits hs) owned_initial hok hr
  refine ⟨h.sound, h.clean, fun address region hregion => ?_⟩
  obtain ⟨b, buffer, hb, hdata⟩ := h.covered hregion
  exact ⟨b, ⟨buffer, hb, hdata⟩, fun c ⟨other, hc, hdata'⟩ => h.unique hc hb hdata' hdata⟩

/-- A secret that is copied, cloned and moved over its copy. -/
def secretActs : List BufferAct :=
  [.copyFrom 0 [104, 117, 110, 116] (some (7, true)), .clone 1 0 (some (9, false)),
    .moveConstruct 2 0, .moveAssign 1 2, .write 1 0 72, .moveAssign 1 1, .destroy 0, .reset 1,
    .allocate 3 6 (some (7, false)), .copyFrom 4 [1] none]

theorem released_blank_secret : ∃ p, run (step 4) {} secretActs = some p ∧ p.fault = false ∧
    p.released.map (·.bytes) = [zeros 4, zeros 4] :=
  ⟨_, rfl, (@released_blank 4 _ secretActs (by decide) rfl).1, rfl⟩

end NovaVpn.Secure.Process
