import Mathlib.Data.List.Nodup
import NovaVpn.Core.Persist

/-!
# Change notifications

`ConfigStore::apply` makes each key of the overlay into a JSON pointer,
unescaped, compares what it finds there with what merging would make of it,
and notifies the pointers that differ. `apply_reset_iff` says when `apply` and
`reset` return and the notifications are those of the keys that changed: for
each key the pointer must be one the library can follow, and the overlay must
restate what is found there if, and only if, it restates what is under the
key.
-/

namespace NovaVpn

namespace Json

/-- Whether merging a value leaves what is there as it is, as the library
compares values. -/
def settled (current : Option Json) (value : Json) : Bool :=
  match current with
  | none => false
  | some c => (c.merge value).equals c

/-- What the pointer made from a key finds. -/
def pointed (root : Json) (key : String) : Throws (Option Json) :=
  match parsePointer ("/" ++ key) with
  | none => .error ()
  | some tokens => find tokens root

/-- Whether a value can be assigned at a pointer: no scalar stands in the way,
and every token is an index where an array does. -/
def assignable : List String → Json → Bool
  | [], _ => true
  | token :: tokens, root =>
    match root.container token with
    | .obj fields => assignable tokens ((fields.lookup token).getD .null)
    | .arr items =>
      match placeIndex items token with
      | some i => assignable tokens (items.getD i .null)
      | none => false
    | _ => false

theorem getD_append_replicate_null (items : List Json) (i n : Nat) :
    (items ++ List.replicate n Json.null).getD i .null = items.getD i .null := by
  simp only [List.getD_eq_getElem?_getD]
  by_cases hi : i < items.length
  · rw [List.getElem?_append_left hi]
  · rw [List.getElem?_append_right (by omega), List.getElem?_eq_none (by omega : items.length ≤ i),
      List.getElem?_replicate]
    split <;> rfl

theorem place_done (tokens : List String) (value root : Json) :
    (place tokens value root).2 = assignable tokens root := by
  induction tokens generalizing root with
  | nil => rfl
  | cons token tokens ih =>
    rw [place, assignable]
    generalize root.container token = j
    cases j with
    | obj fields => exact ih _
    | arr items =>
      cases hi : placeIndex items token with
      | none => simp only [hi]
      | some i =>
        simp only [hi]
        show (place tokens value ((items ++ List.replicate _ Json.null).getD i .null)).2 = _
        rw [ih, getD_append_replicate_null]
    | _ => rfl

end Json

namespace ConfigStore

open Json

/-! ## The loop of `apply` -/

/-- One round of the loop. -/
theorem changedPointers_cons (effective : Json) (f : String × Json) (fs : List (String × Json)) :
    changedPointers effective (f :: fs) = (do
      let current ← pointed effective f.1
      let others ← changedPointers effective fs
      .ok (if settled current f.2 then others else ("/" ++ f.1) :: others)) := by
  obtain ⟨key, value⟩ := f
  rw [changedPointers, pointed]
  cases parsePointer ("/" ++ key) with
  | none => rfl
  | some tokens =>
    cases hfind : find tokens effective with
    | error e => simp only [hfind]; rfl
    | ok current =>
      simp only [hfind]
      cases current with
      | none => rfl
      | some c =>
        show (changedPointers effective fs).bind _ = (changedPointers effective fs).bind _
        simp only [settled]
        by_cases hc : (c.merge value).equals c = true
        · simp only [hc, Bool.not_true, if_true]
          rfl
        · simp only [hc, Bool.not_false, if_true]
          rfl

/-- Whether the loop finds a field of the overlay restated. -/
def settledAt (effective : Json) (f : String × Json) : Bool :=
  match pointed effective f.1 with
  | .ok current => settled current f.2
  | .error _ => false

theorem settledAt_eq {effective : Json} {f : String × Json} {current : Option Json}
    (h : pointed effective f.1 = .ok current) : settledAt effective f = settled current f.2 := by
  rw [settledAt, h]

/-- The loop ends if every pointer can be followed, with those of the fields
that are not restated. -/
theorem changedPointers_eq_ok_iff {effective : Json} {fs : List (String × Json)}
    {changed : List String} :
    changedPointers effective fs = .ok changed ↔
      (∀ f ∈ fs, ∃ current, pointed effective f.1 = .ok current) ∧
      changed = (fs.filter fun f => !settledAt effective f).map fun f => "/" ++ f.1 := by
  induction fs generalizing changed with
  | nil =>
    rw [changedPointers, Except.ok.injEq]
    simp [eq_comm]
  | cons f fs ih =>
    rw [changedPointers_cons, List.forall_mem_cons]
    cases hp : pointed effective f.1 with
    | error e =>
      constructor
      · intro h
        cases h
      · intro h
        obtain ⟨_, hc⟩ := h.1.1
        cases hc
    | ok current =>
      rw [List.filter_cons, settledAt_eq hp]
      cases hrest : changedPointers effective fs with
      | error e =>
        constructor
        · intro h
          cases h
        · intro h
          have hok := ih.mpr ⟨h.1.2, rfl⟩
          rw [hrest] at hok
          cases hok
      | ok others =>
        obtain ⟨hall, hothers⟩ := ih.mp hrest
        simp only [Bind.bind, Except.bind, Except.ok.injEq]
        rw [and_iff_right ⟨⟨current, rfl⟩, hall⟩, hothers]
        cases settled current f.2 with
        | true => exact eq_comm
        | false => exact eq_comm

/-! ## The property -/

/-- Whether the value under a key differs in two snapshots. -/
def changed (before after : Doc) (key : String) : Bool :=
  !equalAt (after.field key) (before.field key)

/-- The keys of an object. -/
def keys (overlay : Doc) : List String := overlay.value.fields.map (·.1)

/-- One call for each key of the overlay that changed, and no other. -/
structure NotifiesExactly (before after overlay : Doc) (notified : List String) : Prop where
  once : ∀ key ∈ keys overlay, notified.count ("/" ++ key) = if changed before after key then 1 else 0
  only : ∀ pointer ∈ notified, ∃ key ∈ keys overlay, pointer = "/" ++ key

/-- A field of the overlay for which the loop looks at the right place: the
pointer can be followed, and the value is restated where it leads if, and only
if, it is restated under the key. -/
def Aligned (effective : Doc) (f : String × Json) : Prop :=
  ∃ current, pointed effective.value f.1 = .ok current ∧
    settled current f.2 = settled (effective.field f.1) f.2

/-- A pointer `reset` can follow in the defaults, and if there is a default,
assign in the document. -/
def Resettable (store : ConfigStore) (pointer : String) : Prop :=
  ∃ tokens, parsePointer pointer = some tokens ∧ ∃ default, find tokens store.defaults.value = .ok default ∧
    (default.isSome = true → assignable tokens store.effective.value = true)

/-- A key of the overlay changes if its value is not restated under it. -/
theorem changed_merge {effective overlay : Doc} (hobj : overlay.value.isObject = true)
    {f : String × Json} (hf : f ∈ overlay.value.fields) :
    changed effective (effective.merge overlay) f.1 = !settled (effective.field f.1) f.2 := by
  have hlookup : overlay.value.field f.1 = some f.2 :=
    lookup_of_mem overlay.ordered.fields hf
  have hmerged : (effective.merge overlay).field f.1 =
      some (mergedField (effective.field f.1) f.2) := by
    show (effective.value.merge overlay.value).field f.1 = _
    rw [field_merge overlay.ordered hobj, hlookup]
    rfl
  rw [changed, hmerged]
  cases effective.field f.1 <;> rfl

/-- `apply` returns if every pointer of the overlay can be followed. -/
theorem apply_returns_iff {store : ConfigStore} {overlay : Doc} :
    (∃ r, store.apply overlay = .ok r) ↔
      ∀ f ∈ overlay.value.fields, ∃ current, pointed store.effective.value f.1 = .ok current := by
  cases hobj : overlay.value.isObject with
  | false =>
    have hnil : overlay.value.fields = [] := by
      cases hv : overlay.value with
      | obj fields => simp [hv, isObject] at hobj
      | _ => rfl
    rw [hnil, apply, hobj]
    exact ⟨fun _ _ h => absurd h List.not_mem_nil, fun _ => ⟨_, rfl⟩⟩
  | true =>
    constructor
    · rintro ⟨r, h⟩
      rw [apply, hobj] at h
      cases hc : changedPointers store.effective.value overlay.value.fields with
      | error e =>
        rw [hc] at h
        cases h
      | ok changed => exact (changedPointers_eq_ok_iff.mp hc).1
    · intro h
      exact ⟨_, apply_of_object hobj (changedPointers_eq_ok_iff.mpr ⟨h, rfl⟩)⟩

theorem count_notified {effective : Json} {fs : List (String × Json)} (h : OrderedFields fs)
    {f : String × Json} (hf : f ∈ fs) :
    ((fs.filter fun f => !settledAt effective f).map fun f => "/" ++ f.1).count ("/" ++ f.1) =
      if settledAt effective f then 0 else 1 := by
  have hinj : Function.Injective fun key : String => "/" ++ key :=
    fun a b hab => String.append_right_inj "/" |>.mp hab
  have hkeys : ((fs.filter fun f => !settledAt effective f).map (·.1)).Nodup :=
    h.nodup.sublist (List.filter_sublist.map _)
  have hnodup : ((fs.filter fun f => !settledAt effective f).map fun f => "/" ++ f.1).Nodup := by
    have hmapped := List.Nodup.map hinj hkeys
    rwa [List.map_map] at hmapped
  rw [hnodup.count]
  cases hs : settledAt effective f with
  | true =>
    refine if_neg fun hm => ?_
    obtain ⟨g, hg, heq⟩ := List.mem_map.mp hm
    obtain ⟨hg, hgs⟩ := List.mem_filter.mp hg
    have hkey : g.1 = f.1 := hinj heq
    have hval : g = f := by
      have hl := lookup_of_mem h (show (g.1, g.2) ∈ fs from hg)
      rw [hkey, lookup_of_mem h (show (f.1, f.2) ∈ fs from hf)] at hl
      exact Prod.ext hkey (Option.some.inj hl).symm
    rw [hval, hs] at hgs
    cases hgs
  | false =>
    refine if_pos (List.mem_map.mpr ⟨f, List.mem_filter.mpr ⟨hf, ?_⟩, rfl⟩)
    rw [hs]
    rfl

/-- Where every pointer can be followed, the calls are exact if, and only if,
the overlay is aligned. -/
theorem notifiesExactly_iff {store : ConfigStore} {overlay : Doc}
    (hobj : overlay.value.isObject = true)
    (hfollow : ∀ f ∈ overlay.value.fields, ∃ current,
      pointed store.effective.value f.1 = .ok current) :
    NotifiesExactly store.effective (store.effective.merge overlay) overlay
        ((overlay.value.fields.filter fun f => !settledAt store.effective.value f).map
          fun f => "/" ++ f.1) ↔
      ∀ f ∈ overlay.value.fields, Aligned store.effective f := by
  constructor
  · intro h f hf
    obtain ⟨current, hc⟩ := hfollow f hf
    refine ⟨current, hc, ?_⟩
    have honce := h.once f.1 (List.mem_map.mpr ⟨f, hf, rfl⟩)
    rw [count_notified overlay.ordered.fields hf, changed_merge hobj hf, settledAt_eq hc] at honce
    revert honce
    cases settled current f.2 with
    | true => cases settled (store.effective.field f.1) f.2 <;> simp
    | false => cases settled (store.effective.field f.1) f.2 <;> simp
  · intro h
    constructor
    · intro key hkey
      obtain ⟨f, hf, rfl⟩ := List.mem_map.mp hkey
      obtain ⟨current, hc, hs⟩ := h f hf
      rw [count_notified overlay.ordered.fields hf, changed_merge hobj hf, settledAt_eq hc, ← hs]
      cases settled current f.2 <;> rfl
    · intro pointer hp
      obtain ⟨f, hf, rfl⟩ := List.mem_map.mp hp
      exact ⟨f.1, List.mem_map.mpr ⟨f, (List.mem_filter.mp hf).1, rfl⟩, rfl⟩

/-- `reset` returns if its pointer can be followed and assigned. -/
theorem reset_returns_iff {store : ConfigStore} {pointer : String} :
    (∃ r, (store.reset pointer).2 = .ok r) ↔ Resettable store pointer := by
  unfold reset Resettable
  cases hp : parsePointer pointer with
  | none => simp
  | some tokens =>
    simp only [Option.some.injEq, exists_eq_left']
    split
    · next hf => simp [hf]
    · next hf => simp [hf]
    · next value hf =>
      simp only [hf, place_done]
      cases assignable tokens store.effective.value <;> simp

/-- `apply` and `reset` return, and `apply` notifies exactly, if, and only if,
every field of the overlay is aligned and the pointer can be reset. -/
theorem apply_reset_iff (store : ConfigStore) (overlay : Doc) (pointer : String) :
    ((∃ r, store.apply overlay = .ok r) ∧ (∃ r, (store.reset pointer).2 = .ok r) ∧
      ∀ store' notified, store.apply overlay = .ok (.ok (store', notified)) →
        NotifiesExactly store.snapshot store'.snapshot overlay notified) ↔
    (∀ f ∈ overlay.value.fields, Aligned store.effective f) ∧ Resettable store pointer := by
  rw [reset_returns_iff]
  constructor
  · rintro ⟨happly, hreset, hexact⟩
    refine ⟨?_, hreset⟩
    have hfollow := apply_returns_iff.mp happly
    cases hobj : overlay.value.isObject with
    | false =>
      cases hv : overlay.value with
      | obj fields => simp [hv, isObject] at hobj
      | _ => exact fun f hf => absurd hf List.not_mem_nil
    | true =>
      have hok := apply_of_object hobj (changedPointers_eq_ok_iff.mpr ⟨hfollow, rfl⟩)
      exact (notifiesExactly_iff hobj hfollow).mp (hexact _ _ hok)
  · rintro ⟨haligned, hreset⟩
    have hfollow : ∀ f ∈ overlay.value.fields, ∃ current,
        pointed store.effective.value f.1 = .ok current := fun f hf =>
      (haligned f hf).imp fun _ h => h.1
    refine ⟨apply_returns_iff.mpr hfollow, hreset, fun store' notified h => ?_⟩
    obtain ⟨hobj, hc, rfl⟩ := apply_eq_ok h
    obtain ⟨-, rfl⟩ := changedPointers_eq_ok_iff.mp hc
    exact (notifiesExactly_iff hobj hfollow).mpr haligned

/-- A key with a lone `~` makes `apply` throw, and a pointer without a slash
`reset`. A key with a `/` is looked for elsewhere: it is new, and nobody is
told. -/
theorem apply_throws_and_misses :
    (¬ ∃ r, (ConfigStore.mk serviceConfigDefaults serviceConfigDefaults).apply
        (.ofFields [("~", .bool true)]) = .ok r) ∧
      (¬ ∃ r, ((ConfigStore.mk serviceConfigDefaults serviceConfigDefaults).reset "dns").2 = .ok r) ∧
      ∃ store' notified,
        (ConfigStore.mk serviceConfigDefaults serviceConfigDefaults).apply
            (.ofFields [("dns/mode", .str "tunnel")]) = .ok (.ok (store', notified)) ∧
          ¬ NotifiesExactly serviceConfigDefaults store'.snapshot
            (.ofFields [("dns/mode", .str "tunnel")]) notified := by
  refine ⟨fun h => ?_, fun h => ?_, _, [], apply_of_object rfl (by decide +kernel), fun h => ?_⟩
  · obtain ⟨_, hc⟩ := apply_returns_iff.mp h ("~", .bool true) (List.mem_singleton.mpr rfl)
    cases hc
  · obtain ⟨tokens, htokens, -⟩ := reset_returns_iff.mp h
    cases htokens
  · have honce := h.once "dns/mode" (by decide +kernel)
    rw [List.count_nil, if_pos (by decide +kernel)] at honce
    cases honce

end ConfigStore

end NovaVpn
