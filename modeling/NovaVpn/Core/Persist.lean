import NovaVpn.Core.Config

/-!
# Saving and loading the configuration

What `save` writes is the delta of the effective document, and `load` merges
it over the defaults again. Neither says that a key is gone: `Json.covers`
says that no object of the document lacks a key of the default object in its
place, and `reload_snapshot_iff` that a reload gives the same document exactly
then, after any calls.
-/

namespace NovaVpn

namespace Json

/-! ## Equality, field by field -/

theorem equals_refl (j : Json) : j.equals j = true := by
  induction j using Json.ind with
  | arr items ih =>
    rw [equals]
    induction items with
    | nil => rfl
    | cons j items ihs =>
      rw [List.forall_mem_cons] at ih
      simp only [equalItems, ih.1, ihs ih.2, Bool.and_self]
  | obj fs ih =>
    rw [equals]
    induction fs with
    | nil => rfl
    | cons f fs ihs =>
      obtain ⟨k, v⟩ := f
      rw [List.forall_mem_cons] at ih
      simp only [equalFields, equalField, ih.1, ihs ih.2, beq_self_eq_true, Bool.and_self]
  | _ => simp [equals]

/-- The same of what a key has in two objects. -/
def equalAt : Option Json → Option Json → Bool
  | some a, some b => a.equals b
  | none, none => true
  | _, _ => false

theorem lookup_eq_none_of_lt {key : String} {fs : List (String × Json)}
    (h : ∀ f ∈ fs, key < f.1) : fs.lookup key = none :=
  List.lookup_eq_none_iff.mpr fun f hf => bne_iff_ne.mpr (ne_of_lt (h f hf))

/-- A key before the first one of an object is not in it. -/
theorem lookup_cons_of_lt {key k : String} {v : Json} {fs : List (String × Json)} (hlt : key < k)
    (h : ∀ f ∈ fs, k < f.1) : ((k, v) :: fs).lookup key = none := by
  refine lookup_eq_none_of_lt fun f hf => ?_
  rcases List.mem_cons.mp hf with rfl | hf
  · exact hlt
  · exact lt_trans hlt (h f hf)

theorem lookup_cons_ne {key k : String} (h : key ≠ k) (v : Json) (fs : List (String × Json)) :
    ((k, v) :: fs).lookup key = fs.lookup key := by
  rw [List.lookup_cons, beq_eq_false_iff_ne.mpr h]

/-- Two objects with the same keys start with the same: the least key of either
is in the other one too. -/
theorem least_key_eq {k l : String} {a b : Json} {as bs : List (String × Json)}
    (ha : ∀ f ∈ as, k < f.1) (hb : ∀ f ∈ bs, l < f.1)
    (h : ∀ key, (((k, a) :: as).lookup key).isSome = (((l, b) :: bs).lookup key).isSome) : k = l := by
  rcases lt_trichotomy k l with hlt | heq | hlt
  · have hk := h k
    rw [lookup_cons_of_lt hlt hb, List.lookup_cons_self] at hk
    cases hk
  · exact heq
  · have hl := h l
    rw [lookup_cons_of_lt hlt ha, List.lookup_cons_self] at hl
    cases hl

theorem isSome_eq_of_equalAt {x y : Option Json} (h : equalAt x y = true) : x.isSome = y.isSome := by
  cases x with
  | none =>
    cases y with
    | none => rfl
    | some b => cases h
  | some a =>
    cases y with
    | none => cases h
    | some b => rfl

/-- Two objects are equal if each key has the same in both. -/
theorem equalFields_iff {as bs : List (String × Json)} (ha : as.Pairwise (·.1 < ·.1))
    (hb : bs.Pairwise (·.1 < ·.1)) :
    equalFields as bs = true ↔ ∀ key, equalAt (as.lookup key) (bs.lookup key) = true := by
  induction as generalizing bs with
  | nil =>
    cases bs with
    | nil => simp [equalFields, equalAt]
    | cons b bs =>
      obtain ⟨l, b⟩ := b
      refine ⟨fun h => (by cases h), fun h => absurd (h l) ?_⟩
      simp [equalAt]
  | cons a as ih =>
    obtain ⟨k, a⟩ := a
    rw [List.pairwise_cons] at ha
    cases bs with
    | nil =>
      refine ⟨fun h => (by cases h), fun h => absurd (h k) ?_⟩
      simp [equalAt]
    | cons b bs =>
      obtain ⟨l, b⟩ := b
      rw [List.pairwise_cons] at hb
      have hrest := ih ha.2 hb.2
      rw [equalFields, equalField, Bool.and_eq_true, Bool.and_eq_true, beq_iff_eq, hrest]
      constructor
      · rintro ⟨⟨rfl, hab⟩, h⟩ key
        by_cases hk : key = k
        · subst hk
          simpa [equalAt] using hab
        · rw [lookup_cons_ne hk, lookup_cons_ne hk]
          exact h key
      · intro h
        have hkl : k = l := least_key_eq ha.1 hb.1 fun key => isSome_eq_of_equalAt (h key)
        subst hkl
        refine ⟨⟨rfl, by simpa [equalAt] using h k⟩, fun key => ?_⟩
        by_cases hk : key = k
        · subst hk
          rw [lookup_eq_none_of_lt ha.1, lookup_eq_none_of_lt hb.1]
          rfl
        · have hkey := h key
          rwa [lookup_cons_ne hk, lookup_cons_ne hk] at hkey

/-! ## Documents that lack no key -/

mutual

/-- Where both are objects, every key of the defaults is in the effective
document, and what it has there again covers the default. -/
def covers (defaults effective : Json) : Bool :=
  match defaults with
  | .obj ds =>
    match effective with
    | .obj es => coversFields ds es
    | _ => true
  | _ => true
termination_by structural defaults

def coversFields (defaults effective : List (String × Json)) : Bool :=
  match defaults with
  | [] => true
  | d :: ds => coversField d effective && coversFields ds effective
termination_by structural defaults

def coversField (d : String × Json) (effective : List (String × Json)) : Bool :=
  match d with
  | (key, base) =>
    match effective.lookup key with
    | some value => covers base value
    | none => false
termination_by structural d

end

theorem coversFields_iff_mem {ds es : List (String × Json)} :
    coversFields ds es = true ↔ ∀ d ∈ ds, coversField d es = true := by
  induction ds with
  | nil => simp [coversFields]
  | cons d ds ih => rw [coversFields, Bool.and_eq_true, ih, List.forall_mem_cons]

theorem lookup_of_mem {fs : List (String × Json)} (h : OrderedFields fs) {key : String}
    {value : Json} (hm : (key, value) ∈ fs) : fs.lookup key = some value := by
  obtain ⟨hkeys, -⟩ := h
  induction fs with
  | nil => cases hm
  | cons f fs ih =>
    rw [List.pairwise_cons] at hkeys
    obtain ⟨k, v⟩ := f
    rcases List.mem_cons.mp hm with heq | hm
    · cases heq
      simp
    · have hlt : k < key := hkeys.1 _ hm
      rw [lookup_cons_ne (ne_of_gt hlt)]
      exact ih hm hkeys.2

/-- The keys an object covers, one by one. -/
theorem coversFields_iff {ds es : List (String × Json)} (h : OrderedFields ds) :
    coversFields ds es = true ↔ ∀ key base, ds.lookup key = some base →
      ∃ value, es.lookup key = some value ∧ covers base value = true := by
  have hfield : ∀ key base, coversField (key, base) es = true ↔
      ∃ value, es.lookup key = some value ∧ covers base value = true := by
    intro key base
    rw [coversField]
    cases es.lookup key <;> simp
  rw [coversFields_iff_mem]
  constructor
  · intro hall key base hl
    obtain ⟨l, r, hds, -⟩ := List.lookup_eq_some_iff.mp hl
    exact (hfield key base).mp (hall _ (by simp [hds]))
  · rintro hall ⟨key, base⟩ hm
    exact (hfield key base).mpr (hall key base (lookup_of_mem h hm))

/-! ## The delta, merged again -/

theorem merge_empty (base : Json) (h : base.isObject = true) : merge base (.obj []) = base := by
  cases base with
  | obj bs => simp [merge, mergeFields]
  | _ => cases h

theorem merge_of_not_both {base overlay : Json}
    (h : (overlay.isObject && base.isObject) = false) : merge base overlay = overlay := by
  cases overlay with
  | obj os =>
    cases base with
    | obj bs => cases h
    | _ => rfl
  | _ => rfl

theorem covers_of_not_both {defaults effective : Json}
    (h : (effective.isObject && defaults.isObject) = false) : covers defaults effective = true := by
  cases defaults with
  | obj ds =>
    cases effective with
    | obj es => cases h
    | _ => rfl
  | _ => rfl

/-- Merging a nested delta does the same whether or not an empty one is
written. -/
theorem merge_delta_of_isEmpty {base value : Json} (hb : base.isObject = true)
    (hv : value.isObject = true) (h : (computeDelta base value).isEmpty = true) :
    merge base (computeDelta base value) = base := by
  cases value with
  | obj es =>
    cases base with
    | obj ds =>
      rw [computeDelta] at h ⊢
      rw [List.isEmpty_iff.mp h]
      exact merge_empty _ rfl
    | _ => cases hb
  | _ => cases hv

/-- What a reload makes of one key. -/
def reloaded (ds es : List (String × Json)) (key : String) : Option Json :=
  match (es.lookup key).bind fun value => deltaField ds (key, value) with
  | some value => some (mergedField (ds.lookup key) value)
  | none => ds.lookup key

theorem lookup_reloaded (ds : List (String × Json)) {es : List (String × Json)}
    (he : OrderedFields es) (key : String) :
    (mergeFields ds (deltaFields ds es [])).lookup key = reloaded ds es key := by
  have hd := OrderedFields.deltaFields es ds he .nil
  rw [lookup_mergeFields hd.nodup, lookup_deltaFields he.nodup rfl]
  rfl

/-- A key survives a reload if the default of it is covered; by `ih` that is
so of nested objects. -/
theorem equalAt_reloaded_iff {ds es : List (String × Json)} {key : String}
    (ih : ∀ value base, es.lookup key = some value → ds.lookup key = some base →
      (value.equals (merge base (computeDelta base value)) = true ↔ covers base value = true)) :
    equalAt (es.lookup key) (reloaded ds es key) = true ↔
      ∀ base, ds.lookup key = some base →
        ∃ value, es.lookup key = some value ∧ covers base value = true := by
  unfold reloaded
  cases he : es.lookup key with
  | none => cases hd : ds.lookup key <;> simp [equalAt]
  | some value =>
    cases hd : ds.lookup key with
    | none => simp [deltaField, hd, mergedField, equalAt, equals_refl]
    | some base =>
      simp only [Option.bind_some, deltaField, hd, mergedField, Option.some.injEq, forall_eq',
        exists_eq_left']
      cases hobj : value.isObject && base.isObject with
      | true =>
        rw [Bool.and_eq_true] at hobj
        rw [if_pos rfl, ← ih value base he hd]
        split
        · next hv =>
          split at hv
          · cases hv
          · cases hv
            rfl
        · next hv =>
          split at hv
          · next hempty =>
            rw [merge_delta_of_isEmpty hobj.2 hobj.1 hempty]
            rfl
          · cases hv
      | false =>
        rw [covers_of_not_both hobj, if_neg (by decide)]
        cases heq : value.equals base with
        | true => simpa [equalAt] using heq
        | false =>
          simp only [Bool.false_eq_true, if_false, merge_of_not_both hobj]
          simp [equalAt, equals_refl]

theorem equals_merge_delta_iff (effective : Json) {defaults : Json} (hd : Ordered defaults)
    (he : Ordered effective) :
    effective.equals (merge defaults (computeDelta defaults effective)) = true ↔
      covers defaults effective = true := by
  induction effective using Json.ind generalizing defaults with
  | obj es ih =>
    cases defaults with
    | obj ds =>
      have hes : OrderedFields es := he.fields
      have hds : OrderedFields ds := hd.fields
      have hdelta := OrderedFields.deltaFields es ds hes .nil
      have hmerged := OrderedFields.mergeFields _ hdelta hds
      rw [computeDelta, merge, equals, covers, equalFields_iff hes.keys hmerged.keys,
        coversFields_iff hds]
      refine forall_congr' fun key => ?_
      rw [lookup_reloaded ds hes]
      refine equalAt_reloaded_iff fun value base hv hb => ?_
      obtain ⟨l, r, heq, -⟩ := List.lookup_eq_some_iff.mp hv
      have hmem : (key, value) ∈ es := by simp [heq]
      exact ih _ hmem (hds.lookup hb) (hes.lookup hv)
    | _ => simp [computeDelta, merge, covers, equals_refl]
  | _ => cases defaults <;> simp [computeDelta, merge, covers, equals_refl]

end Json

namespace ConfigStore

/-- A new store with the same defaults, which loads what this one saves. -/
def reload (store : ConfigStore) : ConfigStore :=
  (({ defaults := store.defaults } : ConfigStore).load (some (.ok store.delta))).2

/-- After any calls, a reload gives the same document if, and only if, no
object of it lacks a key of the default one. -/
theorem reload_snapshot_iff (defaults : Doc) (cs : List Call) :
    let store := ({ defaults } : ConfigStore).calls cs
    store.snapshot.value.equals store.reload.snapshot.value = true ↔
      defaults.value.covers store.snapshot.value = true := by
  intro store
  have hd : store.defaults = defaults := calls_defaults _ cs
  rw [← hd]
  exact Json.equals_merge_delta_iff store.effective.value store.defaults.ordered
    store.effective.ordered

/-- Two overlays empty a section, and a reload brings its defaults back. -/
theorem reload_restores_emptied :
    let store := ({ defaults := serviceConfigDefaults } : ConfigStore).calls
      [.apply (.ofFields [("dns", .bool false)]), .apply (.ofFields [("dns", .object)])]
    (store.snapshot.field "dns").any Json.isEmpty = true ∧
      store.delta.field "dns" = none ∧
      store.snapshot.value.equals store.reload.snapshot.value = false := by
  decide +kernel

end ConfigStore

end NovaVpn
