import NovaVpn.Core.Persist

/-!
# Merging, path by path

A path is a list of keys. An overlay overrides the paths at which it has a
value that does not merge (`Overrides`), and all below them; `valueAt_merge`
says what is at each path after merging. So on and below such a path the
overlay's values stand (`PathwiseMerge.overridden`), away from it the ones of
the base (`unchanged`), and between the root and such a path an object stays
one (`above`).
-/

namespace NovaVpn

namespace Json

/-- The value that is reached by the keys of a path, each in an object. -/
def valueAt : Json → List String → Option Json
  | j, [] => some j
  | j, key :: path => (j.field key).bind fun value => value.valueAt path

/-- The overlay has a value at the path that is not an object, or an object
where the base has none. -/
def Overrides (base overlay : Json) (path : List String) : Prop :=
  ∃ value, overlay.valueAt path = some value ∧
    (value.isObject = true → ∀ b, base.valueAt path = some b → b.isObject = false)

/-- The path lies on or below an overridden one. -/
def Covered (base overlay : Json) (path : List String) : Prop :=
  ∃ target, Overrides base overlay target ∧ target <+: path

variable {base overlay j b v : Json} {path : List String} {key : String}

theorem valueAt_cons : j.valueAt (key :: path) = (j.field key).bind fun c => c.valueAt path := rfl

theorem mem_of_field {fs : List (String × Json)} (h : (Json.obj fs).field key = some v) :
    (key, v) ∈ fs := by
  obtain ⟨l, r, hfs, -⟩ := List.lookup_eq_some_iff.mp h
  show (key, v) ∈ (Json.obj fs).fields
  rw [hfs]
  exact List.mem_append_right _ List.mem_cons_self

theorem isObject_of_field (h : j.field key = some v) : j.isObject = true := by
  cases j with
  | obj fs => rfl
  | _ => cases h

theorem merge_of_not_isObject (h : base.isObject = false) : merge base overlay = overlay := by
  cases overlay with
  | obj os =>
    cases base with
    | obj bs => cases h
    | _ => rfl
  | _ => rfl

theorem merge_not_isObject (h : overlay.isObject = false) : merge base overlay = overlay := by
  cases overlay with
  | obj os => cases h
  | _ => rfl

theorem isObject_merge (h : overlay.isObject = true) : (merge base overlay).isObject = true := by
  cases overlay with
  | obj os => cases base <;> rfl
  | _ => cases h

/-! ## Objects with the same fields -/

theorem OrderedFields.tail {f : String × Json} {fs : List (String × Json)}
    (h : OrderedFields (f :: fs)) : OrderedFields fs :=
  ⟨h.keys.tail, fun g hg => h.values g (List.mem_cons_of_mem _ hg)⟩

/-- An object is what its keys have. -/
theorem OrderedFields.ext {as bs : List (String × Json)} (ha : OrderedFields as)
    (hb : OrderedFields bs) (h : ∀ key, as.lookup key = bs.lookup key) : as = bs := by
  induction as generalizing bs with
  | nil =>
    cases bs with
    | nil => rfl
    | cons b bs =>
      have hb := h b.1
      rw [List.lookup_cons_self] at hb
      cases hb
  | cons a as ih =>
    obtain ⟨k, a⟩ := a
    cases bs with
    | nil =>
      have hk := h k
      rw [List.lookup_cons_self] at hk
      cases hk
    | cons b bs =>
      obtain ⟨l, b⟩ := b
      have hka := List.pairwise_cons.mp ha.keys
      have hkb := List.pairwise_cons.mp hb.keys
      have hkl : k = l := least_key_eq hka.1 hkb.1 fun key => congrArg Option.isSome (h key)
      subst hkl
      have hvalue := h k
      rw [List.lookup_cons_self, List.lookup_cons_self, Option.some.injEq] at hvalue
      rw [hvalue, ih ha.tail hb.tail fun key => ?_]
      by_cases hk : key = k
      · rw [hk, lookup_eq_none_of_lt hka.1, lookup_eq_none_of_lt hkb.1]
      · have hkey := h key
        rwa [lookup_cons_ne hk, lookup_cons_ne hk] at hkey

theorem Ordered.ext {a b : Json} (ha : Ordered a) (hb : Ordered b) (hoa : a.isObject = true)
    (hob : b.isObject = true) (h : ∀ key, a.field key = b.field key) : a = b := by
  cases a with
  | obj as =>
    cases b with
    | obj bs =>
      have heq : as = bs := OrderedFields.ext ha.fields hb.fields h
      rw [heq]
    | _ => cases hob
  | _ => cases hoa

theorem Ordered.field (hj : Ordered j) (h : j.field key = some v) : Ordered v := hj.fields.lookup h

/-! ## What is overridden -/

theorem overrides_nil :
    Overrides base overlay [] ↔ base.isObject = false ∨ overlay.isObject = false := by
  constructor
  · rintro ⟨value, hvalue, h⟩
    cases hvalue
    cases ho : overlay.isObject with
    | false => exact .inr rfl
    | true => exact .inl (h ho base rfl)
  · rintro (hb | ho)
    · exact ⟨overlay, rfl, fun _ b h => by cases h; exact hb⟩
    · exact ⟨overlay, rfl, fun h => by rw [ho] at h; cases h⟩

/-- Whether a path below a key is overridden depends on what has that key. -/
theorem overrides_cons : Overrides base overlay (key :: path) ↔
    ∃ value, overlay.field key = some value ∧
      match base.field key with
      | some b => Overrides b value path
      | none => value.valueAt path ≠ none := by
  unfold Overrides
  rw [valueAt_cons, valueAt_cons]
  cases overlay.field key with
  | none => simp
  | some value =>
    cases base.field key with
    | none => simp [Option.ne_none_iff_exists']
    | some b => simp

theorem covered_of_overrides (h : Overrides base overlay path) : Covered base overlay path :=
  ⟨path, h, List.prefix_rfl⟩

theorem covered_of_nil (h : Overrides base overlay []) (path : List String) :
    Covered base overlay path := ⟨[], h, List.nil_prefix⟩

theorem covered_nil : Covered base overlay [] ↔ Overrides base overlay [] := by
  constructor
  · rintro ⟨target, h, htarget⟩
    rwa [List.prefix_nil.mp htarget] at h
  · exact covered_of_overrides

theorem covered_cons (h : ¬ Overrides base overlay []) : Covered base overlay (key :: path) ↔
    ∃ value, overlay.field key = some value ∧
      ∀ b, base.field key = some b → Covered b value path := by
  constructor
  · rintro ⟨target, htarget, hpath⟩
    cases target with
    | nil => exact absurd htarget h
    | cons k target =>
      obtain ⟨rfl, hrest⟩ := List.cons_prefix_cons.mp hpath
      obtain ⟨value, hvalue, hcase⟩ := overrides_cons.mp htarget
      refine ⟨value, hvalue, fun b hb => ?_⟩
      rw [hb] at hcase
      exact ⟨target, hcase, hrest⟩
  · rintro ⟨value, hvalue, hcase⟩
    cases hb : base.field key with
    | none =>
      refine ⟨[key], overrides_cons.mpr ⟨value, hvalue, ?_⟩, List.cons_prefix_cons.mpr ⟨rfl, List.nil_prefix⟩⟩
      rw [hb]
      exact Option.some_ne_none _
    | some b =>
      obtain ⟨target, htarget, hpath⟩ := hcase b hb
      refine ⟨key :: target, overrides_cons.mpr ⟨value, hvalue, ?_⟩, List.cons_prefix_cons.mpr ⟨rfl, hpath⟩⟩
      rw [hb]
      exact htarget

/-! ## What is at a path after merging -/

/-- On and below an overridden path the overlay's values stand. -/
theorem valueAt_merge_of_covered (ho : Ordered overlay) (h : Covered base overlay path) :
    (merge base overlay).valueAt path = overlay.valueAt path := by
  by_cases hroot : Overrides base overlay []
  · rcases overrides_nil.mp hroot with hb | ho'
    · rw [merge_of_not_isObject hb]
    · rw [merge_not_isObject ho']
  · induction path generalizing base overlay with
    | nil => exact absurd (covered_nil.mp h) hroot
    | cons key path ih =>
      obtain ⟨value, hvalue, hcase⟩ := (covered_cons hroot).mp h
      rw [valueAt_cons, valueAt_cons, field_merge ho (isObject_of_field hvalue), hvalue]
      show (mergedField (base.field key) value).valueAt path = value.valueAt path
      cases hb : base.field key with
      | none => rfl
      | some b =>
        show (merge b value).valueAt path = value.valueAt path
        by_cases hsub : Overrides b value []
        · rcases overrides_nil.mp hsub with hb' | hv
          · rw [merge_of_not_isObject hb']
          · rw [merge_not_isObject hv]
        · exact ih (ho.field hvalue) (hcase b hb) hsub

/-- Elsewhere stands what the base had, merged with what the overlay has. -/
theorem valueAt_merge_of_not_covered (ho : Ordered overlay) (h : ¬ Covered base overlay path) :
    (merge base overlay).valueAt path =
      (base.valueAt path).map fun b => ((overlay.valueAt path).map (merge b)).getD b := by
  have hroot : ¬ Overrides base overlay [] := fun htarget => h (covered_of_nil htarget path)
  induction path generalizing base overlay with
  | nil => rfl
  | cons key path ih =>
    have hobj : overlay.isObject = true := by
      cases ho' : overlay.isObject with
      | false => exact absurd (overrides_nil.mpr (.inr ho')) hroot
      | true => rfl
    rw [valueAt_cons, valueAt_cons, valueAt_cons, field_merge ho hobj]
    cases hvalue : overlay.field key with
    | none =>
      cases base.field key with
      | none => rfl
      | some b => exact Option.map_id'.symm
    | some value =>
      rw [covered_cons hroot] at h
      cases hb : base.field key with
      | none =>
        refine absurd ⟨value, hvalue, fun b hb' => ?_⟩ h
        rw [hb] at hb'
        cases hb'
      | some b =>
        have hsub : ¬ Covered b value path := fun hsub => h ⟨value, hvalue, fun b' hb' => by
          rw [hb] at hb'
          cases hb'
          exact hsub⟩
        exact ih (ho.field hvalue) hsub fun htarget => hsub (covered_of_nil htarget path)

/-- An overlay that overrides nothing changes nothing. -/
theorem merge_eq_self (ho : Ordered overlay) (hb : Ordered base)
    (h : ∀ path, ¬ Overrides base overlay path) : merge base overlay = base := by
  induction overlay using Json.ind generalizing base with
  | obj os ih =>
    have hbase : base.isObject = true := by
      cases hobj : base.isObject with
      | false => exact absurd (overrides_nil.mpr (.inl hobj)) (h [])
      | true => rfl
    refine Ordered.ext (Ordered.merge _ ho hb) hb (isObject_merge rfl) hbase fun key => ?_
    rw [field_merge ho rfl]
    cases hvalue : (Json.obj os).field key with
    | none => rfl
    | some value =>
      cases hb' : base.field key with
      | none =>
        refine absurd (overrides_cons.mpr ⟨value, hvalue, ?_⟩) (h [key])
        rw [hb']
        exact Option.some_ne_none _
      | some b =>
        refine congrArg some (ih _ (mem_of_field hvalue) (ho.field hvalue) (hb.field hb') fun path htarget => ?_)
        refine h (key :: path) (overrides_cons.mpr ⟨value, hvalue, ?_⟩)
        rw [hb']
        exact htarget
  | _ => exact absurd (overrides_nil.mpr (.inr rfl)) (h [])

/-- Merging the same overlay again changes nothing. -/
theorem merge_merge (ho : Ordered overlay) (hb : Ordered base) :
    merge (merge base overlay) overlay = merge base overlay := by
  induction overlay using Json.ind generalizing base with
  | obj os ih =>
    have hm := Ordered.merge _ ho hb
    refine Ordered.ext (Ordered.merge _ ho hm) hm (isObject_merge rfl) (isObject_merge rfl)
      fun key => ?_
    rw [field_merge ho rfl, field_merge ho rfl]
    cases hvalue : (Json.obj os).field key with
    | none => rfl
    | some value =>
      have hmem := mem_of_field hvalue
      have hv := ho.field hvalue
      refine congrArg some ?_
      show merge (mergedField (base.field key) value) value = mergedField (base.field key) value
      cases hb' : base.field key with
      | none =>
        -- a value that was put there is one that was merged into null
        have hnull : merge .null value = value := merge_of_not_isObject rfl
        have hagain := ih _ hmem hv .null
        rwa [hnull] at hagain
      | some b => exact ih _ hmem hv (hb.field hb')
  | _ => rfl

/-! ## The paths of a merged document -/

theorem valueAt_append (j : Json) (path rest : List String) :
    j.valueAt (path ++ rest) = (j.valueAt path).bind fun c => c.valueAt rest := by
  induction path generalizing j with
  | nil => rfl
  | cons key path ih =>
    rw [List.cons_append, valueAt_cons, valueAt_cons, Option.bind_assoc]
    exact congrArg _ (funext ih)

theorem Ordered.valueAt (hj : Ordered j) (h : j.valueAt path = some v) : Ordered v := by
  induction path generalizing j with
  | nil =>
    cases h
    exact hj
  | cons key path ih =>
    obtain ⟨c, hc, hrest⟩ := Option.bind_eq_some_iff.mp h
    exact ih (hj.field hc) hrest

/-- What is overridden below a path depends on what is there. -/
theorem overrides_append {o : Json} (hb : base.valueAt path = some b)
    (ho : overlay.valueAt path = some o) (rest : List String) :
    Overrides base overlay (path ++ rest) ↔ Overrides b o rest := by
  unfold Overrides
  rw [valueAt_append, valueAt_append, hb, ho, Option.bind_some, Option.bind_some]

/-- Merging, path by path. -/
structure PathwiseMerge (base overlay merged : Json) : Prop where
  /-- An overridden path holds exactly the overlay's value. -/
  overridden : ∀ path, Overrides base overlay path →
    merged.valueAt path = overlay.valueAt path
  /-- A path of the base that lies neither on, below nor above an overridden
  one is unchanged. -/
  unchanged : ∀ path b, base.valueAt path = some b → ¬ Covered base overlay path →
    (∀ target, Overrides base overlay target → ¬ path <+: target) → merged.valueAt path = some b
  /-- A path of the base above an overridden one has an object before and
  after. -/
  above : ∀ path b, base.valueAt path = some b → ¬ Covered base overlay path →
    ∀ target, Overrides base overlay target → path <+: target →
      b.isObject = true ∧ ∃ m, merged.valueAt path = some m ∧ m.isObject = true
  /-- Every path comes from the overlay, on or below an overridden one, or from
  the base elsewhere. -/
  noOther : ∀ path, merged.valueAt path ≠ none ↔
    Covered base overlay path ∧ overlay.valueAt path ≠ none ∨
      ¬ Covered base overlay path ∧ base.valueAt path ≠ none
  again : merge merged overlay = merged

theorem valueAt_merge_above (ho : Ordered overlay) (hb : base.valueAt path = some b)
    (h : ¬ Covered base overlay path) {target : List String} (htarget : Overrides base overlay target)
    (hpath : path <+: target) :
    b.isObject = true ∧ ∃ m, (merge base overlay).valueAt path = some m ∧ m.isObject = true := by
  obtain ⟨rest, rfl⟩ := hpath
  cases rest with
  | nil =>
    rw [List.append_nil] at htarget
    exact absurd (covered_of_overrides htarget) h
  | cons key rest =>
    obtain ⟨value, hvalue, -⟩ := id htarget
    rw [valueAt_append, Option.bind_eq_some_iff] at hvalue
    obtain ⟨o, hpath, hrest⟩ := hvalue
    obtain ⟨c, hc, -⟩ := Option.bind_eq_some_iff.mp hrest
    have hobj : o.isObject = true := isObject_of_field hc
    refine ⟨?_, merge b o, ?_, isObject_merge hobj⟩
    · cases hbase : b.isObject with
      | true => rfl
      | false =>
        have hroot := (overrides_append hb hpath []).mpr (overrides_nil.mpr (.inl hbase))
        rw [List.append_nil] at hroot
        exact absurd (covered_of_overrides hroot) h
    · rw [valueAt_merge_of_not_covered ho h, hb, hpath]
      rfl

theorem valueAt_merge_unchanged (ho : Ordered overlay) (hbase : Ordered base)
    (hb : base.valueAt path = some b) (h : ¬ Covered base overlay path)
    (habove : ∀ target, Overrides base overlay target → ¬ path <+: target) :
    (merge base overlay).valueAt path = some b := by
  rw [valueAt_merge_of_not_covered ho h, hb, Option.map_some]
  cases hpath : overlay.valueAt path with
  | none => rfl
  | some o =>
    refine congrArg some (merge_eq_self (ho.valueAt hpath) (hbase.valueAt hb) fun rest htarget => ?_)
    exact habove _ ((overrides_append hb hpath rest).mpr htarget) (List.prefix_append path rest)

/-- `json::merge` is a pointwise override, away from the objects above what is
overridden. -/
theorem pathwiseMerge (base overlay : Doc) :
    PathwiseMerge base.value overlay.value (merge base.value overlay.value) where
  overridden _ h := valueAt_merge_of_covered overlay.ordered (covered_of_overrides h)
  unchanged _ _ hb h habove :=
    valueAt_merge_unchanged overlay.ordered base.ordered hb h habove
  above _ _ hb h _ htarget hpath := valueAt_merge_above overlay.ordered hb h htarget hpath
  noOther path := by
    by_cases h : Covered base.value overlay.value path
    · rw [valueAt_merge_of_covered overlay.ordered h]
      simp [h]
    · rw [valueAt_merge_of_not_covered overlay.ordered h, ne_eq, Option.map_eq_none_iff]
      simp [h]
  again := merge_merge overlay.ordered base.ordered

/-- An object in which something is added is not on or below what is overridden,
and not unchanged. -/
theorem merge_changes_objects : ¬ ∀ (base overlay : Doc) (path : List String) (b : Json),
    base.value.valueAt path = some b → ¬ Covered base.value overlay.value path →
      (merge base.value overlay.value).valueAt path = some b := by
  intro h
  have hkey := h (.ofFields [("a", .ofFields [("x", .int 1)])])
    (.ofFields [("a", .ofFields [("y", .int 2)])]) ["a"] (.obj [("x", .int 1)]) rfl ?_
  · cases hkey
  · rintro ⟨target, htarget, hpath⟩
    rcases List.prefix_cons_iff.mp hpath with rfl | ⟨rest, rfl, hrest⟩
    · rcases overrides_nil.mp htarget with h | h <;> cases h
    · rw [List.prefix_nil.mp hrest] at htarget
      obtain ⟨value, hvalue, hobj⟩ := htarget
      cases hvalue
      cases hobj rfl _ rfl

end Json

end NovaVpn
