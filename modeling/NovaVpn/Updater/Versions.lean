import Mathlib.Data.Nat.Find
import Mathlib.Order.PiLex
import NovaVpn.Core.Numerals
import NovaVpn.Updater.Updater

/-!
# The order of versions

`compareVersions` packs the first four components of a version into sixteen
bits each, without a check: what a component has more than that is or-ed into
the fields before it, and components behind the fourth are dropped. Versions
are ordered as their components are exactly if the fields first differ in the
same direction (`orders_rightly_iff`). That is so for the versions that fit,
and for no others: one that does not fit is taken for one that does.
-/

namespace NovaVpn.Updater

open NovaVpn.Str

/-! ## The order of components -/

/-- A text of decimal numbers with dots between them. -/
inductive Dotted : List Char → List Nat → Prop
  | last {text : List Char} {n : Nat} (h : Numeral 10 decimalDigit text n) : Dotted text [n]
  | dot {text rest : List Char} {n : Nat} {ns : List Nat} (h : Numeral 10 decimalDigit text n)
      (hrest : Dotted rest ns) : Dotted (text ++ '.' :: rest) (n :: ns)

/-- A component that is missing is zero. -/
def component (ns : List Nat) (i : Nat) : Nat := ns.getD i 0

/-- The components are compared one after the other. -/
def Older (ns ms : List Nat) : Prop := toLex (component ns) < toLex (component ms)

/-- Two sequences differ first at `k`. -/
def DifferFirst (f g : Nat → Nat) (k : Nat) : Prop := (∀ i < k, f i = g i) ∧ f k ≠ g k

theorem exists_differFirst {f g : Nat → Nat} (h : f ≠ g) : ∃ k, DifferFirst f g k := by
  have hex : ∃ i, f i ≠ g i := Function.ne_iff.mp h
  exact ⟨Nat.find hex, fun i hi => not_not.mp (Nat.find_min hex hi), Nat.find_spec hex⟩

namespace DifferFirst

variable {f g : Nat → Nat} {k : Nat}

protected theorem symm (h : DifferFirst f g k) : DifferFirst g f k :=
  ⟨fun i hi => (h.1 i hi).symm, h.2.symm⟩

theorem lt_iff (h : DifferFirst f g k) : toLex f < toLex g ↔ f k < g k := by
  refine ⟨fun ⟨j, heq, hlt⟩ => ?_, fun hlt => ⟨k, h.1, hlt⟩⟩
  rcases Nat.lt_trichotomy j k with hjk | rfl | hkj
  · exact absurd (h.1 j hjk) (Nat.ne_of_lt hlt)
  · exact hlt
  · exact absurd (heq k hkj) h.2

theorem ne (h : DifferFirst f g k) : f ≠ g := fun heq => h.2 (congrFun heq k)

end DifferFirst

/-! ## The fields of the packed word -/

/-- What the components leave in each sixteen bits of the word. -/
def field (ns : List Nat) : Nat → Nat
  | 0 => (component ns 0 ||| component ns 1 >>> 16 ||| component ns 2 >>> 32 |||
      component ns 3 >>> 48) % 2 ^ 16
  | 1 => (component ns 1 ||| component ns 2 >>> 16 ||| component ns 3 >>> 32) % 2 ^ 16
  | 2 => (component ns 2 ||| component ns 3 >>> 16) % 2 ^ 16
  | 3 => component ns 3 % 2 ^ 16
  | _ => 0

/-- The components in the four fields, and nothing else. -/
structure Fits (ns : List Nat) : Prop where
  small : ∀ i, component ns i < 2 ^ 16
  four : ∀ i ≥ 4, component ns i = 0

theorem field_lt (ns : List Nat) (i : Nat) : field ns i < 2 ^ 16 := by
  unfold field
  split <;> first | exact Nat.mod_lt _ (by decide) | decide

theorem Fits.field_eq {ns : List Nat} (h : Fits ns) : field ns = component ns := by
  have hshift (i n : Nat) (hn : 16 ≤ n) : component ns i >>> n = 0 :=
    Nat.shiftRight_eq_zero _ _ (Nat.lt_of_lt_of_le (h.small i) (Nat.pow_le_pow_right (by decide) hn))
  funext i
  match i with
  | 0 | 1 | 2 | 3 =>
    simp only [field, hshift _ _ (by decide : 16 ≤ 16), hshift _ _ (by decide : 16 ≤ 32),
      hshift _ _ (by decide : 16 ≤ 48), Nat.or_zero, Nat.mod_eq_of_lt (h.small _)]
  | n + 4 => exact (h.four (n + 4) (by omega)).symm

/-- The word that the components are packed in. -/
def packed (ns : List Nat) : Nat :=
  (component ns 0 <<< 48 ||| component ns 1 <<< 32 ||| component ns 2 <<< 16 ||| component ns 3) %
    2 ^ 64

theorem field_eq (ns : List Nat) :
    field ns 0 = packed ns >>> 48 % 2 ^ 16 ∧ field ns 1 = packed ns >>> 32 % 2 ^ 16 ∧
      field ns 2 = packed ns >>> 16 % 2 ^ 16 ∧ field ns 3 = packed ns % 2 ^ 16 := by
  refine ⟨?_, ?_, ?_, ?_⟩ <;>
  · refine Nat.eq_of_testBit_eq fun i => ?_
    simp only [field, packed, Nat.testBit_mod_two_pow, Nat.testBit_shiftRight, Nat.testBit_or,
      Nat.testBit_shiftLeft]
    by_cases hi : i < 16
    · grind
    · simp [hi]

theorem packed_lt (ns : List Nat) : packed ns < 2 ^ 64 := Nat.mod_lt _ (by decide)

/-- The word is its four fields. -/
theorem packed_eq (ns : List Nat) : packed ns =
    field ns 0 * 2 ^ 48 + field ns 1 * 2 ^ 32 + field ns 2 * 2 ^ 16 + field ns 3 := by
  obtain ⟨h0, h1, h2, h3⟩ := field_eq ns
  have hlt := packed_lt ns
  rw [h0, h1, h2, h3, Nat.shiftRight_eq_div_pow, Nat.shiftRight_eq_div_pow,
    Nat.shiftRight_eq_div_pow]
  omega

theorem packed_eq_of_field_eq {ns ms : List Nat} (h : field ns = field ms) :
    packed ns = packed ms := by
  rw [packed_eq, packed_eq, h]

/-- Words are in the order of their fields. -/
theorem packed_lt_of_field_lt {ns ms : List Nat} (h : toLex (field ns) < toLex (field ms)) :
    packed ns < packed ms := by
  obtain ⟨k, heq, hlt⟩ := h
  have hn := field_lt ns
  have hm := field_lt ms
  have hn1 := hn 1
  have hn2 := hn 2
  have hn3 := hn 3
  rw [packed_eq, packed_eq]
  match k with
  | 0 =>
    replace hlt : field ns 0 < field ms 0 := hlt
    omega
  | 1 =>
    replace hlt : field ns 1 < field ms 1 := hlt
    have h0 : field ns 0 = field ms 0 := heq 0 (by decide)
    omega
  | 2 =>
    replace hlt : field ns 2 < field ms 2 := hlt
    have h0 : field ns 0 = field ms 0 := heq 0 (by decide)
    have h1 : field ns 1 = field ms 1 := heq 1 (by decide)
    omega
  | 3 =>
    replace hlt : field ns 3 < field ms 3 := hlt
    have h0 : field ns 0 = field ms 0 := heq 0 (by decide)
    have h1 : field ns 1 = field ms 1 := heq 1 (by decide)
    have h2 : field ns 2 = field ms 2 := heq 2 (by decide)
    omega
  | n + 4 => exact absurd hlt (Nat.lt_irrefl 0)

/-! ## What is read of a version -/

theorem ordinalStep_dot (done : List UInt64) (n : UInt64) :
    ordinalStep (done, n) '.' = (if done.length < 4 then done ++ [n] else done, 0) := rfl

theorem ordinalStep_digit {c : Char} {d : Nat} (h : decimalDigit c = some d) (done : List UInt64)
    (n : UInt64) : ordinalStep (done, n) c = (done, n * 10 + UInt64.ofNat d) := by
  have hdot : c ≠ '.' := by
    rintro rfl
    cases h
  rw [ordinalStep, if_neg hdot, h]

/-- A number is read modulo 2^64. -/
theorem foldl_numeral {text : List Char} {n : Nat} (h : Numeral 10 decimalDigit text n)
    (done : List UInt64) : text.foldl ordinalStep (done, 0) = (done, UInt64.ofNat n) := by
  induction h with
  | one h =>
    rw [List.foldl_cons, List.foldl_nil, ordinalStep_digit h, UInt64.zero_mul, UInt64.zero_add]
  | snoc init h ih =>
    rw [List.foldl_append, ih, List.foldl_cons, List.foldl_nil, ordinalStep_digit h,
      UInt64.ofNat_add, UInt64.ofNat_mul]
    rfl

/-- The first four numbers are kept. -/
theorem foldl_dotted {text : List Char} {ns : List Nat} (h : Dotted text ns) (done : List UInt64)
    (hlen : done.length ≤ 4) :
    (let read := text.foldl ordinalStep (done, 0)
      if read.1.length < 4 then read.1 ++ [read.2] else read.1) =
      (done ++ ns.map UInt64.ofNat).take 4 := by
  induction h generalizing done with
  | @last text n h =>
    dsimp only
    rw [foldl_numeral h]
    by_cases hfull : done.length < 4
    · rw [if_pos hfull, List.take_of_length_le (by rw [List.length_append]; exact hfull)]
      rfl
    · rw [if_neg hfull, List.take_append_of_le_length (by omega), List.take_of_length_le hlen]
  | @dot text rest n ns h hrest ih =>
    rw [List.foldl_append, foldl_numeral h, List.foldl_cons, ordinalStep_dot]
    by_cases hfull : done.length < 4
    · rw [if_pos hfull, ih _ (by rw [List.length_append]; exact hfull), List.map_cons, List.append_assoc]
      rfl
    · rw [if_neg hfull, ih _ hlen, List.take_append_of_le_length (by omega),
        List.take_append_of_le_length (by omega)]

theorem toNat_ordinal {v : String} {ns : List Nat} (h : Dotted v.toList ns) :
    (ordinal v).toNat = packed ns := by
  have hparts := foldl_dotted h [] (by decide)
  have hpart (i : Nat) (hi : i < 4) :
      ((ns.map UInt64.ofNat).take 4).getD i 0 = UInt64.ofNat (component ns i) := by
    rw [List.getD_eq_getElem?_getD, List.getElem?_take_of_lt hi, List.getElem?_map, component,
      List.getD_eq_getElem?_getD]
    cases ns[i]? <;> rfl
  dsimp only [List.nil_append] at hparts
  have hordinal : ordinal v = UInt64.ofNat (component ns 0) <<< 48 |||
      UInt64.ofNat (component ns 1) <<< 32 ||| UInt64.ofNat (component ns 2) <<< 16 |||
        UInt64.ofNat (component ns 3) := by
    simp only [ordinal, hparts]
    rw [hpart 0 (by decide), hpart 1 (by decide), hpart 2 (by decide), hpart 3 (by decide)]
  rw [hordinal]
  simp only [UInt64.toNat_or, UInt64.toNat_shiftLeft, UInt64.toNat_ofNat']
  refine Nat.eq_of_testBit_eq fun i => ?_
  simp only [packed, Nat.testBit_mod_two_pow, Nat.testBit_or, Nat.testBit_shiftLeft]
  by_cases hi : i < 64
  · have hsub (k : Nat) : i - k < 64 := by omega
    simp [hi, hsub]
  · simp [hi]

section Compare

variable {a b : String} {ns ms : List Nat}

theorem compareVersions_lt_iff (ha : Dotted a.toList ns) (hb : Dotted b.toList ms) :
    compareVersions a b = .lt ↔ packed ns < packed ms := by
  rw [compareVersions, Std.compare_eq_lt, UInt64.lt_iff_toNat_lt, toNat_ordinal ha, toNat_ordinal hb]

theorem compareVersions_eq_iff (ha : Dotted a.toList ns) (hb : Dotted b.toList ms) :
    compareVersions a b = .eq ↔ packed ns = packed ms := by
  rw [compareVersions, Std.compare_eq_iff_eq, ← UInt64.toNat_inj, toNat_ordinal ha, toNat_ordinal hb]

theorem compareVersions_gt_iff (ha : Dotted a.toList ns) (hb : Dotted b.toList ms) :
    compareVersions a b = .gt ↔ packed ms < packed ns := by
  rw [compareVersions, Std.compare_eq_gt, UInt64.lt_iff_toNat_lt, toNat_ordinal ha,
    toNat_ordinal hb]

end Compare

/-- A release that is offered is later than the current version, as versions
are compared. -/
theorem gt_of_check {k : Setup} {manifest signature : Result Bytes} {stage : UpdateStage}
    {release : ReleaseInfo} (hpolicy : k.config.allowDowngrade = false)
    (h : check k manifest signature = (stage, .ok release)) :
    compareVersions release.version k.config.currentVersion = .gt := by
  unfold check at h
  split at h
  next => cases h
  next => cases h
  next =>
    dsimp only at h
    split at h
    · cases h
    · split at h
      · cases h
      · split at h
        · cases h
        next hcmp =>
          split at h
          · cases h
          · cases h
            cases hc : compareVersions release.version k.config.currentVersion with
            | gt => rfl
            | eq => exact absurd (Or.inl hc) hcmp
            | lt => exact absurd (Or.inr ⟨hc, hpolicy⟩) hcmp

/-! ## When versions are in order -/

/-- Two versions are compared as their components are, and a release is not
offered to a later version. -/
structure OrdersRightly (a b : String) (ns ms : List Nat) : Prop where
  less : compareVersions a b = .lt ↔ Older ns ms
  equal : compareVersions a b = .eq ↔ component ns = component ms
  greater : compareVersions a b = .gt ↔ Older ms ns
  preorder : Std.TransCmp compareVersions
  noDowngrade : ∀ (k : Setup) (manifest signature : Result Bytes) (stage : UpdateStage)
    (release : ReleaseInfo), k.config.allowDowngrade = false → k.config.currentVersion = b →
      check k manifest signature = (stage, .ok release) → release.version = a → ¬ Older ns ms

/-- The fields first differ in the direction in which the components do. -/
def FieldsFollow (ns ms : List Nat) : Prop :=
  component ns = component ms ∨
    ∃ j k, DifferFirst (component ns) (component ms) j ∧ DifferFirst (field ns) (field ms) k ∧
      (component ns j < component ms j ↔ field ns k < field ms k)

instance transCmp_compareVersions : Std.TransCmp compareVersions where
  eq_swap {a b} := Std.OrientedOrd.eq_swap (a := ordinal a) (b := ordinal b)
  isLE_trans {a b c} := Std.TransOrd.isLE_trans (a := ordinal a) (b := ordinal b) (c := ordinal c)

theorem field_congr {ns ms : List Nat} (h : component ns = component ms) : field ns = field ms := by
  funext i
  unfold field
  split <;> simp only [h]

theorem DifferFirst.packed_lt_iff {ns ms : List Nat} {k : Nat}
    (h : DifferFirst (field ns) (field ms) k) : packed ns < packed ms ↔ field ns k < field ms k := by
  refine ⟨fun hlt => ?_, fun hlt => packed_lt_of_field_lt (h.lt_iff.mpr hlt)⟩
  by_contra hge
  have hgt : field ms k < field ns k := Nat.lt_of_le_of_ne (Nat.le_of_not_lt hge) h.symm.2
  exact Nat.lt_asymm hlt (packed_lt_of_field_lt (h.symm.lt_iff.mpr hgt))

theorem DifferFirst.packed_ne {ns ms : List Nat} {k : Nat}
    (h : DifferFirst (field ns) (field ms) k) : packed ns ≠ packed ms := by
  intro heq
  rcases Nat.lt_or_gt_of_ne h.2 with hlt | hgt
  · exact absurd (h.packed_lt_iff.mpr hlt) (by omega)
  · exact absurd (h.symm.packed_lt_iff.mpr hgt) (by omega)

section Compare

variable {a b : String} {ns ms : List Nat}

theorem FieldsFollow.ordersRightly (ha : Dotted a.toList ns) (hb : Dotted b.toList ms)
    (h : FieldsFollow ns ms) : OrdersRightly a b ns ms := by
  have hcompare : (compareVersions a b = .lt ↔ Older ns ms) ∧
      (compareVersions a b = .eq ↔ component ns = component ms) ∧
      (compareVersions a b = .gt ↔ Older ms ns) := by
    rw [compareVersions_lt_iff ha hb, compareVersions_eq_iff ha hb, compareVersions_gt_iff ha hb,
      Older, Older]
    rcases h with heq | ⟨j, k, hj, hk, hway⟩
    · rw [packed_eq_of_field_eq (field_congr heq), heq]
      have hirrefl := lt_irrefl (toLex (component ms))
      exact ⟨iff_of_false (Nat.lt_irrefl _) hirrefl, iff_of_true rfl rfl,
        iff_of_false (Nat.lt_irrefl _) hirrefl⟩
    · have hj' := hj.2
      have hk' := hk.2
      rw [hk.packed_lt_iff, hk.symm.packed_lt_iff, hj.lt_iff, hj.symm.lt_iff]
      refine ⟨hway.symm, iff_of_false hk.packed_ne hj.ne, ?_⟩
      omega
  refine ⟨hcompare.1, hcompare.2.1, hcompare.2.2, inferInstance, ?_⟩
  rintro k manifest signature stage release hpolicy rfl hcheck rfl hold
  have hgt := gt_of_check hpolicy hcheck
  rw [hcompare.1.mpr hold] at hgt
  cases hgt

theorem OrdersRightly.fieldsFollow (ha : Dotted a.toList ns) (hb : Dotted b.toList ms)
    (h : OrdersRightly a b ns ms) : FieldsFollow ns ms := by
  by_cases heq : component ns = component ms
  · exact Or.inl heq
  · have hfield : field ns ≠ field ms := fun hfield =>
      heq (h.equal.mp ((compareVersions_eq_iff ha hb).mpr (packed_eq_of_field_eq hfield)))
    obtain ⟨j, hj⟩ := exists_differFirst heq
    obtain ⟨k, hk⟩ := exists_differFirst hfield
    refine Or.inr ⟨j, k, hj, hk, ?_⟩
    rw [← hj.lt_iff, ← hk.packed_lt_iff, ← compareVersions_lt_iff ha hb]
    exact h.less.symm

end Compare

theorem Fits.fieldsFollow {ns ms : List Nat} (hn : Fits ns) (hm : Fits ms) : FieldsFollow ns ms := by
  by_cases heq : component ns = component ms
  · exact Or.inl heq
  · obtain ⟨j, hj⟩ := exists_differFirst heq
    refine Or.inr ⟨j, j, hj, ?_, ?_⟩
    · rwa [hn.field_eq, hm.field_eq]
    · rw [hn.field_eq, hm.field_eq]

/-! ## The version that another one is taken for -/

/-- The version with the fields for its components. -/
def taken (ns : List Nat) : List Nat := [field ns 0, field ns 1, field ns 2, field ns 3]

def versionText : List Nat → List Char
  | [] => []
  | [n] => Nat.toDigits 10 n
  | n :: ns => Nat.toDigits 10 n ++ '.' :: versionText ns

theorem component_taken (ns : List Nat) : component (taken ns) = field ns := by
  funext i
  match i with
  | 0 | 1 | 2 | 3 => rfl
  | n + 4 => rfl

theorem fits_taken (ns : List Nat) : Fits (taken ns) where
  small i := by
    rw [component_taken]
    exact field_lt ns i
  four i hi := by
    obtain ⟨n, rfl⟩ := Nat.exists_eq_add_of_le' hi
    rfl

theorem dotted_versionText (n : Nat) (ns : List Nat) : Dotted (versionText (n :: ns)) (n :: ns) := by
  induction ns generalizing n with
  | nil => exact .last (decimal_toDigits n)
  | cons m ns ih => exact .dot (decimal_toDigits n) (ih m)

/-- A version that does not fit is taken for one that does. -/
theorem exists_misordered {a : String} {ns : List Nat} (ha : Dotted a.toList ns) (h : ¬ Fits ns) :
    ∃ v vs, Dotted v.toList vs ∧ Fits vs ∧ compareVersions a v = .eq ∧
      component ns ≠ component vs := by
  have hv : Dotted (String.ofList (versionText (taken ns))).toList (taken ns) := by
    rw [String.toList_ofList]
    exact dotted_versionText _ _
  refine ⟨_, taken ns, hv, fits_taken ns, ?_, fun heq => h ?_⟩
  · rw [compareVersions_eq_iff ha hv]
    refine packed_eq_of_field_eq ?_
    rw [(fits_taken ns).field_eq, component_taken]
  · refine ⟨fun i => ?_, fun i hi => ?_⟩
    · rw [heq]
      exact (fits_taken ns).small i
    · rw [heq]
      exact (fits_taken ns).four i hi

/-- Two versions are ordered rightly exactly if their fields follow their
components. All versions that fit are; one that does not fit is taken for a
version that fits. -/
theorem orders_rightly_iff {a b : String} {ns ms : List Nat} (ha : Dotted a.toList ns)
    (hb : Dotted b.toList ms) :
    (OrdersRightly a b ns ms ↔ FieldsFollow ns ms) ∧
      (Fits ns → Fits ms → OrdersRightly a b ns ms) ∧
      (¬ Fits ns → ∃ v vs, Dotted v.toList vs ∧ Fits vs ∧ ¬ OrdersRightly a v ns vs) := by
  refine ⟨⟨fun h => h.fieldsFollow ha hb, fun h => h.ordersRightly ha hb⟩, fun hn hm => ?_,
    fun hn => ?_⟩
  · exact (hn.fieldsFollow hm).ordersRightly ha hb
  · obtain ⟨v, vs, hv, hvs, heq, hne⟩ := exists_misordered ha hn
    exact ⟨v, vs, hv, hvs, fun h => hne (h.equal.mp heq)⟩

theorem patch_ordersRightly : OrdersRightly "1.2.10" "1.2.9" [1, 2, 10] [1, 2, 9] := by
  have hdiffer : DifferFirst (component [1, 2, 10]) (component [1, 2, 9]) 2 := ⟨by decide, by decide⟩
  have hfield : DifferFirst (field [1, 2, 10]) (field [1, 2, 9]) 2 := ⟨by decide, by decide⟩
  exact (orders_rightly_iff (a := "1.2.10") (b := "1.2.9") (dotted_versionText 1 [2, 10])
    (dotted_versionText 1 [2, 9])).1.mpr (Or.inr ⟨2, 2, hdiffer, hfield, by decide⟩)

/-- A date for a build number outweighs the patch level. -/
theorem date_build_misordered : ¬ ∀ a b ns ms, Dotted a.toList ns → Dotted b.toList ms →
    OrdersRightly a b ns ms := by
  intro h
  have hbuild := h "1.0.0.20240101" "1.0.1.0" _ _ (dotted_versionText 1 [0, 0, 20240101])
    (dotted_versionText 1 [0, 1, 0])
  have hdiffer : DifferFirst (component [1, 0, 0, 20240101]) (component [1, 0, 1, 0]) 2 :=
    ⟨by decide, by decide⟩
  have hold : Older [1, 0, 0, 20240101] [1, 0, 1, 0] := hdiffer.lt_iff.mpr (by decide)
  have hcompare : compareVersions "1.0.0.20240101" "1.0.1.0" = .gt := by decide +kernel
  rw [hbuild.less.mpr hold] at hcompare
  cases hcompare

end NovaVpn.Updater
