import Mathlib.Data.List.DropRight
import NovaVpn.Core.Text

/-!
# Names for files

`paths::sanitizeFileName` of `Core/Paths.cpp`. Every step but the last
establishes its part of a `SafeName` and keeps what was there before
(`Sound.uncut`). The cut to 200 bytes comes after the trailing dots and spaces
were stripped, and can leave one at the end: the result is safe, and stays as
it is when it is sanitised again, exactly if the byte the cut leaves there is
neither (`sanitizeFileName_safe_iff`).
-/

namespace NovaVpn.Paths

/-- `kForbidden`. -/
def forbidden : List Char := "<>:\"/\\|?*".toList

/-- Neither a control character nor one of those a path gives a meaning to. -/
def isClean (c : Char) : Bool := 0x20 ≤ c.toNat && !forbidden.contains c

/-- What the loop over the name appends for a character. -/
def replaced (c : Char) : Char := if isClean c then c else '_'

/-- What the shell strips at the end of a name. -/
def isTrailing (c : Char) : Bool := c = '.' || c = ' '

/-- The name without its trailing dots and spaces. -/
def stripped (name : List Char) : List Char := name.rdropWhile isTrailing

/-- `kReserved`: the device names of DOS. -/
def reserved : List (List Char) :=
  ["CON", "PRN", "AUX", "NUL", "COM1", "COM2", "COM3", "COM4", "COM5", "COM6", "COM7", "COM8",
    "COM9", "LPT1", "LPT2", "LPT3", "LPT4", "LPT5", "LPT6", "LPT7", "LPT8", "LPT9"].map
      String.toList

/-- The part of a name before its first dot. -/
def stem (name : List Char) : List Char := name.takeWhile (· ≠ '.')

/-- The name is one of a device, whatever its extension. -/
def isReserved (name : List Char) : Bool :=
  reserved.any fun device => Str.equalsIgnoreCase (stem name) device

/-- The name before it is cut. -/
def uncut (name : List Char) : List Char :=
  let out := stripped (name.map replaced)
  let out := if out.isEmpty then "unnamed".toList else out
  if isReserved out then '_' :: out else out

/-- `paths::sanitizeFileName`. -/
def sanitizeFileName (name : List Char) : List Char :=
  let out := uncut name
  if out.length > 200 then out.take 200 else out

/-- What a sanitised name is to be, but for its length and its end. -/
structure Sound (name : List Char) : Prop where
  ne_nil : name ≠ []
  clean : ∀ c ∈ name, isClean c = true
  not_reserved : isReserved name = false

/-- What a sanitised name is to be. -/
structure SafeName (name : List Char) : Prop extends Sound name where
  length_le : name.length ≤ 200
  last : ∀ c ∈ name.getLast?, isTrailing c = false

variable {name : List Char} {c : Char}

theorem sanitizeFileName_eq (name : List Char) : sanitizeFileName name = (uncut name).take 200 := by
  by_cases h : (uncut name).length > 200
  · exact if_pos h
  · exact (if_neg h).trans (List.take_of_length_le (Nat.le_of_not_gt h)).symm

/-! ## Characters -/

theorem replaced_of_clean (h : isClean c = true) : replaced c = c := if_pos h

theorem replaced_of_not_clean (h : isClean c = false) : replaced c = '_' := by
  rw [replaced, h]
  rfl

theorem isClean_replaced (c : Char) : isClean (replaced c) = true := by
  cases h : isClean c with
  | true => rw [replaced_of_clean h, h]
  | false =>
    rw [replaced_of_not_clean h]
    decide

theorem isTrailing_replaced (c : Char) : isTrailing (replaced c) = isTrailing c := by
  cases h : isClean c with
  | true => rw [replaced_of_clean h]
  | false =>
    have hc : isTrailing c = false := by
      cases ht : isTrailing c with
      | false => rfl
      | true =>
        simp only [isTrailing, Bool.or_eq_true, decide_eq_true_eq] at ht
        rcases ht with rfl | rfl
        · exact absurd h (by decide)
        · exact absurd h (by decide)
    rw [replaced_of_not_clean h, hc]
    rfl

theorem replaced_eq_dot : replaced c = '.' ↔ c = '.' := by
  cases h : isClean c with
  | true => rw [replaced_of_clean h]
  | false =>
    rw [replaced_of_not_clean h]
    refine iff_of_false (by decide) fun hc => ?_
    rw [hc] at h
    exact absurd h (by decide)

/-- Only a clean character is, in lower case, a clean one. -/
theorem isClean_of_toLower (h : isClean c.toLower = true) : isClean c = true := by
  unfold Char.toLower at h
  split at h
  next hrange =>
    have h1 : 65 ≤ c.toNat := hrange.1
    have h2 : c.toNat ≤ 90 := hrange.2
    have hnot : forbidden.contains c = false := by
      cases hf : forbidden.contains c with
      | false => rfl
      | true =>
        have hall : forbidden.all (fun d => !(65 ≤ d.toNat && d.toNat ≤ 90)) = true := by decide
        have hc := List.all_eq_true.mp hall c (List.contains_iff_mem.mp hf)
        simp [h1, h2] at hc
    rw [isClean, hnot, decide_eq_true (by omega)]
    rfl
  next => exact h

/-! ## Device names -/

theorem length_reserved : ∀ device ∈ reserved, device.length ≤ 4 := by decide

theorem clean_reserved : ∀ device ∈ reserved, ∀ c ∈ Str.toLower device,
    isClean c = true ∧ c ≠ '_' := by
  have hall : reserved.all (fun device =>
      (Str.toLower device).all fun c => isClean c && c != '_') = true := by decide +kernel
  intro device hdevice c hc
  have hchar := List.all_eq_true.mp (List.all_eq_true.mp hall device hdevice) c hc
  rwa [Bool.and_eq_true, bne_iff_ne] at hchar

theorem stem_map_replaced (name : List Char) : stem (name.map replaced) = (stem name).map replaced := by
  unfold stem
  rw [List.takeWhile_map]
  congr 2
  funext c
  exact decide_eq_decide.mpr (not_congr replaced_eq_dot)

theorem map_replaced (h : ∀ c ∈ name, isClean c = true) : name.map replaced = name := by
  conv => rhs; rw [← List.map_id name]
  exact List.map_congr_left fun c hc => replaced_of_clean (h c hc)

/-- A text with a replaced character is no device name, before or after. -/
theorem equalsIgnoreCase_map_replaced {device : List Char} (h : device ∈ reserved)
    (text : List Char) :
    Str.equalsIgnoreCase (text.map replaced) device = Str.equalsIgnoreCase text device := by
  have hclean := clean_reserved device h
  have hmap : ∀ t : List Char, Str.toLower t = Str.toLower device →
      ∀ c ∈ t, isClean c = true ∧ c ≠ '_' := by
    intro t ht c hc
    have hmem : c.toLower ∈ Str.toLower device := ht ▸ List.mem_map_of_mem hc
    refine ⟨isClean_of_toLower (hclean _ hmem).1, ?_⟩
    rintro rfl
    exact (hclean _ hmem).2 rfl
  refine decide_eq_decide.mpr ⟨fun heq => ?_, fun heq => ?_⟩
  · have hself : text.map replaced = text := by
      refine map_replaced fun c hc => ?_
      cases hcl : isClean c with
      | true => rfl
      | false =>
        have hne := (hmap _ heq (replaced c) (List.mem_map_of_mem hc)).2
        exact absurd (replaced_of_not_clean hcl) hne
    rwa [hself] at heq
  · rw [map_replaced fun c hc => (hmap _ heq c hc).1]
    exact heq

theorem isReserved_map_replaced (name : List Char) :
    isReserved (name.map replaced) = isReserved name := by
  unfold isReserved
  rw [stem_map_replaced]
  refine Bool.eq_iff_iff.mpr ?_
  simp only [List.any_eq_true]
  refine exists_congr fun device => and_congr_right fun h => ?_
  rw [equalsIgnoreCase_map_replaced h]

theorem isReserved_cons_underscore (name : List Char) : isReserved ('_' :: name) = false := by
  rw [isReserved, List.any_eq_false]
  intro device h heq
  have hstem : stem ('_' :: name) = '_' :: stem name := rfl
  rw [hstem] at heq
  have hmem : '_' ∈ Str.toLower device := by
    rw [← of_decide_eq_true heq]
    exact List.mem_cons_self
  exact (clean_reserved device h _ hmem).2 rfl

/-- The stem of a cut name is a device name only if the whole stem is. -/
theorem isReserved_take {n : Nat} (hn : 4 < n) (h : isReserved name = false) :
    isReserved (name.take n) = false := by
  rw [isReserved, List.any_eq_false] at h ⊢
  intro device hdevice heq
  have hstem : stem (name.take n) = (stem name).take n := by
    unfold stem
    rw [List.take_takeWhile]
  have hlen : ((stem name).take n).length ≤ 4 := by
    have hlow := congrArg List.length (of_decide_eq_true heq)
    rw [Str.toLower, Str.toLower, List.length_map, List.length_map, hstem] at hlow
    rw [hlow]
    exact length_reserved device hdevice
  rw [List.length_take] at hlen
  rw [hstem, List.take_of_length_le (by omega)] at heq
  exact h device hdevice heq

/-! ## The steps -/

theorem stripped_map_replaced (name : List Char) :
    stripped (name.map replaced) = (stripped name).map replaced := by
  have hcomp : isTrailing ∘ replaced = isTrailing := funext isTrailing_replaced
  rw [stripped, stripped, List.rdropWhile, List.rdropWhile, ← List.map_reverse, List.dropWhile_map,
    hcomp, List.map_reverse]

theorem last_stripped (name : List Char) : ∀ c ∈ (stripped name).getLast?, isTrailing c = false := by
  intro c hc
  by_cases hne : stripped name = []
  · rw [hne] at hc
    cases hc
  · rw [List.getLast?_eq_some_getLast hne] at hc
    cases hc
    exact eq_false_of_ne_true (List.rdropWhile_last_not isTrailing name hne)

theorem stripped_eq_self (h : ∀ c ∈ name.getLast?, isTrailing c = false) : stripped name = name :=
  (List.rdropWhile_eq_self_iff ..).mpr fun hne htrailing => by
    rw [h _ (List.getLast?_eq_some_getLast hne)] at htrailing
    cases htrailing

/-- The name before the prefix of the device names. -/
def named (name : List Char) : List Char :=
  if (stripped name).isEmpty then "unnamed".toList else (stripped name).map replaced

theorem isReserved_named (name : List Char) : isReserved (named name) = isReserved (stripped name) := by
  unfold named
  split
  next h =>
    rw [List.isEmpty_iff.mp h]
    decide +kernel
  next => exact isReserved_map_replaced _

theorem uncut_eq (name : List Char) :
    uncut name = if isReserved (stripped name) then '_' :: named name else named name := by
  have hnamed : (if (stripped (name.map replaced)).isEmpty then "unnamed".toList
      else stripped (name.map replaced)) = named name := by
    rw [stripped_map_replaced, named, List.isEmpty_map]
  show (if isReserved _ then '_' :: _ else _) = _
  rw [hnamed, isReserved_named]

theorem named_ne_nil (name : List Char) : named name ≠ [] := by
  unfold named
  split
  · decide
  next h => exact fun hnil => h (List.isEmpty_iff.mpr (List.map_eq_nil_iff.mp hnil))

theorem clean_named (name : List Char) : ∀ c ∈ named name, isClean c = true := by
  unfold named
  split
  · exact List.all_eq_true.mp (by decide)
  next =>
    intro c hc
    obtain ⟨d, -, rfl⟩ := List.mem_map.mp hc
    exact isClean_replaced d

theorem last_named (name : List Char) : ∀ c ∈ (named name).getLast?, isTrailing c = false := by
  unfold named
  split
  · intro c hc
    cases hc
    decide
  next =>
    intro c hc
    rw [List.getLast?_map] at hc
    obtain ⟨d, hd, rfl⟩ := Option.map_eq_some_iff.mp hc
    rw [isTrailing_replaced]
    exact last_stripped name d hd

/-- Before the cut the name is all that it is to be, but for its length. -/
theorem sound_uncut (name : List Char) : Sound (uncut name) := by
  rw [uncut_eq]
  split
  · refine ⟨List.cons_ne_nil _ _, fun c hc => ?_, isReserved_cons_underscore _⟩
    rcases List.mem_cons.mp hc with rfl | hc
    · decide
    · exact clean_named name c hc
  next h =>
    refine ⟨named_ne_nil name, clean_named name, ?_⟩
    rw [isReserved_named]
    exact eq_false_of_ne_true h

theorem last_uncut (name : List Char) : ∀ c ∈ (uncut name).getLast?, isTrailing c = false := by
  rw [uncut_eq]
  split
  · rw [List.getLast?_cons_of_ne_nil (named_ne_nil name)]
    exact last_named name
  · exact last_named name

theorem Sound.take (h : Sound name) {n : Nat} (hn : 4 < n) : Sound (name.take n) where
  ne_nil hnil := by
    rcases List.take_eq_nil_iff.mp hnil with hzero | hnil
    · omega
    · exact h.ne_nil hnil
  clean c hc := h.clean c (List.mem_of_mem_take hc)
  not_reserved := isReserved_take hn h.not_reserved

/-- A safe name stays as it is. -/
theorem SafeName.sanitize_eq (h : SafeName name) : sanitizeFileName name = name := by
  have hstripped : stripped name = name := stripped_eq_self h.last
  have hnamed : named name = name := by
    rw [named, hstripped, map_replaced h.clean, if_neg]
    exact fun hempty => h.ne_nil (List.isEmpty_iff.mp hempty)
  rw [sanitizeFileName_eq, uncut_eq, hstripped, hnamed, h.not_reserved]
  exact List.take_of_length_le h.length_le

/-! ## The cut -/

/-- The place in the stripped name of the last byte that the cut leaves. -/
def lastPlace (name : List Char) : Nat := if isReserved (stripped name) then 198 else 199

/-- The cut leaves no dot and no space at the end: the byte at its place in the
name, without the trailing dots and spaces of that, is neither, if there is
one. -/
def EndsWell (name : List Char) : Prop :=
  ∀ c ∈ (stripped name)[lastPlace name]?, isTrailing c = false

theorem uncut_lastPlace (name : List Char) :
    (uncut name)[199]? = (stripped name)[lastPlace name]?.map replaced := by
  have hnamed : ∀ i, 7 ≤ i → (named name)[i]? = (stripped name)[i]?.map replaced := by
    intro i hi
    unfold named
    split
    next h =>
      rw [List.isEmpty_iff.mp h, List.getElem?_nil, List.getElem?_eq_none hi]
      rfl
    next => exact List.getElem?_map ..
  rw [uncut_eq, lastPlace]
  split
  · rw [List.getElem?_cons_succ, hnamed 198 (by decide)]
  · exact hnamed 199 (by decide)

/-- The end of the result, if it is not the end of the name. -/
theorem last_sanitizeFileName (name : List Char) :
    (∀ c ∈ (sanitizeFileName name).getLast?, isTrailing c = false) ↔ EndsWell name := by
  rw [sanitizeFileName_eq, List.getLast?_take, if_neg (by decide), uncut_lastPlace, EndsWell]
  cases (stripped name)[lastPlace name]? with
  | none =>
    refine iff_of_true ?_ fun c hc => by cases hc
    exact last_uncut name
  | some d =>
    show (∀ c ∈ some (replaced d), isTrailing c = false) ↔ ∀ c ∈ some d, isTrailing c = false
    simp only [Option.mem_def, Option.some.injEq, forall_eq', isTrailing_replaced]

/-- The result is a safe name, and sanitising it again does not change it, if and
only if the cut leaves no dot and no space at its end. -/
theorem sanitizeFileName_safe_iff (name : List Char) :
    (SafeName (sanitizeFileName name) ∧
      sanitizeFileName (sanitizeFileName name) = sanitizeFileName name) ↔ EndsWell name := by
  rw [← last_sanitizeFileName]
  constructor
  · exact fun h => h.1.last
  · intro hlast
    have hsafe : SafeName (sanitizeFileName name) := by
      refine ⟨?_, ?_, hlast⟩
      · rw [sanitizeFileName_eq]
        exact (sound_uncut name).take (by decide)
      · rw [sanitizeFileName_eq]
        exact List.length_take_le ..
    exact ⟨hsafe, hsafe.sanitize_eq⟩

/-- 199 letters and an extension: the cut leaves the dot. -/
theorem sanitizeFileName_leaves_dot : ¬ ∀ name, SafeName (sanitizeFileName name) ∧
    sanitizeFileName (sanitizeFileName name) = sanitizeFileName name := by
  intro h
  have hlast := (h (List.replicate 199 'a' ++ ".ovpn".toList)).1.last '.' (by decide +kernel)
  cases hlast

end NovaVpn.Paths
