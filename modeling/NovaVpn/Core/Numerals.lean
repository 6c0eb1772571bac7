import Mathlib.Algebra.Group.Nat.Defs
import NovaVpn.Core.Text

/-!
# Numerals

What a text of digits stands for (`Numeral`), which is what the readers of this
program compute digit by digit (`digits_eq_some_iff`) and what printing a number
gives (`numeral_toDigits`).
-/

namespace NovaVpn.Str

/-- A text of digits, the most significant first, and its value. -/
inductive Numeral (base : Nat) (digit : Char → Option Nat) : List Char → Nat → Prop
  | one {c : Char} {d : Nat} (h : digit c = some d) : Numeral base digit [c] d
  | snoc {text : List Char} {n : Nat} {c : Char} {d : Nat} (init : Numeral base digit text n)
      (h : digit c = some d) : Numeral base digit (text ++ [c]) (n * base + d)

variable {base : Nat} {digit : Char → Option Nat} {text : List Char} {n : Nat}

theorem digits_append (base : Nat) (digit : Char → Option Nat) (acc : Nat) (xs ys : List Char) :
    digits base digit acc (xs ++ ys) = (digits base digit acc xs).bind (digits base digit · ys) := by
  induction xs generalizing acc with
  | nil => rfl
  | cons c cs ih =>
    simp only [List.cons_append, digits]
    cases digit c with
    | none => rfl
    | some d => exact ih _

namespace Numeral

theorem ne_nil (h : Numeral base digit text n) : text ≠ [] := by
  cases h with
  | one => simp
  | snoc => simp

theorem digits_eq (h : Numeral base digit text n) : digits base digit 0 text = some n := by
  induction h with
  | one h => simp [digits, h]
  | snoc _ h ih => simp [digits_append, ih, digits, h]

/-- Every character is a digit. -/
theorem isSome_of_mem (h : Numeral base digit text n) {c : Char} (hc : c ∈ text) :
    (digit c).isSome = true := by
  induction h with
  | one h =>
    rw [List.mem_singleton.mp hc, h]
    rfl
  | snoc _ h ih =>
    rcases List.mem_append.mp hc with hc | hc
    · exact ih hc
    · rw [List.mem_singleton.mp hc, h]
      rfl

/-- A character that is no digit is not in a numeral. -/
theorem notMem (h : Numeral base digit text n) {c : Char} (hc : digit c = none) : c ∉ text := by
  intro hmem
  have := h.isSome_of_mem hmem
  rw [hc] at this
  cases this

theorem functional {m : Nat} (h : Numeral base digit text n) (h' : Numeral base digit text m) :
    n = m := by
  have := h.digits_eq
  rw [h'.digits_eq] at this
  exact (Option.some.inj this).symm

/-- A numeral whose first digit is not zero is as large as its length says. -/
theorem pow_le (h : Numeral base digit text n)
    (hhead : ∀ c ∈ text.head?, digit c ≠ some 0) : base ^ (text.length - 1) ≤ n := by
  induction h with
  | one h =>
    rename_i c d
    have : d ≠ 0 := fun h0 => hhead c rfl (h0 ▸ h)
    exact Nat.one_le_iff_ne_zero.mpr this
  | snoc init h ih =>
    rename_i text n c d
    have hpos := List.length_pos_iff.mpr init.ne_nil
    have hle := ih fun c hc => hhead c (by rw [List.head?_append, Option.mem_def.mp hc]; rfl)
    calc base ^ ((text ++ [c]).length - 1) = base ^ (text.length - 1) * base := by
          rw [← Nat.pow_succ, List.length_append, List.length_singleton]
          congr 1
          omega
      _ ≤ n * base := Nat.mul_le_mul_right _ hle
      _ ≤ n * base + d := Nat.le_add_right ..

theorem lt_pow (h : Numeral base digit text n) (hdigit : ∀ c d, digit c = some d → d < base) :
    n < base ^ text.length := by
  induction h with
  | one h =>
    rw [List.length_singleton, Nat.pow_one]
    exact hdigit _ _ h
  | snoc init h ih =>
    rename_i text n c d
    calc n * base + d < n * base + base := Nat.add_lt_add_left (hdigit _ _ h) _
      _ = (n + 1) * base := (Nat.succ_mul ..).symm
      _ ≤ base ^ text.length * base := Nat.mul_le_mul_right _ ih
      _ = base ^ (text ++ [c]).length := by rw [List.length_append, List.length_singleton, Nat.pow_succ]

end Numeral

theorem hexDigit_lt {c : Char} {d : Nat} (h : hexDigit c = some d) : d < 16 := by
  have hbound {lo hi : Char} {k : Nat} (hk : hi.toNat = lo.toNat + k) (hle : c ≤ hi) :
      c.toNat - lo.toNat ≤ k := by
    have : c.toNat ≤ hi.toNat := hle
    omega
  unfold hexDigit at h
  split at h
  next hrange =>
    cases h
    exact Nat.lt_of_le_of_lt (hbound (k := 9) rfl hrange.2) (by decide)
  next =>
    split at h
    next hrange =>
      cases h
      exact Nat.add_lt_add_right (Nat.lt_succ_of_le (hbound (k := 5) rfl hrange.2)) 10
    next =>
      split at h
      next hrange =>
        cases h
        exact Nat.add_lt_add_right (Nat.lt_succ_of_le (hbound (k := 5) rfl hrange.2)) 10
      next => cases h

theorem eq_of_sub_eq_zero {c z : Char} (hle : z ≤ c) (h : c.toNat - z.toNat = 0) : c = z := by
  have : z.toNat ≤ c.toNat := hle
  exact Char.ext (UInt32.toNat_inj.mp (show c.toNat = z.toNat by omega))

/-- Only `0` has the value zero. -/
theorem eq_zero_of_decimalDigit {c : Char} (h : decimalDigit c = some 0) : c = '0' := by
  unfold decimalDigit at h
  split at h
  next hrange => exact eq_of_sub_eq_zero hrange.1 (Option.some.inj h)
  next => cases h

theorem eq_zero_of_hexDigit {c : Char} (h : hexDigit c = some 0) : c = '0' := by
  unfold hexDigit at h
  split at h
  next hrange => exact eq_of_sub_eq_zero hrange.1 (Option.some.inj h)
  next =>
    split at h
    next => exact absurd (Option.some.inj h) (Nat.succ_ne_zero _)
    next =>
      split at h
      next => exact absurd (Option.some.inj h) (Nat.succ_ne_zero _)
      next => cases h

/-- Reading on from a numeral. -/
theorem Numeral.of_digits {acc : Nat} {done : List Char} (hdone : Numeral base digit done acc)
    (h : digits base digit acc text = some n) : Numeral base digit (done ++ text) n := by
  induction text generalizing acc done with
  | nil =>
    cases h
    rwa [List.append_nil]
  | cons c cs ih =>
    obtain ⟨d, hd, hrest⟩ := Option.bind_eq_some_iff.mp h
    have := ih (.snoc hdone hd) hrest
    rwa [List.append_assoc] at this

theorem digits_eq_some_iff (hne : text ≠ []) :
    digits base digit 0 text = some n ↔ Numeral base digit text n := by
  refine ⟨fun h => ?_, Numeral.digits_eq⟩
  obtain ⟨c, cs, rfl⟩ := List.exists_cons_of_ne_nil hne
  obtain ⟨d, hd, hrest⟩ := Option.bind_eq_some_iff.mp h
  rw [Nat.zero_mul, Nat.zero_add] at hrest
  exact .of_digits (.one hd) hrest

/-! ## Printed numbers -/

theorem decimalDigit_digitChar : ∀ d < 10, decimalDigit d.digitChar = some d := by decide

theorem hexDigit_digitChar : ∀ d < 16, hexDigit d.digitChar = some d := by decide

/-- A printed number is a numeral of its value. -/
theorem numeral_toDigits (hbase : 1 < base) (hdigit : ∀ d < base, digit d.digitChar = some d)
    (n : Nat) : Numeral base digit (Nat.toDigits base n) n := by
  induction n using Nat.strongRecOn with
  | ind n ih =>
    rw [Nat.toDigits_eq_if hbase]
    split
    next hlt => exact .one (hdigit n hlt)
    next hle =>
      have hlast := Nat.mod_lt n (Nat.zero_lt_of_lt hbase)
      have := Numeral.snoc (ih (n / base) (Nat.div_lt_self (by omega) hbase)) (hdigit _ hlast)
      rwa [Nat.mul_comm, Nat.div_add_mod] at this

theorem decimal_toDigits (n : Nat) : Numeral 10 decimalDigit (Nat.toDigits 10 n) n :=
  numeral_toDigits (by decide) decimalDigit_digitChar n

theorem hex_toDigits (n : Nat) : Numeral 16 hexDigit (Nat.toDigits 16 n) n :=
  numeral_toDigits (by decide) hexDigit_digitChar n

theorem digitChar_of_mem_toDigits {c : Char} (hbase : 1 < base) (h : c ∈ Nat.toDigits base n) :
    ∃ d < base, c = d.digitChar := by
  induction n using Nat.strongRecOn with
  | ind n ih =>
    rw [Nat.toDigits_eq_if hbase] at h
    split at h
    next hlt => exact ⟨n, hlt, List.mem_singleton.mp h⟩
    next hle =>
      rcases List.mem_append.mp h with h | h
      · exact ih (n / base) (Nat.div_lt_self (by omega) hbase) h
      · exact ⟨n % base, Nat.mod_lt n (by omega), List.mem_singleton.mp h⟩

theorem not_isSpace_toDigits (n : Nat) : ∀ c ∈ Nat.toDigits 10 n, isSpace c = false := by
  have hdigit : ∀ d < 10, isSpace d.digitChar = false := by decide
  intro c hc
  obtain ⟨d, hd, rfl⟩ := digitChar_of_mem_toDigits (by decide) hc
  exact hdigit d hd

/-- No number but zero is printed with a zero in front. -/
theorem eq_zero_of_head_toDigits (hbase : 1 < base)
    (h : (Nat.toDigits base n).head? = some '0') : n = 0 := by
  induction n using Nat.strongRecOn with
  | ind n ih =>
    rw [Nat.toDigits_eq_if hbase] at h
    split at h
    next => exact Nat.digitChar_eq_zero.mp (Option.some.inj h)
    next hle =>
      have hhead : (Nat.toDigits base (n / base)).head? = some '0' := by
        rw [List.head?_append] at h
        cases hcases : (Nat.toDigits base (n / base)).head? with
        | none => exact absurd (List.head?_eq_none_iff.mp hcases) Nat.toDigits_ne_nil
        | some c => rwa [hcases, Option.some_or] at h
      have hdiv := ih (n / base) (Nat.div_lt_self (by omega) hbase) hhead
      rw [Nat.div_eq_zero_iff] at hdiv
      omega

/-! ## `strtoul` -/

theorem isDigit_of_decimalDigit {c : Char} {d : Nat} (h : decimalDigit c = some d) :
    c.isDigit = true ∧ c.toNat - '0'.toNat = d := by
  unfold decimalDigit at h
  split at h
  next hrange =>
    refine ⟨?_, Option.some.inj h⟩
    simp only [Char.isDigit, Bool.and_eq_true, decide_eq_true_eq]
    exact hrange
  next => cases h

theorem Numeral.foldl_eq (h : Numeral 10 decimalDigit text n) :
    text.foldl (fun n c => n * 10 + (c.toNat - '0'.toNat)) 0 = n := by
  induction h with
  | one h =>
    rw [List.foldl_cons, List.foldl_nil, (isDigit_of_decimalDigit h).2, Nat.zero_mul, Nat.zero_add]
  | snoc init h ih =>
    rw [List.foldl_append, ih, List.foldl_cons, List.foldl_nil, (isDigit_of_decimalDigit h).2,
      Nat.mul_comm]

theorem Numeral.takeWhile_eq (h : Numeral 10 decimalDigit text n) :
    text.takeWhile Char.isDigit = text := by
  have hall : ∀ c ∈ text, c.isDigit = true := fun c hc => by
    obtain ⟨d, hd⟩ := Option.isSome_iff_exists.mp (h.isSome_of_mem hc)
    exact (isDigit_of_decimalDigit hd).1
  have htake := @List.takeWhile_append_of_pos _ Char.isDigit text [] hall
  rwa [List.append_nil, List.takeWhile_nil, List.append_nil] at htake

/-- A numeral is read as its value, if that fits. -/
theorem Numeral.strtoul_eq (h : Numeral 10 decimalDigit text n) (hn : n ≤ 0xFFFFFFFF) :
    strtoul text = UInt32.ofNat n := by
  have hsigned : text.dropWhile isSpace = text := by
    refine dropWhile_isSpace fun c hc => Bool.eq_false_iff.mpr fun hspace => ?_
    refine h.notMem ?_ (List.mem_of_mem_head? hc)
    simp only [isSpace, Bool.or_eq_true, beq_iff_eq] at hspace
    rcases hspace with ((((rfl | rfl) | rfl) | rfl) | rfl) | rfl <;> decide
  have hsign : ∀ c, decimalDigit c = none → text.head? ≠ some c := fun c hc heq =>
    h.notMem hc (List.mem_of_mem_head? heq)
  have hminus := hsign '-' (by decide)
  have hplus := hsign '+' (by decide)
  simp only [strtoul, hsigned]
  rw [if_neg (not_or.mpr ⟨hminus, hplus⟩), if_neg hminus, h.takeWhile_eq, h.foldl_eq,
    if_neg (Nat.not_lt.mpr hn)]

/-- A number that fits comes back from its digits. -/
theorem strtoul_toDigits {n : Nat} (h : n ≤ 0xFFFFFFFF) :
    strtoul (Nat.toDigits 10 n) = UInt32.ofNat n :=
  (decimal_toDigits n).strtoul_eq h

end NovaVpn.Str
