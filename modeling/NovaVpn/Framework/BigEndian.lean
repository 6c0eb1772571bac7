import Mathlib.Algebra.Group.Nat.Defs
import NovaVpn.Framework.Bits

/-!
# Byte strings as numbers

A byte string read as a big-endian number (`beNat`). Two byte strings of one
length agree on a prefix when what is left of their numbers after the other bits
are dropped is the same (`agreeOn_iff_div`): a prefix of bits is an interval of
numbers (`agreeOn_iff_interval`).
-/

namespace NovaVpn.Framework

/-- The number that a byte string is, its first byte on top. -/
def beNat : List Byte → Nat
  | [] => 0
  | b :: bs => b.toNat * 2 ^ (8 * bs.length) + beNat bs

theorem beNat_lt (bs : List Byte) : beNat bs < 2 ^ (8 * bs.length) := by
  induction bs with
  | nil => exact Nat.one_pos
  | cons b bs ih =>
    have hb := b.isLt
    have hlen : 8 * (b :: bs).length = 8 + 8 * bs.length := by rw [List.length_cons]; omega
    rw [beNat, hlen, Nat.pow_add]
    calc b.toNat * 2 ^ (8 * bs.length) + beNat bs
        < b.toNat * 2 ^ (8 * bs.length) + 2 ^ (8 * bs.length) := Nat.add_lt_add_left ih _
      _ = (b.toNat + 1) * 2 ^ (8 * bs.length) := (Nat.succ_mul ..).symm
      _ ≤ 2 ^ 8 * 2 ^ (8 * bs.length) := Nat.mul_le_mul_right _ hb

/-- The bits of the later bytes, dropped with `k` of them left over. -/
theorem beNat_cons_div (b : Byte) (bs : List Byte) {k : Nat} (hk : k ≤ 8 * bs.length) :
    beNat (b :: bs) / 2 ^ k = b.toNat * 2 ^ (8 * bs.length - k) + beNat bs / 2 ^ k := by
  have hpow : 2 ^ (8 * bs.length) = 2 ^ k * 2 ^ (8 * bs.length - k) := by
    rw [← Nat.pow_add, Nat.add_sub_cancel' hk]
  rw [beNat, hpow, Nat.mul_left_comm, Nat.mul_add_div (Nat.two_pow_pos k)]

theorem beNat_div_lt (bs : List Byte) {k : Nat} (hk : k ≤ 8 * bs.length) :
    beNat bs / 2 ^ k < 2 ^ (8 * bs.length - k) := by
  rw [Nat.div_lt_iff_lt_mul (Nat.two_pow_pos k), ← Nat.pow_add, Nat.sub_add_cancel hk]
  exact beNat_lt bs

/-- All the later bytes dropped, and `k` bits of the first. -/
theorem beNat_cons_div_add (b : Byte) (bs : List Byte) (k : Nat) :
    beNat (b :: bs) / 2 ^ (8 * bs.length + k) = b.toNat / 2 ^ k := by
  rw [Nat.pow_add, ← Nat.div_div_eq_div_mul, beNat_cons_div b bs (Nat.le_refl _), Nat.sub_self,
    Nat.pow_zero, Nat.mul_one, Nat.div_eq_of_lt (beNat_lt bs), Nat.add_zero]

/-- Words agree on their first `r` bits if what is left of them is the same
without the others. -/
theorem getMsbD_agree_iff_div {w r : Nat} (x y : BitVec w) (hr : r ≤ w) :
    (∀ i < r, x.getMsbD i = y.getMsbD i) ↔ x.toNat / 2 ^ (w - r) = y.toNat / 2 ^ (w - r) := by
  constructor
  · intro h
    refine Nat.eq_of_testBit_eq fun i => ?_
    rw [Nat.testBit_div_two_pow, Nat.testBit_div_two_pow, BitVec.testBit_toNat,
      BitVec.testBit_toNat]
    by_cases hi : i < r
    · have := h (r - 1 - i) (by omega)
      rw [BitVec.getMsbD_eq_getLsbD, BitVec.getMsbD_eq_getLsbD,
        show w - 1 - (r - 1 - i) = i + (w - r) by omega] at this
      simpa [show r - 1 - i < w by omega] using this
    · rw [BitVec.getLsbD_of_ge _ _ (by omega), BitVec.getLsbD_of_ge _ _ (by omega)]
  · intro h i hi
    have := congrArg (Nat.testBit · (r - 1 - i)) h
    simp only [Nat.testBit_div_two_pow, BitVec.testBit_toNat] at this
    rw [BitVec.getMsbD_eq_getLsbD, BitVec.getMsbD_eq_getLsbD,
      show w - 1 - i = r - 1 - i + (w - r) by omega, this]

theorem agreeOn_iff_div {n : Nat} {as bs : List Byte} (hl : as.length = bs.length)
    (hn : n ≤ 8 * as.length) :
    AgreeOn n as bs ↔
      beNat as / 2 ^ (8 * as.length - n) = beNat bs / 2 ^ (8 * as.length - n) := by
  induction as generalizing n bs with
  | nil =>
    obtain rfl : bs = [] := List.length_eq_zero_iff.mp hl.symm
    exact iff_of_true (fun i _ => rfl) rfl
  | cons c cs ih =>
    obtain ⟨m, ms, rfl⟩ := List.exists_cons_of_length_eq_add_one hl.symm
    have hl' : cs.length = ms.length := by simpa using hl
    rw [List.length_cons] at hn ⊢
    by_cases h8 : 8 ≤ n
    · -- the first byte whole, and a prefix of the others
      obtain ⟨k, rfl⟩ := Nat.exists_eq_add_of_le' h8
      have hk : 8 * (cs.length + 1) - (k + 8) = 8 * cs.length - k := by omega
      have hle : 8 * cs.length - k ≤ 8 * cs.length := Nat.sub_le ..
      have hc := beNat_div_lt cs hle
      have hm := beNat_div_lt ms (hl' ▸ hle)
      rw [agreeOn_cons_add, ih hl' (by omega), hk, beNat_cons_div c cs hle,
        beNat_cons_div m ms (hl' ▸ hle), ← hl']
      rw [← hl'] at hm
      constructor
      · rintro ⟨rfl, h⟩
        rw [h]
      · intro h
        have hdiv := congrArg (· / 2 ^ (8 * cs.length - (8 * cs.length - k))) h
        have hmod := congrArg (· % 2 ^ (8 * cs.length - (8 * cs.length - k))) h
        simp only [Nat.mul_comm _ (2 ^ (8 * cs.length - (8 * cs.length - k))),
          Nat.mul_add_div (Nat.two_pow_pos _), Nat.mul_add_mod, Nat.div_eq_of_lt hc,
          Nat.div_eq_of_lt hm, Nat.add_zero, Nat.mod_eq_of_lt hc, Nat.mod_eq_of_lt hm] at hdiv hmod
        exact ⟨BitVec.eq_of_toNat_eq hdiv, hmod⟩
    · -- a prefix of the first byte
      have hk : 8 * (cs.length + 1) - n = 8 * cs.length + (8 - n) := by omega
      rw [agreeOn_cons_of_le (by omega), getMsbD_agree_iff_div c m (by omega), hk,
        beNat_cons_div_add, hl', beNat_cons_div_add]

/-- Byte strings of one length are the same if their numbers are. -/
theorem beNat_inj {as bs : List Byte} (hl : as.length = bs.length) (h : beNat as = beNat bs) :
    as = bs := by
  rw [← agreeOn_full hl, agreeOn_iff_div hl (Nat.le_refl _), h]

/-- The byte strings that agree with `bs` on `n` bits are an interval: from
`lo`, where the other bits of `bs` are zeros, to `hi`, where they are ones. -/
theorem agreeOn_iff_interval {n lo hi : Nat} {as bs : List Byte} (hl : as.length = bs.length)
    (hn : n ≤ 8 * as.length)
    (hlo : lo = beNat bs / 2 ^ (8 * bs.length - n) * 2 ^ (8 * bs.length - n))
    (hhi : hi + 1 = lo + 2 ^ (8 * bs.length - n)) :
    AgreeOn n as bs ↔ lo ≤ beNat as ∧ beNat as ≤ hi := by
  rw [agreeOn_iff_div hl hn, hl, Nat.div_eq_iff (Nat.two_pow_pos _), ← hlo]
  have := Nat.two_pow_pos (8 * bs.length - n)
  omega

/-! ## Words under a mask -/

/-- A mask of leading ones clears the other bits. -/
theorem toNat_and_leadingOnes {w r : Nat} (x : BitVec w) (hr : r ≤ w) :
    (x &&& leadingOnes w r).toNat = x.toNat / 2 ^ (w - r) * 2 ^ (w - r) := by
  have hshift : x &&& leadingOnes w r = x >>> (w - r) <<< (w - r) := by
    refine BitVec.eq_of_getMsbD_eq fun i hi => ?_
    rw [BitVec.getMsbD_and, getMsbD_leadingOnes hi hr, BitVec.getMsbD_shiftLeft,
      BitVec.getMsbD_ushiftRight]
    by_cases hir : i < r
    · simp [hir, show i + (w - r) < w by omega]
    · simp [hir, show ¬ i + (w - r) < w by omega]
  have hle : x.toNat / 2 ^ (w - r) * 2 ^ (w - r) < 2 ^ w :=
    Nat.lt_of_le_of_lt (Nat.div_mul_le_self ..) x.isLt
  rw [hshift, BitVec.toNat_shiftLeft, BitVec.toNat_ushiftRight, Nat.shiftRight_eq_div_pow,
    Nat.shiftLeft_eq, Nat.mod_eq_of_lt hle]

theorem or_two_pow_sub_one (x k : Nat) :
    (x ||| (2 ^ k - 1)) + 1 = x / 2 ^ k * 2 ^ k + 2 ^ k := by
  have hpos := Nat.two_pow_pos k
  have hor : x ||| (2 ^ k - 1) = 2 ^ k * (x / 2 ^ k) ||| (2 ^ k - 1) := by
    refine Nat.eq_of_testBit_eq fun i => ?_
    rw [Nat.testBit_or, Nat.testBit_or, Nat.testBit_two_pow_sub_one, Nat.testBit_two_pow_mul,
      Nat.testBit_div_two_pow]
    by_cases hi : i < k
    · simp [hi]
    · simp [hi, Nat.le_of_not_lt hi]
  rw [hor, ← Nat.two_pow_add_eq_or_of_lt (by omega), Nat.mul_comm (2 ^ k)]
  omega

/-- A mask of ones behind the first `r` bits sets the other bits. -/
theorem toNat_or_trailingOnes {w r : Nat} (x : BitVec w) :
    (x ||| BitVec.allOnes w >>> r).toNat + 1 =
      x.toNat / 2 ^ (w - r) * 2 ^ (w - r) + 2 ^ (w - r) := by
  have hones : (BitVec.allOnes w >>> r).toNat = 2 ^ (w - r) - 1 := by
    refine Nat.eq_of_testBit_eq fun i => ?_
    rw [BitVec.testBit_toNat, BitVec.getLsbD_ushiftRight, BitVec.getLsbD_allOnes,
      Nat.testBit_two_pow_sub_one, decide_eq_decide]
    omega
  rw [BitVec.toNat_or, hones, or_two_pow_sub_one]

end NovaVpn.Framework
