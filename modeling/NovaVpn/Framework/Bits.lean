import Mathlib.Init

/-!
# Bits of byte strings, in network order

Bit `i` of a byte string is counted from its first, most significant one
(`bit`), and two byte strings agree on a prefix of `n` bits (`AgreeOn`) when
their first `n` bits are the same. The two ways code compares a prefix are
related to it here: a mask of leading ones applied to both sides
(`masked_eq_iff`, at any width), and a big-endian 32-bit word packed by hand
(`beWord`).
-/

namespace NovaVpn.Framework

abbrev Byte := BitVec 8

/-- Bit `i` of a byte string. -/
def bit (bs : List Byte) (i : Nat) : Bool := (bs.getD (i / 8) 0).getMsbD (i % 8)

/-- The first `n` bits are the same. -/
def AgreeOn (n : Nat) (as bs : List Byte) : Prop := ∀ i < n, bit as i = bit bs i

instance (n : Nat) (as bs : List Byte) : Decidable (AgreeOn n as bs) :=
  inferInstanceAs (Decidable (∀ i < n, bit as i = bit bs i))

theorem bit_cons_of_lt (b : Byte) (bs : List Byte) {i : Nat} (h : i < 8) :
    bit (b :: bs) i = b.getMsbD i := by
  simp [bit, Nat.div_eq_of_lt h, Nat.mod_eq_of_lt h]

theorem bit_cons_add (b : Byte) (bs : List Byte) (i : Nat) : bit (b :: bs) (i + 8) = bit bs i := by
  simp [bit]

/-- The first byte and the rest of a prefix of at least eight bits. -/
theorem agreeOn_cons_add (n : Nat) (c m : Byte) (cs ns : List Byte) :
    AgreeOn (n + 8) (c :: cs) (m :: ns) ↔ c = m ∧ AgreeOn n cs ns := by
  constructor
  · intro h
    refine ⟨BitVec.eq_of_getMsbD_eq fun i hi => ?_, fun i hi => ?_⟩
    · have := h i (by omega)
      rwa [bit_cons_of_lt _ _ hi, bit_cons_of_lt _ _ hi] at this
    · have := h (i + 8) (by omega)
      rwa [bit_cons_add, bit_cons_add] at this
  · rintro ⟨rfl, h⟩ i hi
    by_cases h8 : i < 8
    · rw [bit_cons_of_lt _ _ h8, bit_cons_of_lt _ _ h8]
    · obtain ⟨j, rfl⟩ := Nat.exists_eq_add_of_le' (show 8 ≤ i by omega)
      rw [bit_cons_add, bit_cons_add]
      exact h j (by omega)

/-- A prefix within the first byte. -/
theorem agreeOn_cons_of_le {n : Nat} (hn : n ≤ 8) (c m : Byte) (cs ns : List Byte) :
    AgreeOn n (c :: cs) (m :: ns) ↔ ∀ i < n, c.getMsbD i = m.getMsbD i := by
  refine forall_congr' fun i => forall_congr' fun hi => ?_
  rw [bit_cons_of_lt _ _ (by omega), bit_cons_of_lt _ _ (by omega)]

/-- Byte strings of one length agree on all their bits only if they are the
same. -/
theorem agreeOn_full {as bs : List Byte} (hl : as.length = bs.length) :
    AgreeOn (8 * as.length) as bs ↔ as = bs := by
  constructor
  · intro h
    induction as generalizing bs with
    | nil => exact (List.length_eq_zero_iff.mp hl.symm).symm
    | cons a as ih =>
      obtain ⟨b, bs, rfl⟩ := List.exists_cons_of_length_eq_add_one hl.symm
      have hn : 8 * (a :: as).length = 8 * as.length + 8 := by rw [List.length_cons]; omega
      rw [hn, agreeOn_cons_add] at h
      rw [h.1, ih (by simpa using hl) h.2]
  · rintro rfl i -
    rfl

/-- The mask of `r` leading ones, out of `w`. -/
def leadingOnes (w r : Nat) : BitVec w := BitVec.allOnes w <<< (w - r)

theorem getMsbD_leadingOnes {w r i : Nat} (_ : i < w) (hr : r ≤ w) :
    (leadingOnes w r).getMsbD i = decide (i < r) := by
  simp only [leadingOnes, BitVec.getMsbD_shiftLeft, BitVec.getMsbD_allOnes]
  rw [decide_eq_decide]
  omega

/-- Two words agree under a mask of `r` leading ones if and only if their
first `r` bits are the same. -/
theorem masked_eq_iff {w r : Nat} (x y : BitVec w) (hr : r ≤ w) :
    x &&& leadingOnes w r = y &&& leadingOnes w r ↔ ∀ i < r, x.getMsbD i = y.getMsbD i := by
  constructor
  · intro h i hi
    have := congrArg (·.getMsbD i) h
    simpa [BitVec.getMsbD_and, getMsbD_leadingOnes (show i < w by omega) hr, hi] using this
  · intro h
    refine BitVec.eq_of_getMsbD_eq fun i hi => ?_
    rw [BitVec.getMsbD_and, BitVec.getMsbD_and, getMsbD_leadingOnes hi hr]
    by_cases hir : i < r
    · simp [h i hir]
    · simp [hir]

/-- Four bytes as a 32-bit word, the first one on top, shifted and joined as
C code writes it. -/
def beWord (a b c d : Byte) : BitVec 32 :=
  a.setWidth 32 <<< 24 ||| b.setWidth 32 <<< 16 ||| c.setWidth 32 <<< 8 ||| d.setWidth 32

theorem getMsbD_shifted (x : Byte) (k i : Nat) :
    (x.setWidth 32 <<< (8 * k)).getMsbD i = (decide (i / 8 + k = 3) && x.getMsbD (i % 8)) := by
  rw [BitVec.getMsbD_shiftLeft, BitVec.getMsbD_setWidth]
  by_cases h : i / 8 + k = 3
  · have e : i + 8 * k + 8 - 32 = i % 8 := by omega
    rw [e, decide_eq_true h, decide_eq_true (show 32 - 8 ≤ i + 8 * k by omega)]
  · rw [decide_eq_false h, Bool.false_and]
    by_cases hlt : 32 - 8 ≤ i + 8 * k
    · rw [BitVec.getMsbD_of_ge x _ (by omega), Bool.and_false]
    · rw [decide_eq_false hlt, Bool.false_and]

theorem getMsbD_beWord (a b c d : Byte) {i : Nat} (hi : i < 32) :
    (beWord a b c d).getMsbD i = bit [a, b, c, d] i := by
  have hd := getMsbD_shifted d 0 i
  simp only [Nat.mul_zero, BitVec.shiftLeft_zero] at hd
  simp only [beWord, bit, BitVec.getMsbD_or, getMsbD_shifted a 3, getMsbD_shifted b 2,
    getMsbD_shifted c 1, hd]
  rcases (by omega : i / 8 = 0 ∨ i / 8 = 1 ∨ i / 8 = 2 ∨ i / 8 = 3) with h | h | h | h <;>
    simp [h]

/-- Words packed from bytes agree on their first `n` bits as the byte strings
do. -/
theorem beWord_agree {a b c d a' b' c' d' : Byte} {n : Nat} (hn : n ≤ 32) :
    (∀ i < n, (beWord a b c d).getMsbD i = (beWord a' b' c' d').getMsbD i) ↔
      AgreeOn n [a, b, c, d] [a', b', c', d'] := by
  refine forall_congr' fun i => forall_congr' fun hi => ?_
  rw [getMsbD_beWord _ _ _ _ (by omega), getMsbD_beWord _ _ _ _ (by omega)]

end NovaVpn.Framework
