import NovaVpn.Framework.BigEndian
import NovaVpn.Networking.IpAddress

/-!
# Range arithmetic

The rest of `IpRange` in `Networking/IpAddress.cpp`: containment of a range, the
last address and the netmask. The byte loops are told by the big-endian number
of an address: `make` clears the bits behind the prefix (`beNat_maskBytes`),
`lastAddress` sets them (`beNat_fillBytes`), and `contains` compares the others,
so a range is the interval between the two (`range_arithmetic`).
-/

namespace NovaVpn.Net

open NovaVpn.Framework

/-- The address as a big-endian number. -/
def IpAddress.value (a : IpAddress) : Nat := beNat a.bytes

/-- The bytes with everything after the first `n` bits set. -/
def fillBytes : Nat → List Byte → List Byte
  | _, [] => []
  | n, b :: bs =>
    (if n = 0 then 0xFF else if n < 8 then b ||| (0xFF : Byte) >>> n else b) :: fillBytes (n - 8) bs

theorem length_fillBytes (n : Nat) (bs : List Byte) : (fillBytes n bs).length = bs.length := by
  induction bs generalizing n with
  | nil => rfl
  | cons b bs ih => simp [fillBytes, ih]

/-- The loop of `netmaskV4`, for `count` bytes. -/
def netmaskBytes : (count remaining : Nat) → List Byte
  | 0, _ => []
  | count + 1, remaining =>
    (if remaining ≥ 8 then 0xFF else if remaining > 0 then leadingOnes 8 remaining else 0) ::
      netmaskBytes count (remaining - 8)

namespace IpRange

/-- `contains` of a range. -/
def containsRange (r other : IpRange) : Bool :=
  other.family = r.family && other.prefixLength ≥ r.prefixLength && r.contains other.network

def lastAddress (r : IpRange) : IpAddress :=
  ⟨r.family, fillBytes r.prefixLength r.network.bytes, by
    rw [length_fillBytes, r.network.length_bytes, family]⟩

def netmaskV4 (r : IpRange) : Option IpAddress :=
  if r.network.isV4 then some ⟨.ipv4, netmaskBytes 4 r.prefixLength, rfl⟩ else none

end IpRange

/-! ## The byte loops -/

theorem maskBytes_zero (bs : List Byte) : beNat (maskBytes 0 bs) = 0 := by
  induction bs with
  | nil => rfl
  | cons b bs ih => simp [maskBytes, beNat, ih]

theorem fillBytes_zero (bs : List Byte) : beNat (fillBytes 0 bs) + 1 = 2 ^ (8 * bs.length) := by
  induction bs with
  | nil => rfl
  | cons b bs ih =>
    have hlen : 8 * (b :: bs).length = 8 + 8 * bs.length := by rw [List.length_cons]; omega
    rw [fillBytes, if_pos rfl, Nat.zero_sub, beNat, length_fillBytes, Nat.add_assoc, ih, hlen,
      Nat.pow_add, ← Nat.succ_mul]
    rfl

/-- Clearing the bits after the first `n`. -/
theorem beNat_maskBytes {n : Nat} (bs : List Byte) (hn : n ≤ 8 * bs.length) :
    beNat (maskBytes n bs) = beNat bs / 2 ^ (8 * bs.length - n) * 2 ^ (8 * bs.length - n) := by
  induction bs generalizing n with
  | nil =>
    obtain rfl : n = 0 := by simpa using hn
    rfl
  | cons b bs ih =>
    rw [List.length_cons] at hn
    have hlen : (b :: bs).length = bs.length + 1 := rfl
    rw [maskBytes, beNat, length_maskBytes, hlen]
    by_cases h8 : 8 ≤ n
    · -- the first byte is kept
      obtain ⟨k, rfl⟩ := Nat.exists_eq_add_of_le' h8
      have hk : 8 * (bs.length + 1) - (k + 8) = 8 * bs.length - k := by omega
      have hpow : 2 ^ (8 * bs.length) =
          2 ^ (8 * bs.length - (8 * bs.length - k)) * 2 ^ (8 * bs.length - k) := by
        rw [← Nat.pow_add, Nat.sub_add_cancel (Nat.sub_le ..)]
      rw [if_neg (by omega), if_neg (by omega), Nat.add_sub_cancel, ih (by omega), hk,
        beNat_cons_div b bs (Nat.sub_le ..), Nat.add_mul, Nat.mul_assoc, ← hpow]
    · -- the last kept bits are in the first byte
      have hk : 8 * (bs.length + 1) - n = 8 * bs.length + (8 - n) := by omega
      have hhead : (if n = 0 then 0 else if n < 8 then b &&& leadingOnes 8 n else b : Byte).toNat =
          b.toNat / 2 ^ (8 - n) * 2 ^ (8 - n) := by
        split
        next h0 =>
          subst h0
          rw [Nat.div_eq_of_lt b.isLt]
          rfl
        next => rw [if_pos (by omega), toNat_and_leadingOnes b (by omega)]
      rw [hhead, show n - 8 = 0 by omega, maskBytes_zero, hk, beNat_cons_div_add,
        Nat.pow_add, Nat.add_zero, Nat.mul_assoc, Nat.mul_comm (2 ^ (8 - n))]

/-- Setting the bits after the first `n`. -/
theorem beNat_fillBytes {n : Nat} (bs : List Byte) (hn : n ≤ 8 * bs.length) :
    beNat (fillBytes n bs) + 1 = beNat bs / 2 ^ (8 * bs.length - n) * 2 ^ (8 * bs.length - n) +
      2 ^ (8 * bs.length - n) := by
  induction bs generalizing n with
  | nil =>
    obtain rfl : n = 0 := by simpa using hn
    rfl
  | cons b bs ih =>
    rw [List.length_cons] at hn
    have hlen : (b :: bs).length = bs.length + 1 := rfl
    rw [fillBytes, beNat, length_fillBytes, hlen, Nat.add_assoc]
    by_cases h8 : 8 ≤ n
    · obtain ⟨k, rfl⟩ := Nat.exists_eq_add_of_le' h8
      have hk : 8 * (bs.length + 1) - (k + 8) = 8 * bs.length - k := by omega
      have hpow : 2 ^ (8 * bs.length) =
          2 ^ (8 * bs.length - (8 * bs.length - k)) * 2 ^ (8 * bs.length - k) := by
        rw [← Nat.pow_add, Nat.sub_add_cancel (Nat.sub_le ..)]
      rw [if_neg (by omega), if_neg (by omega), Nat.add_sub_cancel, ih (by omega), hk,
        beNat_cons_div b bs (Nat.sub_le ..), Nat.add_mul, Nat.mul_assoc, ← hpow, Nat.add_assoc]
    · have hk : 8 * (bs.length + 1) - n = 8 * bs.length + (8 - n) := by omega
      have hhead : (if n = 0 then 0xFF else if n < 8 then b ||| (0xFF : Byte) >>> n else b : Byte).toNat + 1 =
          b.toNat / 2 ^ (8 - n) * 2 ^ (8 - n) + 2 ^ (8 - n) := by
        split
        next h0 =>
          subst h0
          rw [Nat.div_eq_of_lt b.isLt]
          rfl
        next =>
          rw [if_pos (by omega)]
          exact toNat_or_trailingOnes b
      rw [show n - 8 = 0 by omega, fillBytes_zero, ← Nat.succ_mul, Nat.succ_eq_add_one,
        hhead, hk, beNat_cons_div_add, Nat.pow_add, Nat.add_mul, Nat.mul_assoc,
        Nat.mul_comm (2 ^ (8 - n)) (2 ^ (8 * bs.length))]

/-- Masking with the netmask clears the bits behind the prefix. -/
theorem zipWith_netmaskBytes (n : Nat) (bs : List Byte) :
    List.zipWith (· &&& ·) bs (netmaskBytes bs.length n) = maskBytes n bs := by
  induction bs generalizing n with
  | nil => rfl
  | cons b bs ih =>
    rw [List.length_cons, netmaskBytes, List.zipWith_cons_cons, ih, maskBytes]
    congr 1
    by_cases h8 : n ≥ 8
    · rw [if_pos h8, if_neg (by omega), if_neg (by omega)]
      exact BitVec.and_allOnes
    · by_cases h0 : n = 0
      · subst h0
        exact BitVec.and_zero
      · rw [if_neg h8, if_pos (by omega), if_neg h0, if_pos (by omega)]

/-! ## Ranges as intervals -/

namespace IpRange

/-- The numbers of a range's addresses: how many there are, and what their first
number is a multiple of. -/
def size (r : IpRange) : Nat := 2 ^ (r.family.width - r.prefixLength)

theorem size_pos (r : IpRange) : 0 < r.size := Nat.two_pow_pos _

variable (r s : IpRange) (a : IpAddress)

theorem prefix_le_bits : r.prefixLength ≤ 8 * r.network.bytes.length := by
  rw [r.network.length_bytes, ← AddressFamily.width_eq]
  exact r.prefix_le

theorem size_eq : r.size = 2 ^ (8 * r.network.bytes.length - r.prefixLength) := by
  rw [size, family, r.network.length_bytes, ← AddressFamily.width_eq]

/-- The host bits of the network are zeros. -/
theorem value_network : r.network.value = beNat r.network.bytes / r.size * r.size := by
  rw [size_eq, ← beNat_maskBytes _ r.prefix_le_bits, r.masked]
  rfl

/-- The host bits of the last address are ones. -/
theorem value_lastAddress : r.lastAddress.value + 1 = r.network.value + r.size := by
  rw [value_network, size_eq]
  exact beNat_fillBytes _ r.prefix_le_bits

/-- A range is the interval from its network to its last address. -/
theorem contains_iff_interval : r.contains a = true ↔
    a.family = r.family ∧ r.network.value ≤ a.value ∧ a.value ≤ r.lastAddress.value := by
  rw [contains_iff]
  refine and_congr_right fun hf => ?_
  have hl : a.bytes.length = r.network.bytes.length := by
    rw [a.length_bytes, r.network.length_bytes, hf, family]
  refine agreeOn_iff_interval hl (hl ▸ r.prefix_le_bits) ?_ ?_
  · rw [value_network, size_eq]
  · rw [value_lastAddress, size_eq]

theorem contains_network : r.contains r.network = true := by
  rw [contains_iff]
  exact ⟨rfl, fun i _ => rfl⟩

theorem contains_lastAddress : r.contains r.lastAddress = true := by
  have := r.size_pos
  have := r.value_lastAddress
  rw [contains_iff_interval]
  exact ⟨rfl, by omega, Nat.le_refl _⟩

variable {r s a}

/-- A range with no shorter prefix that meets another is part of it. -/
theorem contains_of_meet {b : IpAddress} (hp : r.prefixLength ≤ s.prefixLength)
    (hr : r.contains a = true) (hs : s.contains a = true) (hb : s.contains b = true) :
    r.contains b = true := by
  rw [contains_iff] at hr hs hb ⊢
  refine ⟨hb.1.trans (hs.1.symm.trans hr.1), fun i hi => ?_⟩
  have hi' : i < s.prefixLength := Nat.lt_of_lt_of_le hi hp
  rw [hb.2 i hi', ← hs.2 i hi', hr.2 i hi]

/-- A part of a range has no shorter prefix. -/
theorem prefix_le_of_subset (h : ∀ a, s.contains a = true → r.contains a = true) :
    r.prefixLength ≤ s.prefixLength := by
  obtain ⟨hf, hlo, -⟩ := (contains_iff_interval ..).mp (h _ s.contains_network)
  obtain ⟨-, -, hhi⟩ := (contains_iff_interval ..).mp (h _ s.contains_lastAddress)
  have hsize : s.size ≤ r.size := by
    have := r.value_lastAddress
    have := s.value_lastAddress
    omega
  have hle := (Nat.pow_le_pow_iff_right (Nat.lt_succ_self 1)).mp hsize
  have hfamily : s.family = r.family := hf
  have := r.prefix_le
  rw [hfamily] at hle
  change r.prefixLength ≤ r.family.width at this
  omega

theorem containsRange_iff : r.containsRange s = true ↔
    s.family = r.family ∧ r.prefixLength ≤ s.prefixLength ∧ r.contains s.network = true := by
  simp only [containsRange, Bool.and_eq_true, decide_eq_true_eq, and_assoc, ge_iff_le]

theorem containsRange_iff_subset :
    r.containsRange s = true ↔ ∀ a, s.contains a = true → r.contains a = true := by
  rw [containsRange_iff]
  constructor
  · rintro ⟨-, hp, hn⟩ a ha
    exact contains_of_meet hp hn s.contains_network ha
  · intro h
    have hn := h _ s.contains_network
    exact ⟨((contains_iff ..).mp hn).1, prefix_le_of_subset h, hn⟩

/-- Of two ranges that meet, one is part of the other. -/
theorem containsRange_of_meet (hr : r.contains a = true) (hs : s.contains a = true) :
    r.containsRange s = true ∨ s.containsRange r = true := by
  rcases Nat.le_total r.prefixLength s.prefixLength with hp | hp
  · exact Or.inl (containsRange_iff_subset.mpr fun b hb => contains_of_meet hp hr hs hb)
  · exact Or.inr (containsRange_iff_subset.mpr fun b hb => contains_of_meet hp hs hr hb)

/-- The network is every contained address with its host bits cleared. -/
theorem maskBytes_of_contains (h : r.contains a = true) :
    maskBytes r.prefixLength a.bytes = r.network.bytes := by
  obtain ⟨hf, hagree⟩ := (contains_iff ..).mp h
  have hl : a.bytes.length = r.network.bytes.length := by
    rw [a.length_bytes, r.network.length_bytes, hf, family]
  have hn : r.prefixLength ≤ 8 * a.bytes.length := hl ▸ r.prefix_le_bits
  refine beNat_inj (by rw [length_maskBytes, hl]) ?_
  rw [beNat_maskBytes _ hn, (agreeOn_iff_div hl hn).mp hagree, hl,
    ← beNat_maskBytes _ r.prefix_le_bits, r.masked]

theorem masked_netmaskV4 (hv4 : r.family = .ipv4) (h : r.contains a = true) :
    ∃ mask, r.netmaskV4 = some mask ∧
      List.zipWith (· &&& ·) a.bytes mask.bytes = r.network.bytes := by
  have hfamily : r.network.family = .ipv4 := hv4
  have hlen : a.bytes.length = 4 := by
    rw [a.length_bytes, ((contains_iff ..).mp h).1, hv4]
    rfl
  refine ⟨_, if_pos (decide_eq_true hfamily), ?_⟩
  rw [← maskBytes_of_contains h, ← zipWith_netmaskBytes, hlen]

/-- Every range is one that `make` makes. -/
theorem make_network (r : IpRange) : make r.network (UInt8.ofNat r.prefixLength) = .ok r := by
  have hle := r.prefix_le
  have hto : (UInt8.ofNat r.prefixLength).toNat = r.prefixLength := by
    refine Nat.mod_eq_of_lt (Nat.lt_of_le_of_lt hle ?_)
    cases r.network.family <;> decide
  obtain ⟨⟨f, bytes, hl⟩, n, hn, hm⟩ := r
  simp only [make, hto, dif_pos hn] at hm ⊢
  simp only [hm]

/-- What the four byte loops are, in numbers. -/
theorem range_arithmetic :
    (∀ (r : IpRange) (a : IpAddress), r.contains a = true ↔
      a.family = r.family ∧ r.network.value ≤ a.value ∧ a.value ≤ r.lastAddress.value) ∧
    (∀ r s : IpRange,
      r.containsRange s = true ↔ ∀ a, s.contains a = true → r.contains a = true) ∧
    (∀ r s : IpRange, r.family = s.family →
      r.containsRange s = true ∨ s.containsRange r = true ∨
        ∀ a, ¬ (r.contains a = true ∧ s.contains a = true)) ∧
    ∀ (r : IpRange) (a : IpAddress), r.family = .ipv4 → r.contains a = true →
      ∃ mask, r.netmaskV4 = some mask ∧
        r.network.bytes = List.zipWith (· &&& ·) a.bytes mask.bytes := by
  refine ⟨contains_iff_interval, fun r s => containsRange_iff_subset, fun r s _ => ?_,
    fun r a hv4 h => ?_⟩
  · by_cases hmeet : ∃ a, r.contains a = true ∧ s.contains a = true
    · obtain ⟨a, hr, hs⟩ := hmeet
      rcases containsRange_of_meet hr hs with h | h
      · exact Or.inl h
      · exact Or.inr (Or.inl h)
    · exact Or.inr (Or.inr (not_exists.mp hmeet))
  · obtain ⟨mask, hmask, heq⟩ := masked_netmaskV4 hv4 h
    exact ⟨mask, hmask, heq.symm⟩

end IpRange

end NovaVpn.Net
