import Mathlib.Data.List.GetD
import NovaVpn.Networking.IpAddress

/-!
# IPv4-mapped addresses

An IPv6 address in `::ffff:0:0/96` stands for an IPv4 address, which
`normalized` returns. A range of such addresses stands for an IPv4 range in the
same way (`IpRange.unmapped`): its network without the first twelve bytes, and a
prefix that is shorter by their 96 bits.
-/

namespace NovaVpn.Net

open NovaVpn.Framework

/-- `kMappedPrefix`. -/
def mappedPrefix : List Byte := [0, 0, 0, 0, 0, 0, 0, 0, 0, 0, 0xFF, 0xFF]

/-- Behind the same bytes two byte strings agree on as many bits more. -/
theorem maskBytes_append (front : List Byte) {n : Nat} {bs : List Byte} :
    maskBytes (n + 8 * front.length) (front ++ bs) = front ++ maskBytes n bs := by
  induction front with
  | nil => rfl
  | cons b front ih =>
    have hlen : n + 8 * (b :: front).length - 8 = n + 8 * front.length := by
      rw [List.length_cons]
      omega
    have hle : 8 ≤ n + 8 * (b :: front).length := by
      rw [List.length_cons]
      omega
    rw [List.cons_append, maskBytes, if_neg (by omega), if_neg (by omega), hlen, ih,
      List.cons_append]

namespace IpAddress

variable {a : IpAddress}

/-- The address is one of `::ffff:0:0/96`. -/
def isMapped (a : IpAddress) : Bool := !a.isV4 && a.bytes.take 12 == mappedPrefix

theorem normalized_of_not_mapped (h : a.isMapped = false) : a.normalized = a := by
  unfold isMapped at h
  rw [normalized]
  cases hv4 : a.isV4 with
  | true => rfl
  | false =>
    rw [hv4] at h
    rw [if_neg Bool.false_ne_true, if_neg (by simpa [mappedPrefix] using h)]

theorem family_of_mapped (h : a.isMapped = true) : a.family = .ipv6 := by
  rw [isMapped, Bool.and_eq_true, Bool.not_eq_true', isV4, decide_eq_false_iff_not] at h
  cases hf : a.family with
  | ipv4 => exact absurd hf h.1
  | ipv6 => rfl

theorem normalized_of_mapped (h : a.isMapped = true) :
    a.normalized = fromV4 (a.bytes.getD 12 0) (a.bytes.getD 13 0) (a.bytes.getD 14 0)
      (a.bytes.getD 15 0) := by
  rw [isMapped, Bool.and_eq_true, Bool.not_eq_true', beq_iff_eq] at h
  rw [normalized, h.1, if_neg Bool.false_ne_true]
  exact if_pos h.2

theorem family_normalized (h : a.isMapped = true) : a.normalized.family = .ipv4 := by
  rw [normalized_of_mapped h]
  rfl

theorem bytes_of_mapped (h : a.isMapped = true) : a.bytes = mappedPrefix ++ a.normalized.bytes := by
  have hlen : (a.bytes.drop 12).length = 4 := by
    rw [List.length_drop, a.length_bytes, family_of_mapped h]
    rfl
  have hdrop : a.bytes.drop 12 = a.normalized.bytes := by
    rw [normalized_of_mapped h]
    refine List.ext_getElem hlen fun i hi _ => ?_
    rw [hlen] at hi
    rw [List.getElem_drop]
    rcases (by omega : i = 0 ∨ i = 1 ∨ i = 2 ∨ i = 3) with rfl | rfl | rfl | rfl <;>
      exact (List.getD_eq_getElem _ _ _).symm
  rw [isMapped, Bool.and_eq_true, beq_iff_eq] at h
  rw [← h.2, ← hdrop, List.take_append_drop]

theorem isMapped_of_v4 (h : a.family = .ipv4) : a.isMapped = false := by
  rw [isMapped, isV4, decide_eq_true h]
  rfl

/-- What `normalized` returns is not mapped again. -/
theorem isMapped_normalized (a : IpAddress) : a.normalized.isMapped = false := by
  cases h : a.isMapped with
  | true => exact isMapped_of_v4 (family_normalized h)
  | false => rw [normalized_of_not_mapped h, h]

end IpAddress

namespace IpRange

variable {r : IpRange} {a : IpAddress}

/-- The range is a part of `::ffff:0:0/96`. -/
def isMapped (r : IpRange) : Bool := r.network.isMapped && 96 ≤ r.prefixLength

theorem network_isMapped (h : r.isMapped = true) : r.network.isMapped = true :=
  (Bool.and_eq_true_iff.mp h).1

theorem prefix_of_mapped (h : r.isMapped = true) :
    r.prefixLength = r.prefixLength - 96 + 8 * mappedPrefix.length := by
  have hle : 96 ≤ r.prefixLength := of_decide_eq_true (Bool.and_eq_true_iff.mp h).2
  change r.prefixLength = r.prefixLength - 96 + 96
  omega

/-- The IPv4 range that a range of mapped addresses stands for; every other
range as it is. -/
def unmapped (r : IpRange) : IpRange :=
  if h : r.isMapped = true then
    { network := r.network.normalized
      prefixLength := r.prefixLength - 96
      prefix_le := by
        have hle := r.prefix_le
        rw [IpAddress.family_of_mapped (network_isMapped h)] at hle
        rw [IpAddress.family_normalized (network_isMapped h)]
        exact Nat.sub_le_sub_right hle 96
      masked := by
        have hmasked := r.masked
        rw [prefix_of_mapped h, IpAddress.bytes_of_mapped (network_isMapped h),
          maskBytes_append] at hmasked
        exact List.append_cancel_left hmasked }
  else r

theorem unmapped_of_not_mapped (h : r.isMapped = false) : r.unmapped = r :=
  dif_neg (Bool.eq_false_iff.mp h)

/-- A range of mapped addresses has no others. -/
theorem isMapped_of_contains (hr : r.isMapped = true) (h : r.contains a = true) :
    a.isMapped = true := by
  obtain ⟨hf, hagree⟩ := (contains_iff r a).mp h
  have hnet := network_isMapped hr
  have hfamily : a.family = .ipv6 := hf.trans (IpAddress.family_of_mapped hnet)
  have hlen : (a.bytes.take 12).length = 12 := by
    rw [List.length_take, a.length_bytes, hfamily]
    rfl
  have htake : a.bytes.take 12 = mappedPrefix := by
    refine (agreeOn_full hlen).mp fun i hi => ?_
    rw [hlen] at hi
    have hi' : i < r.prefixLength := by
      have := prefix_of_mapped hr
      have : mappedPrefix.length = 12 := rfl
      omega
    have hbit := hagree i hi'
    have hd : i / 8 < 12 := by omega
    rw [IpAddress.bytes_of_mapped hnet] at hbit
    rw [bit, bit, List.getD_append _ _ _ _ hd] at hbit
    rw [bit, bit, ← hbit, List.getD_eq_getElem?_getD, List.getD_eq_getElem?_getD,
      List.getElem?_take_of_lt hd]
  rw [IpAddress.isMapped, IpAddress.isV4, hfamily, htake]
  rfl

/-- A range of mapped addresses has nothing that `normalized` returns. -/
theorem contains_normalized (hr : r.isMapped = true) (a : IpAddress) :
    r.contains a.normalized = false := by
  refine Bool.eq_false_iff.mpr fun h => ?_
  have hmapped := isMapped_of_contains hr h
  rw [IpAddress.isMapped_normalized] at hmapped
  cases hmapped

end IpRange

end NovaVpn.Net
