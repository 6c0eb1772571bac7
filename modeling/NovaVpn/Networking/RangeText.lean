import NovaVpn.Networking.Canonical
import NovaVpn.Networking.Ranges

/-!
# The texts of ranges

`IpRange::parse` reads an address with a prefix length of up to three digits
(`RangeText`). It cuts the number to a byte before `make` checks it, so that
`0.0.0.0/256` is `0.0.0.0/0`: the texts it reads wrongly are those with a number
from 256 on whose last eight bits are within the width (`Overlong`), and no
others (`parse_range_iff`).
-/

namespace NovaVpn.Net.IpRange

open NovaVpn.Framework

/-- A text without white space around it, its address and its prefix length. -/
inductive RangeText : List Char → IpAddress → Nat → Prop
  | bare {text : List Char} {a : IpAddress} (h : IpAddress.parse text = .ok a) :
      RangeText text a a.family.width
  | slash {address number : List Char} {a : IpAddress} {n : Nat}
      (h : IpAddress.parse address = .ok a) (hlen : number.length ≤ 3)
      (hn : Str.Numeral 10 Str.decimalDigit number n) (hle : n ≤ a.family.width) :
      RangeText (address ++ '/' :: number) a n

/-- The range of an address and a prefix length. -/
structure IsRange (r : IpRange) (a : IpAddress) (n : Nat) : Prop where
  family : r.network.family = a.family
  bytes : r.network.bytes = maskBytes n a.bytes
  prefixLength : r.prefixLength = n

/-- The text is read as what it says. -/
def ReadRight (text : List Char) : Prop :=
  ∀ r, parse text = .ok r ↔ ∃ a n, RangeText (Str.trim text) a n ∧ IsRange r a n

/-- The number behind the slash is past a byte and, cut to one, within the width. -/
def Overlong (text : List Char) : Prop :=
  ∃ address number a n, Str.trim text = address ++ '/' :: number ∧
    IpAddress.parse address = .ok a ∧ number.length ≤ 3 ∧
      Str.Numeral 10 Str.decimalDigit number n ∧ 256 ≤ n ∧ n % 256 ≤ a.family.width

variable {a : IpAddress} {r : IpRange} {text : List Char} {n : Nat}

theorem make_eq_ok_iff {p : UInt8} :
    make a p = .ok r ↔ p.toNat ≤ a.family.width ∧ IsRange r a p.toNat := by
  unfold make
  constructor
  · intro h
    split at h
    next hle =>
      cases h
      exact ⟨hle, rfl, rfl, rfl⟩
    next => cases h
  · rintro ⟨hle, hf, hb, hp⟩
    rw [dif_pos hle]
    obtain ⟨⟨f, bytes, hlen⟩, prefixLength, h1, h2⟩ := r
    simp only at hf hb hp
    subst hf hb hp
    rfl

theorem width_lt (f : AddressFamily) : f.width < 256 := by
  cases f <;> decide

/-- No slash in the text of an address. -/
theorem slash_notMem (h : IpAddress.parse text = .ok a) : '/' ∉ text := by
  intro hmem
  unfold IpAddress.parse at h
  split at h
  next b hb =>
    have := ((IpAddress.tryParse_iff text b).mp hb).notMem (x := '/') (by decide) (by decide)
      (by decide)
    exact this (Str.mem_trim (by decide) hmem)
  next => cases h

theorem parsePrefixLength_iff : parsePrefixLength text = some n ↔
    text.length ≤ 3 ∧ Str.Numeral 10 Str.decimalDigit text n := by
  unfold parsePrefixLength
  by_cases hempty : text = []
  · subst hempty
    exact iff_of_false (by simp) fun h => h.2.ne_nil rfl
  by_cases hlen : text.length ≤ 3
  · rw [if_neg (by simp [hempty, hlen]), Str.digits_eq_some_iff hempty, and_iff_right hlen]
  · rw [if_pos (by simp; omega)]
    exact iff_of_false (by simp) fun h => hlen h.1

theorem toNat_width (f : AddressFamily) : (UInt8.ofNat f.width).toNat = f.width := by
  cases f <;> rfl

/-- What the code reads behind a slash: the number is cut to a byte. -/
theorem parse_slash {address number : List Char}
    (htrim : Str.trim text = address ++ '/' :: number) (hslash : '/' ∉ address) :
    parse text = .ok r ↔ ∃ a n, IpAddress.parse address = .ok a ∧ number.length ≤ 3 ∧
      Str.Numeral 10 Str.decimalDigit number n ∧ n % 256 ≤ a.family.width ∧
        IsRange r a (n % 256) := by
  simp only [parse, htrim]
  rw [if_pos (by simp), Str.takeWhile_before hslash, Str.dropWhile_before hslash, List.drop_one,
    List.tail_cons, Result.bind_eq_ok_iff]
  refine exists_congr fun a => ?_
  cases hn : parsePrefixLength number with
  | none =>
    refine iff_of_false (by simp) ?_
    rintro ⟨n, -, hlen, hnumeral, -⟩
    have := parsePrefixLength_iff.mpr ⟨hlen, hnumeral⟩
    rw [hn] at this
    cases this
  | some n =>
    obtain ⟨hlen, hnumeral⟩ := parsePrefixLength_iff.mp hn
    simp only [make_eq_ok_iff]
    constructor
    · rintro ⟨ha, hle, hr⟩
      exact ⟨n, ha, hlen, hnumeral, hle, hr⟩
    · rintro ⟨m, ha, -, hm, hle, hr⟩
      obtain rfl := hnumeral.functional hm
      exact ⟨ha, hle, hr⟩

theorem parse_bare (hslash : '/' ∉ Str.trim text) : parse text = .ok r ↔
    ∃ a, IpAddress.parse (Str.trim text) = .ok a ∧ IsRange r a a.family.width := by
  simp only [parse, if_neg hslash]
  rw [Result.bind_eq_ok_iff]
  refine exists_congr fun a => and_congr_right fun _ => ?_
  rw [make_eq_ok_iff, toNat_width, and_iff_right (Nat.le_refl _)]

/-- The text of a range with a slash in it. -/
theorem rangeText_slash {address number : List Char} (hslash : '/' ∉ address) :
    RangeText (address ++ '/' :: number) a n ↔ IpAddress.parse address = .ok a ∧
      number.length ≤ 3 ∧ Str.Numeral 10 Str.decimalDigit number n ∧ n ≤ a.family.width := by
  constructor
  · intro h
    generalize htext : address ++ '/' :: number = t at h
    cases h with
    | bare h =>
      subst htext
      exact absurd (List.mem_append_right _ List.mem_cons_self) (slash_notMem h)
    | @slash address' number' _ _ h hlen hn hle =>
      have hbefore := congrArg (List.takeWhile (· ≠ '/')) htext
      rw [Str.takeWhile_before hslash, Str.takeWhile_before (slash_notMem h)] at hbefore
      subst hbefore
      obtain ⟨-, rfl⟩ := List.cons_eq_cons.mp (List.append_cancel_left htext)
      exact ⟨h, hlen, hn, hle⟩
  · rintro ⟨h, hlen, hn, hle⟩
    exact .slash h hlen hn hle

theorem rangeText_bare (hslash : '/' ∉ text) :
    RangeText text a n ↔ IpAddress.parse text = .ok a ∧ n = a.family.width := by
  constructor
  · intro h
    cases h with
    | bare h => exact ⟨h, rfl⟩
    | slash => exact absurd (List.mem_append_right _ List.mem_cons_self) hslash
  · rintro ⟨h, rfl⟩
    exact .bare h

/-- The range that `make` makes. -/
theorem exists_isRange (hle : n ≤ a.family.width) : ∃ r, IsRange r a n :=
  ⟨⟨⟨a.family, maskBytes n a.bytes, by rw [length_maskBytes, a.length_bytes]⟩, n, hle,
    maskBytes_maskBytes _ _⟩, rfl, rfl, rfl⟩

theorem readRight_iff (text : List Char) : ReadRight text ↔ ¬ Overlong text := by
  unfold ReadRight
  by_cases hslash : '/' ∈ Str.trim text
  · obtain ⟨address, number, htrim, haddress⟩ := List.eq_append_cons_of_mem hslash
    constructor
    · rintro h ⟨address', number', a, n, htrim', ha, hlen, hn, hlong, hle⟩
      have hslash' := slash_notMem ha
      obtain ⟨r, hr⟩ := exists_isRange hle
      have hparse := (parse_slash htrim' hslash').mpr ⟨a, n, ha, hlen, hn, hle, hr⟩
      obtain ⟨b, m, htext, -⟩ := (h r).mp hparse
      rw [htrim', rangeText_slash hslash'] at htext
      obtain ⟨-, -, hm, hbound⟩ := htext
      obtain rfl := hn.functional hm
      have := width_lt b.family
      omega
    · intro h r
      rw [parse_slash htrim haddress, htrim]
      simp only [rangeText_slash haddress]
      refine exists_congr fun a => exists_congr fun n => ?_
      constructor
      · rintro ⟨ha, hlen, hn, hle, hr⟩
        have hsmall : n < 256 := Nat.lt_of_not_le fun hlong =>
          h ⟨address, number, a, n, htrim, ha, hlen, hn, hlong, hle⟩
        rw [Nat.mod_eq_of_lt hsmall] at hle hr
        exact ⟨⟨ha, hlen, hn, hle⟩, hr⟩
      · rintro ⟨⟨ha, hlen, hn, hle⟩, hr⟩
        have hsmall : n < 256 := Nat.lt_of_le_of_lt hle (width_lt _)
        rw [Nat.mod_eq_of_lt hsmall]
        exact ⟨ha, hlen, hn, hle, hr⟩
  · refine iff_of_true (fun r => ?_) ?_
    · rw [parse_bare hslash]
      simp only [rangeText_bare hslash]
      constructor
      · rintro ⟨a, ha, hr⟩
        exact ⟨a, _, ⟨ha, rfl⟩, hr⟩
      · rintro ⟨a, n, ⟨ha, rfl⟩, hr⟩
        exact ⟨a, ha, hr⟩
    · rintro ⟨address, number, a, n, htrim, -⟩
      rw [htrim] at hslash
      exact hslash (List.mem_append_right _ List.mem_cons_self)

/-- What is written is read back. -/
theorem parse_toString (r : IpRange) : parse r.toString.toList = .ok r := by
  have htext : r.toString.toList =
      r.network.toText ++ '/' :: Nat.toDigits 10 r.prefixLength := by
    simp [IpRange.toString, IpAddress.toString]
  have hslash : '/' ∉ r.network.toText := slash_notMem (IpAddress.parse_toText _)
  have hle := r.prefix_le
  have hlt : r.prefixLength < 256 := Nat.lt_of_le_of_lt hle (width_lt _)
  have htrim : Str.trim (r.network.toText ++ '/' :: Nat.toDigits 10 r.prefixLength) =
      r.network.toText ++ '/' :: Nat.toDigits 10 r.prefixLength := by
    refine Str.trim_of_forall fun c hc => ?_
    rcases List.mem_append.mp hc with hc | hc
    · exact (IpAddress.denotes_toText _).not_isSpace c hc
    · rcases List.mem_cons.mp hc with rfl | hc
      · decide
      · exact Str.not_isSpace_toDigits _ c hc
  rw [htext, parse_slash htrim hslash]
  refine ⟨r.network, r.prefixLength, IpAddress.parse_toText _, ?_, Str.decimal_toDigits _, ?_, ?_⟩
  · exact (Nat.length_toDigits_le_iff (by decide) (by decide)).mpr (by omega)
  · rwa [Nat.mod_eq_of_lt hlt]
  · rw [Nat.mod_eq_of_lt hlt]
    exact ⟨rfl, r.masked.symm, rfl⟩

/-- A text is read as what it says exactly if its number is not one that wraps
around into the width; and what is written is read back. -/
theorem parse_range_iff (text : List Char) : (ReadRight text ↔ ¬ Overlong text) ∧
    ∀ a n r, make a n = .ok r → parse r.toString.toList = .ok r :=
  ⟨readRight_iff text, fun _ _ r _ => parse_toString r⟩

/-- A rule for one host that is one for every address. -/
theorem overlong_misread : ¬ ∀ text, ReadRight text := by
  intro h
  have hparse : (parse "1.2.3.4/256".toList).toOption.map (·.prefixLength) = some 0 := by
    decide +kernel
  obtain ⟨r, hr, hzero⟩ := Option.map_eq_some_iff.mp hparse
  obtain ⟨a, n, htext, hrange⟩ := (h _ r).mp (Result.eq_ok_of_toOption hr)
  have htrim : Str.trim "1.2.3.4/256".toList = "1.2.3.4".toList ++ '/' :: "256".toList := by
    decide +kernel
  rw [htrim, rangeText_slash (by decide)] at htext
  have hn : Str.Numeral 10 Str.decimalDigit "256".toList 256 := by
    rw [← Str.digits_eq_some_iff (by decide)]
    decide +kernel
  have hn' := hn.functional htext.2.2.1
  rw [hrange.prefixLength, ← hn'] at hzero
  cases hzero

end NovaVpn.Net.IpRange
