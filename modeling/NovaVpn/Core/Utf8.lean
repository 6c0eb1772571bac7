import NovaVpn.Core.Text

/-!
# UTF-8

Which texts are the UTF-8 form of some characters (`IsUtf8`). A text is its
bytes, each written as the character of that code. ASCII at the end of a text
does not matter to that (`isUtf8_append_ascii`).
-/

namespace NovaVpn.Str

/-- The bytes of a character in UTF-8. -/
def utf8 (c : Char) : List Char := (String.utf8EncodeChar c).map fun b => Char.ofNat b.toNat

def IsUtf8 (text : List Char) : Prop := ∃ chars : List Char, text = chars.flatMap utf8

variable {text rest : List Char} {c : Char}

theorem toNat_ofNat_of_lt {n : Nat} (h : n < 256) : (Char.ofNat n).toNat = n := by
  rw [Char.ofNat, dif_pos (.inl (by omega))]
  rfl

theorem toNat_byte {n : Nat} (h : n < 256) : (Char.ofNat (UInt8.ofNat n).toNat).toNat = n := by
  have hbyte : (UInt8.ofNat n).toNat = n := by
    rw [UInt8.toNat_ofNat']
    exact Nat.mod_eq_of_lt h
  rw [hbyte, toNat_ofNat_of_lt h]

theorem utf8_of_ascii (h : c.toNat < 128) : utf8 c = [c] := by
  have hle : c.val.toNat ≤ 0x7f := Nat.le_of_lt_succ h
  have hbyte : (UInt8.ofNat c.toNat).toNat = c.toNat := by
    rw [UInt8.toNat_ofNat']
    exact Nat.mod_eq_of_lt (by omega)
  rw [utf8, String.utf8EncodeChar, if_pos hle, List.map_singleton]
  show [Char.ofNat (UInt8.ofNat c.toNat).toNat] = [c]
  rw [hbyte, Char.ofNat_toNat]

/-- Any other character takes several bytes, the last of which is not ASCII. -/
theorem utf8_of_not_ascii (h : 128 ≤ c.toNat) :
    ∃ front last, utf8 c = front ++ [last] ∧ front ≠ [] ∧ 128 ≤ last.toNat := by
  have hgt : ¬ c.val.toNat ≤ 0x7f := Nat.not_le_of_gt h
  have hlast : 128 ≤ (Char.ofNat (UInt8.ofNat (c.val.toNat % 0x40 + 0x80)).toNat).toNat := by
    rw [toNat_byte (by omega)]
    omega
  have hne : ∀ (b : Char) (bs : List Char), b :: bs ≠ [] := fun b bs => List.cons_ne_nil b bs
  rw [utf8, String.utf8EncodeChar, if_neg hgt]
  split
  · exact ⟨[_], _, rfl, hne _ _, hlast⟩
  · split
    · exact ⟨[_, _], _, rfl, hne _ _, hlast⟩
    · exact ⟨[_, _, _], _, rfl, hne _ _, hlast⟩

theorem isUtf8_nil : IsUtf8 [] := ⟨[], rfl⟩

theorem IsUtf8.append (h : IsUtf8 text) (h' : IsUtf8 rest) : IsUtf8 (text ++ rest) := by
  obtain ⟨chars, rfl⟩ := h
  obtain ⟨chars', rfl⟩ := h'
  exact ⟨chars ++ chars', List.flatMap_append.symm⟩

theorem isUtf8_of_ascii (h : ∀ c ∈ text, c.toNat < 128) : IsUtf8 text := by
  induction text with
  | nil => exact isUtf8_nil
  | cons c text ih =>
    rw [List.forall_mem_cons] at h
    have hhead : IsUtf8 [c] := ⟨[c], by rw [List.flatMap_singleton, utf8_of_ascii h.1]⟩
    exact hhead.append (ih h.2)

theorem isUtf8_of_concat (hc : c.toNat < 128) (h : IsUtf8 (text ++ [c])) : IsUtf8 text := by
  obtain ⟨chars, heq⟩ := h
  rcases List.eq_nil_or_concat chars with rfl | ⟨init, d, rfl⟩
  · exact absurd heq (List.append_ne_nil_of_right_ne_nil _ (List.cons_ne_nil _ _))
  · rw [List.concat_eq_append, List.flatMap_append, List.flatMap_singleton] at heq
    refine ⟨init, ?_⟩
    by_cases hd : d.toNat < 128
    · rw [utf8_of_ascii hd] at heq
      exact List.append_inj_left' heq rfl
    · obtain ⟨front, last, hutf8, -, hlast⟩ := utf8_of_not_ascii (Nat.le_of_not_lt hd)
      rw [hutf8, ← List.append_assoc] at heq
      have hcl : c = last := (List.cons.inj (List.append_inj_right' heq rfl)).1
      rw [← hcl] at hlast
      omega

/-- ASCII at the end does not matter. -/
theorem isUtf8_append_ascii (h : ∀ c ∈ rest, c.toNat < 128) :
    IsUtf8 (text ++ rest) ↔ IsUtf8 text := by
  refine ⟨fun hutf8 => ?_, fun hutf8 => hutf8.append (isUtf8_of_ascii h)⟩
  induction rest generalizing text with
  | nil => rwa [List.append_nil] at hutf8
  | cons c rest ih =>
    rw [List.forall_mem_cons] at h
    rw [List.append_cons] at hutf8
    exact isUtf8_of_concat h.1 (ih h.2 hutf8)

/-- A byte that is not ASCII is no text on its own. -/
theorem not_isUtf8_byte (h : 128 ≤ c.toNat) : ¬ IsUtf8 [c] := by
  rintro ⟨chars, heq⟩
  cases chars with
  | nil => cases heq
  | cons d chars =>
    rw [List.flatMap_cons] at heq
    by_cases hd : d.toNat < 128
    · rw [utf8_of_ascii hd] at heq
      rw [(List.cons.inj heq).1] at h
      omega
    · obtain ⟨front, last, hutf8, hfront, -⟩ := utf8_of_not_ascii (Nat.le_of_not_lt hd)
      rw [hutf8] at heq
      have hlen := congrArg List.length heq
      have := List.length_pos_iff.mpr hfront
      simp only [List.length_append, List.length_singleton] at hlen
      omega

end NovaVpn.Str
