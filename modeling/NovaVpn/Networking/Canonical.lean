import NovaVpn.Networking.AddressText

/-!
# The canonical text of an address

`formatV6` writes the RFC 5952 form (`Canonical`): lower case, no leading zeros,
and `::` for the first of the longest runs of zero groups, if that has at least
two. The scan for the run keeps the best run of what it has seen and the run it
is in (`ScanInv`). The text is one that the parser reads (`Canonical.v6Text`), so
what is printed comes back (`address_text`).
-/

namespace NovaVpn.Net

open NovaVpn.Framework

/-! ## The form -/

/-- A group in lower case without leading zeros. -/
structure LowerGroup (text : List Char) (w : BitVec 16) : Prop where
  numeral : Str.Numeral 16 Str.hexDigit text w.toNat
  lower : ∀ c ∈ text, c.toLower = c
  noLeadingZero : text.head? = some '0' → text = ['0']

inductive LowerGroups : List Char → List (BitVec 16) → Prop
  | one {t : List Char} {w : BitVec 16} (h : LowerGroup t w) : LowerGroups t [w]
  | cons {t rest : List Char} {w : BitVec 16} {ws : List (BitVec 16)} (h : LowerGroup t w)
      (hrest : LowerGroups rest ws) : LowerGroups (t ++ ':' :: rest) (w :: ws)

/-- The `m` groups from `s` on are zeros. -/
def ZeroStretch (words : List (BitVec 16)) (s m : Nat) : Prop := ∀ k < m, words[s + k]? = some 0

/-- RFC 5952 text: without `::` if no two zero groups are next to each other, and
else with `::` for the longest run of zeros, the first one of that length. -/
inductive Canonical : List Char → List (BitVec 16) → Prop
  | plain {text : List Char} {words : List (BitVec 16)} (h : LowerGroups text words)
      (hrun : ∀ s m, ZeroStretch words s m → m < 2) : Canonical text words
  | compressed {left right : List Char} {head tail : List (BitVec 16)} {n : Nat}
      (hleft : left = [] ∧ head = [] ∨ LowerGroups left head)
      (hright : right = [] ∧ tail = [] ∨ LowerGroups right tail) (hn : 2 ≤ n)
      (hlongest : ∀ s m, ZeroStretch (head ++ List.replicate n 0 ++ tail) s m → m ≤ n)
      (hfirst : ∀ s, ZeroStretch (head ++ List.replicate n 0 ++ tail) s n → head.length ≤ s) :
      Canonical (left ++ ':' :: ':' :: right) (head ++ List.replicate n 0 ++ tail)

theorem LowerGroup.group {text : List Char} {w : BitVec 16} (h : LowerGroup text w) :
    Group text w := by
  refine ⟨h.numeral, ?_⟩
  have hw := w.isLt
  by_cases hzero : text.head? = some '0'
  · rw [h.noLeadingZero hzero]
    decide
  · have hle := h.numeral.pow_le fun c hc hd => hzero (by
      rw [Option.mem_def.mp hc, Str.eq_zero_of_hexDigit hd])
    refine Nat.le_of_not_lt fun hlong => ?_
    have hpow : 16 ^ 4 ≤ 16 ^ (text.length - 1) := Nat.pow_le_pow_right (by decide) (by omega)
    omega

theorem LowerGroups.groups {text : List Char} {ws : List (BitVec 16)} (h : LowerGroups text ws) :
    Groups text ws := by
  induction h with
  | one h => exact .one h.group
  | cons h _ ih => exact .cons h.group ih

theorem Groups.orQuad {text : List Char} {ws : List (BitVec 16)} (h : Groups text ws) :
    GroupsOrQuad text ws := by
  induction h with
  | one h => exact .one h
  | cons h _ ih => exact .cons h ih

/-- A canonical text of eight groups is an RFC 4291 text of them. -/
theorem Canonical.v6Text {text : List Char} {words : List (BitVec 16)} (h : Canonical text words)
    (hlen : words.length = 8) : V6Text text words := by
  cases h with
  | plain h => exact .full h.groups.orQuad hlen
  | @compressed left right head tail n hleft hright hn =>
    simp only [List.length_append, List.length_replicate] at hlen
    have hn' : n = 8 - head.length - tail.length := by omega
    rw [hn']
    exact .compressed (hleft.imp id LowerGroups.groups) (hright.imp id fun h => h.groups.orQuad)
      (by omega)

theorem toLower_digitChar : ∀ d < 16, d.digitChar.toLower = d.digitChar := by decide

/-- A printed group. -/
theorem lowerGroup_toDigits (w : BitVec 16) : LowerGroup (Nat.toDigits 16 w.toNat) w where
  numeral := Str.hex_toDigits _
  lower c hc := by
    obtain ⟨d, hd, rfl⟩ := Str.digitChar_of_mem_toDigits (by decide) hc
    exact toLower_digitChar d hd
  noLeadingZero hhead := by
    rw [Str.eq_zero_of_head_toDigits (by decide) hhead]
    rfl

/-! ## The longest run -/

theorem ZeroStretch.le_length {words : List (BitVec 16)} {s m : Nat} (h : ZeroStretch words s m)
    (hm : 0 < m) : s + m ≤ words.length := by
  have hlast := h (m - 1) (by omega)
  have := (List.getElem?_eq_some_iff.mp hlast).1
  omega

/-- A stretch with one more group behind it. -/
theorem zeroStretch_append {words : List (BitVec 16)} {w : BitVec 16} {s m : Nat} :
    ZeroStretch (words ++ [w]) s m ↔ m = 0 ∨ s + m ≤ words.length ∧ ZeroStretch words s m ∨
      s + m = words.length + 1 ∧ w = 0 ∧ ZeroStretch words s (m - 1) := by
  constructor
  · intro h
    rcases m.eq_zero_or_pos with rfl | hm
    · exact Or.inl rfl
    refine Or.inr ?_
    have hle := h.le_length hm
    rw [List.length_append, List.length_singleton] at hle
    rcases Nat.lt_or_ge words.length (s + m) with hlt | hge
    · refine Or.inr ⟨by omega, ?_, fun k hk => ?_⟩
      · have hlast := h (m - 1) (by omega)
        rw [show s + (m - 1) = words.length by omega, List.getElem?_append_right (Nat.le_refl _),
          Nat.sub_self] at hlast
        exact Option.some.inj hlast
      · have := h k (by omega)
        rwa [List.getElem?_append_left (by omega)] at this
    · refine Or.inl ⟨hge, fun k hk => ?_⟩
      have := h k hk
      rwa [List.getElem?_append_left (by omega)] at this
  · rintro (rfl | ⟨hle, h⟩ | ⟨hlen, rfl, h⟩) k hk
    · omega
    · rw [List.getElem?_append_left (by omega)]
      exact h k hk
    · by_cases hlast : s + k < words.length
      · rw [List.getElem?_append_left hlast]
        exact h k (by omega)
      · rw [List.getElem?_append_right (by omega), show s + k - words.length = 0 by omega]
        rfl

namespace IpAddress

/-- What the scan knows of the groups it has seen: the best run, and the run of
zeros that they end with. -/
structure ScanInv (words : List (BitVec 16)) (z : ZeroRun) : Prop where
  best : ZeroStretch words z.bestStart z.bestLength
  longest : ∀ s m, ZeroStretch words s m → m ≤ z.bestLength
  first : ∀ s, 0 < z.bestLength → ZeroStretch words s z.bestLength → z.bestStart ≤ s
  run : ZeroStretch words (words.length - z.runLength) z.runLength
  runStart : 0 < z.runLength → z.runStart + z.runLength = words.length
  runLongest : ∀ s m, ZeroStretch words s m → s + m = words.length → m ≤ z.runLength

variable {words : List (BitVec 16)} {z : ZeroRun} {w : BitVec 16}

theorem scanInv_nil : ScanInv [] {} where
  best k hk := absurd hk (Nat.not_lt_zero k)
  longest s m h := by
    refine Nat.le_of_not_lt fun hm => ?_
    have := h.le_length hm
    rw [List.length_nil] at this
    omega
  first s h := absurd h (Nat.lt_irrefl 0)
  run k hk := absurd hk (Nat.not_lt_zero k)
  runStart h := absurd h (Nat.lt_irrefl 0)
  runLongest s m _ h := by
    rw [List.length_nil] at h
    show m ≤ 0
    omega

/-- A group that is not zero ends the run. -/
theorem ScanInv.visit_ne (h : ScanInv words z) (hw : w ≠ 0) :
    ScanInv (words ++ [w]) (z.visit words.length w) := by
  have hold {s m : Nat} (hs : ZeroStretch (words ++ [w]) s m) (hm : 0 < m) :
      s + m ≤ words.length ∧ ZeroStretch words s m := by
    rcases zeroStretch_append.mp hs with rfl | hs | ⟨-, h0, -⟩
    · exact absurd hm (Nat.lt_irrefl 0)
    · exact hs
    · exact absurd h0 hw
  rw [ZeroRun.visit, if_neg hw]
  refine ⟨?_, fun s m hs => ?_, fun s hpos hs => h.first s hpos (hold hs hpos).2,
    fun k hk => absurd hk (Nat.not_lt_zero k), fun hpos => absurd hpos (Nat.lt_irrefl 0),
    fun s m hs hend => ?_⟩
  · rcases z.bestLength.eq_zero_or_pos with hzero | hpos
    · exact zeroStretch_append.mpr (Or.inl hzero)
    · exact zeroStretch_append.mpr (Or.inr (Or.inl ⟨h.best.le_length hpos, h.best⟩))
  · rcases m.eq_zero_or_pos with rfl | hm
    · exact Nat.zero_le _
    · exact h.longest s m (hold hs hm).2
  · refine Nat.le_of_not_lt fun hm => ?_
    have := (hold hs hm).1
    rw [List.length_append, List.length_singleton] at hend
    omega

/-- Where the run starts if the next group is zero. -/
theorem ScanInv.start_eq (h : ScanInv words z) :
    (if z.runLength = 0 then words.length else z.runStart) + z.runLength = words.length := by
  split
  next hzero => omega
  next hne => exact h.runStart (Nat.pos_of_ne_zero hne)

theorem ScanInv.run_zero (h : ScanInv words z) :
    ZeroStretch (words ++ [0]) (words.length - z.runLength) (z.runLength + 1) := by
  have hstart := h.start_eq
  refine zeroStretch_append.mpr (Or.inr (Or.inr ⟨by omega, rfl, ?_⟩))
  rw [Nat.add_sub_cancel]
  exact h.run

/-- A stretch is one of the groups before, or ends with the new one. -/
theorem ScanInv.stretch_zero (h : ScanInv words z) {s m : Nat}
    (hs : ZeroStretch (words ++ [0]) s m) (hm : 0 < m) :
    s + m ≤ words.length ∧ ZeroStretch words s m ∨
      s + m = words.length + 1 ∧ m ≤ z.runLength + 1 := by
  rcases zeroStretch_append.mp hs with rfl | hs | ⟨hend, -, hs⟩
  · exact absurd hm (Nat.lt_irrefl 0)
  · exact Or.inl hs
  · have := h.runLongest s (m - 1) hs (by omega)
    exact Or.inr ⟨hend, by omega⟩

theorem ScanInv.le_run (h : ScanInv words z) {s m : Nat} (hs : ZeroStretch (words ++ [0]) s m)
    (hend : s + m = (words ++ [0]).length) : m ≤ z.runLength + 1 := by
  rw [List.length_append, List.length_singleton] at hend
  rcases m.eq_zero_or_pos with rfl | hm
  · omega
  · rcases h.stretch_zero hs hm with ⟨hle, -⟩ | ⟨-, hle⟩
    · omega
    · exact hle

/-- A zero group makes the run longer, and perhaps the best one. -/
theorem ScanInv.visit_zero (h : ScanInv words z) :
    ScanInv (words ++ [0]) (z.visit words.length 0) := by
  have hstart := h.start_eq
  have hrunLongest : ∀ s m, ZeroStretch (words ++ [0]) s m → s + m = (words ++ [0]).length →
      m ≤ z.runLength + 1 := fun _ _ => h.le_run
  rw [ZeroRun.visit, if_pos rfl]
  simp only
  by_cases hbetter : z.runLength + 1 > z.bestLength
  · rw [if_pos hbetter]
    refine ⟨?_, fun s m hs => ?_, fun s hpos hs => ?_, ?_, fun hpos => ?_, hrunLongest⟩
    · rw [show (if z.runLength = 0 then words.length else z.runStart) =
        words.length - z.runLength by omega]
      exact h.run_zero
    · rcases m.eq_zero_or_pos with rfl | hm
      · exact Nat.zero_le _
      · rcases h.stretch_zero hs hm with ⟨-, hs⟩ | ⟨-, hle⟩
        · have := h.longest s m hs
          show m ≤ z.runLength + 1
          omega
        · exact hle
    · rcases h.stretch_zero hs hpos with ⟨-, hs⟩ | ⟨hend, -⟩
      · have := h.longest _ _ hs
        simp only at this
        omega
      · simp only at hend ⊢
        omega
    · simp only [List.length_append, List.length_singleton, Nat.add_sub_add_right]
      exact h.run_zero
    · simp only [List.length_append, List.length_singleton]
      omega
  · rw [if_neg hbetter]
    refine ⟨?_, fun s m hs => ?_, fun s hpos hs => ?_, ?_, fun hpos => ?_, hrunLongest⟩
    · have hpos : 0 < z.bestLength := by omega
      exact zeroStretch_append.mpr (Or.inr (Or.inl ⟨h.best.le_length hpos, h.best⟩))
    · rcases m.eq_zero_or_pos with rfl | hm
      · exact Nat.zero_le _
      · rcases h.stretch_zero hs hm with ⟨-, hs⟩ | ⟨-, hle⟩
        · exact h.longest s m hs
        · show m ≤ z.bestLength
          omega
    · rcases h.stretch_zero hs hpos with ⟨-, hs⟩ | ⟨hend, -⟩
      · exact h.first s hpos hs
      · have := h.best.le_length hpos
        simp only at hend ⊢
        omega
    · simp only [List.length_append, List.length_singleton, Nat.add_sub_add_right]
      exact h.run_zero
    · simp only [List.length_append, List.length_singleton]
      omega

theorem scanInv_scan (h : ScanInv words z) (rest : List (BitVec 16)) :
    ScanInv (words ++ rest) (z.scan words.length rest) := by
  induction rest generalizing words z with
  | nil => rwa [List.append_nil]
  | cons w rest ih =>
    have hstep : ScanInv (words ++ [w]) (z.visit words.length w) := by
      by_cases hw : w = 0
      · rw [hw]
        exact h.visit_zero
      · exact h.visit_ne hw
    have := ih hstep
    rwa [List.append_assoc, List.length_append] at this

/-- The run that is compressed is the first of the longest, and has at least two
groups; if there is none, no two zero groups are next to each other. -/
theorem longestRun_spec (words : List (BitVec 16)) :
    ((longestRun words).1 = 8 ∧ ∀ s m, ZeroStretch words s m → m < 2) ∨
      2 ≤ (longestRun words).2 ∧
        ZeroStretch words (longestRun words).1 (longestRun words).2 ∧
        (∀ s m, ZeroStretch words s m → m ≤ (longestRun words).2) ∧
        ∀ s, ZeroStretch words s (longestRun words).2 → (longestRun words).1 ≤ s := by
  have h := scanInv_scan scanInv_nil words
  rw [List.nil_append, List.length_nil] at h
  unfold longestRun
  simp only
  split
  next hshort =>
    refine Or.inl ⟨rfl, fun s m hs => ?_⟩
    have := h.longest s m hs
    omega
  next hlong =>
    exact Or.inr ⟨by omega, h.best, h.longest, fun s => h.first s (by omega)⟩

/-! ## Writing the groups -/

/-- The groups with single colons between them. -/
def joined (ws : List (BitVec 16)) : List Char :=
  [':'].intercalate (ws.map fun w => Nat.toDigits 16 w.toNat)

theorem lowerGroups_joined {ws : List (BitVec 16)} (hne : ws ≠ []) :
    LowerGroups (joined ws) ws := by
  induction ws with
  | nil => exact absurd rfl hne
  | cons w ws ih =>
    by_cases hws : ws = []
    · subst hws
      rw [joined, List.map_singleton, List.intercalate_singleton]
      exact .one (lowerGroup_toDigits w)
    · rw [joined, List.map_cons, List.intercalate_cons_of_ne_nil (by simpa using hws),
        List.append_assoc]
      exact .cons (lowerGroup_toDigits w) (ih hws)

variable {bestStart bestLength i skip : Nat} {out : List Char} {ws rest : List (BitVec 16)}

/-- The groups before the compressed run. -/
theorem emit_append (h : i + ws.length ≤ bestStart) :
    emit bestStart bestLength i 0 out (ws ++ rest) = emit bestStart bestLength (i + ws.length) 0
      (emit bestStart bestLength i 0 out ws) rest := by
  induction ws generalizing i out with
  | nil => rfl
  | cons w ws ih =>
    rw [List.length_cons] at h ⊢
    simp only [List.cons_append, emit, if_neg (show i ≠ bestStart by omega)]
    rw [ih (by omega), show i + 1 + ws.length = i + (ws.length + 1) by omega]

/-- The groups of the compressed run. -/
theorem emit_skip (h : ws.length = skip) :
    emit bestStart bestLength i skip out (ws ++ rest) =
      emit bestStart bestLength (i + skip) 0 out rest := by
  induction ws generalizing i skip with
  | nil =>
    obtain rfl : skip = 0 := h.symm
    rfl
  | cons w ws ih =>
    obtain ⟨skip, rfl⟩ : ∃ k, skip = k + 1 := ⟨ws.length, by rw [← h, List.length_cons]⟩
    simp only [List.cons_append, emit]
    rw [ih (by simpa using h), show i + 1 + skip = i + (skip + 1) by omega]

theorem getLast_toDigits (out : List Char) (w : BitVec 16) :
    (out ++ Nat.toDigits 16 w.toNat).getLast? ≠ some ':' := by
  intro h
  rw [List.getLast?_append_of_ne_nil _ Nat.toDigits_ne_nil] at h
  exact (Str.hex_toDigits w.toNat).notMem colon_notHex (List.mem_of_getLast? h)

/-- Groups behind a group. -/
theorem emit_behind (hne : out ≠ []) (hlast : out.getLast? ≠ some ':')
    (hstart : ∀ k < ws.length, i + k ≠ bestStart) : emit bestStart bestLength i 0 out ws =
      out ++ ws.flatMap fun w => ':' :: Nat.toDigits 16 w.toNat := by
  induction ws generalizing i out with
  | nil => simp [emit]
  | cons w ws ih =>
    have hi : i ≠ bestStart := hstart 0 (Nat.succ_pos _)
    have hcond : (!out.isEmpty && out.getLast? != some ':') = true := by
      simp [hne, hlast]
    simp only [emit, if_neg hi, hcond, if_true]
    rw [ih (by simp) (getLast_toDigits _ w) fun k hk => ?_]
    · simp
    · have := hstart (k + 1) (by rw [List.length_cons]; omega)
      omega

/-- Groups at the start or behind `::`. -/
theorem emit_fresh (hlast : out = [] ∨ out.getLast? = some ':')
    (hstart : ∀ k < ws.length, i + k ≠ bestStart) :
    emit bestStart bestLength i 0 out ws = out ++ joined ws := by
  cases ws with
  | nil => simp [emit, joined]
  | cons w ws =>
    have hi : i ≠ bestStart := hstart 0 (Nat.succ_pos _)
    have hcond : (!out.isEmpty && out.getLast? != some ':') = false := by
      rcases hlast with rfl | hlast
      · rfl
      · simp [hlast]
    have hjoin : joined (w :: ws) =
        Nat.toDigits 16 w.toNat ++ ws.flatMap fun w => ':' :: Nat.toDigits 16 w.toNat := by
      clear hi hstart hcond
      induction ws generalizing w with
      | nil => simp [joined]
      | cons v ws ih =>
        have := ih v
        simp only [joined, List.map_cons] at this ⊢
        rw [List.intercalate_cons_cons, this]
        simp
    simp only [emit, if_neg hi, hcond, Bool.false_eq_true, if_false]
    rw [emit_behind (by simp) (getLast_toDigits _ w) fun k hk => ?_, hjoin, List.append_assoc]
    have := hstart (k + 1) (by rw [List.length_cons]; omega)
    omega

theorem emit_plain (h : ws.length ≤ bestStart) : emit bestStart bestLength 0 0 [] ws = joined ws := by
  rw [emit_fresh (Or.inl rfl) fun k hk => by omega, List.nil_append]

theorem emit_compressed {head tail : List (BitVec 16)} {n : Nat} :
    emit head.length (n + 1) 0 0 [] (head ++ List.replicate (n + 1) 0 ++ tail) =
      joined head ++ ':' :: ':' :: joined tail := by
  rw [List.append_assoc, emit_append (by omega), Nat.zero_add, emit_plain (Nat.le_refl _),
    List.replicate_succ, List.cons_append, emit, if_pos rfl, Nat.add_sub_cancel,
    emit_skip List.length_replicate, emit_fresh (Or.inr (by simp)) fun k hk => by omega]
  simp

theorem joined_cases (ws : List (BitVec 16)) :
    joined ws = [] ∧ ws = [] ∨ LowerGroups (joined ws) ws := by
  by_cases h : ws = []
  · subst h
    exact Or.inl ⟨rfl, rfl⟩
  · exact Or.inr (lowerGroups_joined h)

/-- A stretch of zeros within the groups. -/
theorem split_of_zeroStretch {s m : Nat} (h : ZeroStretch words s m) (hm : 0 < m) :
    words = words.take s ++ List.replicate m 0 ++ words.drop (s + m) ∧
      (words.take s).length = s := by
  have hle := h.le_length hm
  have hmid : (words.drop s).take m = List.replicate m 0 := by
    refine List.ext_getElem? fun k => ?_
    by_cases hk : k < m
    · rw [List.getElem?_take_of_lt hk, List.getElem?_drop, h k hk,
        List.getElem?_replicate_of_lt hk]
    · rw [List.getElem?_eq_none (by simp; omega), List.getElem?_eq_none (by simp; omega)]
  refine ⟨?_, by rw [List.length_take]; omega⟩
  rw [← hmid, List.append_assoc, ← List.drop_drop, List.take_append_drop, List.take_append_drop]

/-- What the writing loop writes is the canonical text of the groups. -/
theorem canonical_emit (h : words.length = 8) :
    Canonical (emit (longestRun words).1 (longestRun words).2 0 0 [] words) words := by
  rcases longestRun_spec words with ⟨hstart, hrun⟩ | ⟨hn, hz, hlongest, hfirst⟩
  · have hne : words ≠ [] := by
      rintro rfl
      cases h
    rw [hstart, emit_plain (Nat.le_of_eq h)]
    exact .plain (lowerGroups_joined hne) hrun
  · generalize (longestRun words).1 = s at hz hfirst ⊢
    generalize (longestRun words).2 = n at hn hz hlongest hfirst ⊢
    obtain ⟨hsplit, hlen⟩ := split_of_zeroStretch hz (by omega)
    generalize words.take s = head at hsplit hlen
    generalize words.drop (s + n) = tail at hsplit
    subst hsplit hlen
    obtain ⟨n, rfl⟩ : ∃ k, n = k + 1 := ⟨n - 1, by omega⟩
    rw [emit_compressed]
    exact .compressed (joined_cases head) (joined_cases tail) hn hlongest hfirst

/-! ## Round trips -/

theorem wordsOf_spec : ∀ (n : Nat) (bytes : List Byte), bytes.length = 2 * n →
    (wordsOf bytes).length = n ∧ (wordsOf bytes).flatMap groupBytes = bytes := by
  intro n
  induction n with
  | zero =>
    intro bytes h
    rw [List.length_eq_zero_iff.mp h]
    exact ⟨rfl, rfl⟩
  | succ n ih =>
    intro bytes h
    obtain ⟨a, bytes, rfl⟩ := List.exists_cons_of_length_eq_add_one h
    obtain ⟨b, rest, rfl⟩ := List.exists_cons_of_length_eq_add_one (Nat.succ.inj h)
    obtain ⟨hlen, hflat⟩ := ih rest (by simp only [List.length_cons] at h; omega)
    rw [wordsOf, List.length_cons, hlen, List.flatMap_cons, hflat]
    refine ⟨rfl, ?_⟩
    have ha : (a ++ b).extractLsb' 8 8 = a := by
      rw [BitVec.extractLsb'_append_eq_of_le (by decide)]
      simp
    have hb : (a ++ b).extractLsb' 0 8 = b := by
      rw [BitVec.extractLsb'_append_eq_of_add_le (by decide)]
      simp
    rw [groupBytes, ha, hb]
    rfl

/-- IPv6 addresses are written in the canonical form. -/
theorem canonical_toText {a : IpAddress} (hv6 : a.family = .ipv6) :
    Canonical a.toText (wordsOf a.bytes) := by
  have hlen : (wordsOf a.bytes).length = 8 :=
    (wordsOf_spec 8 a.bytes (by rw [a.length_bytes, hv6]; rfl)).1
  have h := canonical_emit hlen
  have hne : emit (longestRun (wordsOf a.bytes)).1 (longestRun (wordsOf a.bytes)).2 0 0 []
      (wordsOf a.bytes) ≠ [] := by
    intro hnil
    rw [hnil] at h
    exact absurd (two_le_length (h.v6Text hlen)) (by decide)
  rw [toText, if_neg (by simp [isV4, hv6]), formatV6]
  simp only [List.isEmpty_iff, if_neg hne]
  exact h

theorem octet_toDigits (b : Byte) : Octet (Nat.toDigits 10 b.toNat) b where
  numeral := Str.decimal_toDigits _
  noLeadingZero hhead := by
    rw [Str.eq_zero_of_head_toDigits (by decide) hhead]
    rfl

/-- What is written denotes the address. -/
theorem denotes_toText (a : IpAddress) : Denotes a.toText a := by
  obtain ⟨f, bytes, hlen⟩ := a
  cases f with
  | ipv4 =>
    obtain ⟨a, b, c, d, rfl⟩ := List.length_eq_four.mp hlen
    have htext : toText ⟨.ipv4, [a, b, c, d], hlen⟩ =
        Nat.toDigits 10 a.toNat ++ '.' :: (Nat.toDigits 10 b.toNat ++ '.' ::
          (Nat.toDigits 10 c.toNat ++ '.' :: Nat.toDigits 10 d.toNat)) := by
      simp [toText, isV4, formatV4, List.intercalate]
    rw [htext]
    exact .v4 (.mk (octet_toDigits a) (octet_toDigits b) (octet_toDigits c) (octet_toDigits d))
  | ipv6 =>
    obtain ⟨hcount, hflat⟩ := wordsOf_spec 8 bytes hlen
    have h := (canonical_toText (a := ⟨.ipv6, bytes, hlen⟩) rfl).v6Text hcount
    have hden := Denotes.v6 h (by rw [length_groupBytes, hcount])
    simp only [hflat] at hden
    exact hden

end IpAddress

/-! ## The characters of an address -/

variable {text : List Char} {x : Char}

theorem Groups.notMem {ws : List (BitVec 16)} (h : Groups text ws)
    (hx : Str.hexDigit x = none) (hcolon : x ≠ ':') : x ∉ text := by
  induction h with
  | one h => exact h.notMem hx
  | cons h _ ih => simp [h.notMem hx, ih, hcolon]

theorem decimalDigit_eq_none (h : Str.hexDigit x = none) : Str.decimalDigit x = none := by
  unfold Str.hexDigit at h
  split at h
  next => cases h
  next hrange => rw [Str.decimalDigit, if_neg hrange]

theorem GroupsOrQuad.notMem {ws : List (BitVec 16)} (h : GroupsOrQuad text ws)
    (hx : Str.hexDigit x = none) (hcolon : x ≠ ':') (hdot : x ≠ '.') : x ∉ text := by
  induction h with
  | one h => exact h.notMem hx
  | quad h => exact h.notMem (decimalDigit_eq_none hx) hdot
  | cons h _ ih => simp [h.notMem hx, ih, hcolon]

/-- The text of an address has only digits, colons and dots in it. -/
theorem Denotes.notMem {a : IpAddress} (h : Denotes text a) (hx : Str.hexDigit x = none)
    (hcolon : x ≠ ':') (hdot : x ≠ '.') : x ∉ text := by
  cases h with
  | v4 h => exact h.notMem (decimalDigit_eq_none hx) hdot
  | v6 h =>
    cases h with
    | full h => exact h.notMem hx hcolon hdot
    | @compressed left right _ _ hleft hright =>
      have hl : x ∉ left := by
        rcases hleft with ⟨rfl, -⟩ | h
        · exact List.not_mem_nil
        · exact h.notMem hx hcolon
      have hr : x ∉ right := by
        rcases hright with ⟨rfl, -⟩ | h
        · exact List.not_mem_nil
        · exact h.notMem hx hcolon hdot
      simp [hl, hr, hcolon]

theorem hexDigit_space (h : Str.isSpace x = true) :
    Str.hexDigit x = none ∧ x ≠ ':' ∧ x ≠ '.' := by
  simp only [Str.isSpace, Bool.or_eq_true, beq_iff_eq] at h
  rcases h with ((((rfl | rfl) | rfl) | rfl) | rfl) | rfl <;> decide

theorem Denotes.not_isSpace {a : IpAddress} (h : Denotes text a) :
    ∀ c ∈ text, Str.isSpace c = false := by
  intro c hc
  refine Bool.eq_false_iff.mpr fun hspace => ?_
  obtain ⟨hx, hcolon, hdot⟩ := hexDigit_space hspace
  exact h.notMem hx hcolon hdot hc

namespace IpAddress

/-- What is written is read back. -/
theorem tryParse_toText (a : IpAddress) : tryParse a.toText = some a := by
  have h := denotes_toText a
  rwa [tryParse_iff, Str.trim_of_forall h.not_isSpace]

theorem parse_toText (a : IpAddress) : parse a.toText = .ok a := by
  rw [parse, tryParse_toText]

theorem toText_inj {a b : IpAddress} (h : a.toText = b.toText) : a = b := by
  have ha := tryParse_toText a
  rw [h, tryParse_toText] at ha
  exact (Option.some.inj ha).symm

end IpAddress

/-! ## Endpoints -/

namespace Endpoint

/-- The address and the port of an endpoint: the address in brackets, or
everything before the last colon. -/
def parts (trimmed text : List Char) : Result (List Char × List Char) :=
  if trimmed.head? = some '[' then
    match (trimmed.drop 1).dropWhile (· ≠ ']') with
    | ']' :: ':' :: portText => .ok ((trimmed.drop 1).takeWhile (· ≠ ']'), portText)
    | _ => .error (Err.invalidArgument ("malformed bracketed endpoint: " ++ String.ofList text))
  else
    match trimmed.reverse.dropWhile (· ≠ ':') with
    | _ :: address => .ok (address.reverse, (trimmed.reverse.takeWhile (· ≠ ':')).reverse)
    | [] => .error (Err.invalidArgument ("endpoint is missing a port: " ++ String.ofList text))

/-- `std::from_chars` over all of the text; a number past the range of
`unsigned` is past that of ports, too. -/
def parsePort (text : List Char) : Option UInt16 :=
  if text.isEmpty then none
  else
    (Str.digits 10 Str.decimalDigit 0 text).bind fun port =>
      if port = 0 || port > 65535 then none else some (UInt16.ofNat port)

def parse (text : List Char) : Result Endpoint :=
  let trimmed := Str.trim text
  if trimmed.isEmpty then .error (Err.invalidArgument "empty endpoint")
  else do
    let (addressText, portText) ← parts trimmed text
    let address ← IpAddress.parse addressText
    match parsePort portText with
    | some port => return { address, port }
    | none => .error (Err.invalidArgument ("invalid port in " ++ String.ofList text))

def toText (e : Endpoint) : List Char :=
  if e.address.isV4 then e.address.toText ++ ':' :: Nat.toDigits 10 e.port.toNat
  else '[' :: (e.address.toText ++ ']' :: ':' :: Nat.toDigits 10 e.port.toNat)

protected def toString (e : Endpoint) : String := String.ofList e.toText

example : (parse "[2001:db8::1]:1194".toList).toOption.map Endpoint.toString =
    some "[2001:db8::1]:1194" := by decide +kernel
example : (parse "1.2.3.4:0".toList).toOption = none := by decide +kernel

variable {e : Endpoint}

theorem parsePort_toDigits {port : UInt16} (h : port ≠ 0) :
    parsePort (Nat.toDigits 10 port.toNat) = some port := by
  have hnumeral := Str.decimal_toDigits port.toNat
  have hzero : port.toNat ≠ 0 := fun h0 => h (UInt16.toNat_inj.mp h0)
  have hlt := port.toNat_lt
  rw [parsePort, if_neg (by simp [hnumeral.ne_nil]), hnumeral.digits_eq, Option.bind_some,
    if_neg (by simp only [Bool.or_eq_true, decide_eq_true_eq]; omega), UInt16.ofNat_toNat]

theorem toText_not_isSpace : ∀ c ∈ e.toText, Str.isSpace c = false := by
  intro c hc
  have haddress := (IpAddress.denotes_toText e.address).not_isSpace
  unfold toText at hc
  split at hc
  next =>
    rcases List.mem_append.mp hc with hc | hc
    · exact haddress c hc
    · rcases List.mem_cons.mp hc with rfl | hc
      · decide
      · exact Str.not_isSpace_toDigits _ c hc
  next =>
    rcases List.mem_cons.mp hc with rfl | hc
    · decide
    rcases List.mem_append.mp hc with hc | hc
    · exact haddress c hc
    rcases List.mem_cons.mp hc with rfl | hc
    · decide
    rcases List.mem_cons.mp hc with rfl | hc
    · decide
    · exact Str.not_isSpace_toDigits _ c hc

/-- The two parts of what is written. -/
theorem parts_toText (text : List Char) :
    parts e.toText text = .ok (e.address.toText, Nat.toDigits 10 e.port.toNat) := by
  unfold toText
  split
  next hv4 =>
    have hport : ':' ∉ (Nat.toDigits 10 e.port.toNat).reverse := by
      rw [List.mem_reverse]
      exact (Str.decimal_toDigits _).notMem colon_notDigit
    have hhead : (e.address.toText ++ ':' :: Nat.toDigits 10 e.port.toNat).head? ≠ some '[' := by
      intro h
      rcases List.mem_append.mp (List.mem_of_mem_head? h) with hmem | hmem
      · exact (IpAddress.denotes_toText e.address).notMem (by decide) (by decide) (by decide) hmem
      · rcases List.mem_cons.mp hmem with heq | hmem
        · cases heq
        · exact (Str.decimal_toDigits e.port.toNat).notMem (by decide) hmem
    have hrev : (e.address.toText ++ ':' :: Nat.toDigits 10 e.port.toNat).reverse =
        (Nat.toDigits 10 e.port.toNat).reverse ++ ':' :: e.address.toText.reverse := by
      simp
    rw [parts, if_neg hhead, hrev, Str.dropWhile_before hport, Str.takeWhile_before hport]
    simp only [List.reverse_reverse]
  next hv6 =>
    have hclose : ']' ∉ e.address.toText :=
      (IpAddress.denotes_toText e.address).notMem (by decide) (by decide) (by decide)
    rw [parts, if_pos List.head?_cons, List.drop_one, List.tail_cons, Str.dropWhile_before hclose,
      Str.takeWhile_before hclose]
    rfl

theorem parse_toText (h : e.port ≠ 0) : parse e.toText = .ok e := by
  have hne : e.toText.isEmpty = false := by
    unfold toText
    split <;> simp
  rw [parse, Str.trim_of_forall toText_not_isSpace]
  simp only [hne, Bool.false_eq_true, if_false]
  rw [parts_toText]
  simp only [bind, Except.bind, IpAddress.parse_toText, parsePort_toDigits h]
  rfl

end Endpoint

/-- Addresses and endpoints come back from their texts, and the text of an IPv6
address is the canonical one. -/
theorem address_text :
    (∀ a : IpAddress, IpAddress.parse a.toString.toList = .ok a) ∧
    (∀ a : IpAddress, a.family = .ipv6 →
      Canonical a.toString.toList (IpAddress.wordsOf a.bytes)) ∧
    (∀ a b : IpAddress, a.family = b.family → a.toString = b.toString → a = b) ∧
    ∀ e : Endpoint, e.port ≠ 0 → Endpoint.parse e.toString.toList = .ok e := by
  refine ⟨fun a => ?_, fun a hv6 => ?_, fun a b _ h => ?_, fun e h => ?_⟩
  · rw [IpAddress.toString, String.toList_ofList]
    exact IpAddress.parse_toText a
  · rw [IpAddress.toString, String.toList_ofList]
    exact IpAddress.canonical_toText hv6
  · have htext := congrArg String.toList h
    simp only [IpAddress.toString, String.toList_ofList] at htext
    exact IpAddress.toText_inj htext
  · rw [Endpoint.toString, String.toList_ofList]
    exact Endpoint.parse_toText h

end NovaVpn.Net
