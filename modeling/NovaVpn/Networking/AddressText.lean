import Mathlib.Data.List.Forall2
import NovaVpn.Core.Numerals
import NovaVpn.Networking.IpAddress

/-!
# The texts of addresses

What an address text is, apart from how it is read: a dotted quad (`DottedQuad`),
an RFC 4291 text (`V6Text`), and the address that each stands for (`Denotes`).
`tryParse` accepts the texts that denote an address, with white space around
them, and gives that address (`tryParse_iff`). The loop of `parseV6` goes along
the pieces between the colons, so the grammar is first turned into one of lists
of pieces (`PieceList`).
-/

namespace NovaVpn.Net

open NovaVpn.Framework

/-! ## The grammar -/

/-- A decimal octet without leading zeros. -/
structure Octet (text : List Char) (b : Byte) : Prop where
  numeral : Str.Numeral 10 Str.decimalDigit text b.toNat
  noLeadingZero : text.head? = some '0' → text = ['0']

inductive DottedQuad : List Char → Byte → Byte → Byte → Byte → Prop
  | mk {ta tb tc td : List Char} {a b c d : Byte} (ha : Octet ta a) (hb : Octet tb b)
      (hc : Octet tc c) (hd : Octet td d) :
      DottedQuad (ta ++ '.' :: (tb ++ '.' :: (tc ++ '.' :: td))) a b c d

/-- One to four hexadecimal digits. -/
structure Group (text : List Char) (w : BitVec 16) : Prop where
  numeral : Str.Numeral 16 Str.hexDigit text w.toNat
  length_le : text.length ≤ 4

/-- Groups separated by single colons. -/
inductive Groups : List Char → List (BitVec 16) → Prop
  | one {t : List Char} {w : BitVec 16} (h : Group t w) : Groups t [w]
  | cons {t rest : List Char} {w : BitVec 16} {ws : List (BitVec 16)} (h : Group t w)
      (hrest : Groups rest ws) : Groups (t ++ ':' :: rest) (w :: ws)

/-- Groups, the last two of which may be written as a dotted quad. -/
inductive GroupsOrQuad : List Char → List (BitVec 16) → Prop
  | one {t : List Char} {w : BitVec 16} (h : Group t w) : GroupsOrQuad t [w]
  | quad {t : List Char} {a b c d : Byte} (h : DottedQuad t a b c d) :
      GroupsOrQuad t [a ++ b, c ++ d]
  | cons {t rest : List Char} {w : BitVec 16} {ws : List (BitVec 16)} (h : Group t w)
      (hrest : GroupsOrQuad rest ws) : GroupsOrQuad (t ++ ':' :: rest) (w :: ws)

/-- RFC 4291 text: eight groups, or fewer around one `::` that stands for the
others, which are zeros. -/
inductive V6Text : List Char → List (BitVec 16) → Prop
  | full {text : List Char} {words : List (BitVec 16)} (h : GroupsOrQuad text words)
      (hlen : words.length = 8) : V6Text text words
  | compressed {left right : List Char} {head tail : List (BitVec 16)}
      (hleft : left = [] ∧ head = [] ∨ Groups left head)
      (hright : right = [] ∧ tail = [] ∨ GroupsOrQuad right tail)
      (hlen : head.length + tail.length < 8) :
      V6Text (left ++ ':' :: ':' :: right)
        (head ++ List.replicate (8 - head.length - tail.length) 0 ++ tail)

/-- The address that a text stands for. -/
inductive Denotes : List Char → IpAddress → Prop
  | v4 {text : List Char} {a b c d : Byte} (h : DottedQuad text a b c d) :
      Denotes text (IpAddress.fromV4 a b c d)
  | v6 {text : List Char} {words : List (BitVec 16)} (h : V6Text text words)
      (hlen : (words.flatMap IpAddress.groupBytes).length = 16) :
      Denotes text ⟨.ipv6, words.flatMap IpAddress.groupBytes, hlen⟩

/-! ## Characters -/

theorem Octet.notMem {text : List Char} {b : Byte} (h : Octet text b) {c : Char}
    (hc : Str.decimalDigit c = none) : c ∉ text := h.numeral.notMem hc

theorem Group.notMem {text : List Char} {w : BitVec 16} (h : Group text w) {c : Char}
    (hc : Str.hexDigit c = none) : c ∉ text := h.numeral.notMem hc

theorem Group.ne_nil {text : List Char} {w : BitVec 16} (h : Group text w) : text ≠ [] :=
  h.numeral.ne_nil

theorem DottedQuad.dot_mem {text : List Char} {a b c d : Byte} (h : DottedQuad text a b c d) :
    '.' ∈ text := by
  cases h
  simp

theorem DottedQuad.notMem {text : List Char} {a b c d : Byte} (h : DottedQuad text a b c d)
    {x : Char} (hx : Str.decimalDigit x = none) (hdot : x ≠ '.') : x ∉ text := by
  cases h with
  | mk ha hb hc hd =>
    simp [ha.notMem hx, hb.notMem hx, hc.notMem hx, hd.notMem hx, hdot]

theorem DottedQuad.ne_nil {text : List Char} {a b c d : Byte} (h : DottedQuad text a b c d) :
    text ≠ [] := List.ne_nil_of_mem h.dot_mem

/-! ## Octets and quads -/

theorem Octet.length_le {text : List Char} {b : Byte} (h : Octet text b) : text.length ≤ 3 := by
  have hb := b.isLt
  by_cases hzero : text.head? = some '0'
  · rw [h.noLeadingZero hzero]
    decide
  · have hle := h.numeral.pow_le fun c hc hd => hzero (by
      rw [Option.mem_def.mp hc, Str.eq_zero_of_decimalDigit hd])
    refine Nat.le_of_not_lt fun hlong => ?_
    have hpow : 10 ^ 3 ≤ 10 ^ (text.length - 1) := Nat.pow_le_pow_right (by decide) (by omega)
    omega

theorem parseOctet_iff {text : List Char} {b : Byte} :
    IpAddress.parseOctet text = some b ↔ Octet text b := by
  unfold IpAddress.parseOctet
  constructor
  · intro h
    split at h
    next => cases h
    next hlen =>
      split at h
      next => cases h
      next hzero =>
        split at h
        next value hvalue =>
          split at h
          next => cases h
          next hle =>
            cases h
            simp only [Bool.or_eq_true, List.isEmpty_iff, decide_eq_true_eq, not_or] at hlen
            have hto : (BitVec.ofNat 8 value).toNat = value := Nat.mod_eq_of_lt (by omega)
            refine ⟨hto.symm ▸ (Str.digits_eq_some_iff hlen.1).mp hvalue, fun hhead => ?_⟩
            obtain ⟨c, cs, rfl⟩ := List.exists_cons_of_ne_nil hlen.1
            cases hhead
            have hcs : cs = [] := by simpa using hzero
            rw [hcs]
        next => cases h
  · intro h
    have hlen := h.length_le
    have hb := b.isLt
    have hzero : ¬ (decide (text.length > 1) && text.head? == some '0') = true := by
      rw [Bool.and_eq_true, beq_iff_eq, decide_eq_true_eq]
      rintro ⟨hlong, hhead⟩
      rw [h.noLeadingZero hhead] at hlong
      exact absurd hlong (by decide)
    rw [if_neg (by simp [h.numeral.ne_nil, hlen]), if_neg hzero, h.numeral.digits_eq]
    simp only [if_neg (show ¬ b.toNat > 255 by omega), BitVec.ofNat_toNat, BitVec.setWidth_eq]

theorem dot_notDigit : Str.decimalDigit '.' = none := by decide

theorem splitOn_quad {ta tb tc td : List Char} {a b c d : Byte} (ha : Octet ta a)
    (hb : Octet tb b) (hc : Octet tc c) (hd : Octet td d) :
    (ta ++ '.' :: (tb ++ '.' :: (tc ++ '.' :: td))).splitOn '.' = [ta, tb, tc, td] := by
  rw [List.splitOn_append_cons_self_of_not_mem (ha.notMem dot_notDigit),
    List.splitOn_append_cons_self_of_not_mem (hb.notMem dot_notDigit),
    List.splitOn_append_cons_self_of_not_mem (hc.notMem dot_notDigit),
    List.splitOn_eq_singleton (hd.notMem dot_notDigit)]

theorem exists_octets (v : Vector Byte 4) : ∃ a b c d, v = #v[a, b, c, d] := by
  refine ⟨v[0], v[1], v[2], v[3], Vector.ext fun i hi => ?_⟩
  rcases (by omega : i = 0 ∨ i = 1 ∨ i = 2 ∨ i = 3) with rfl | rfl | rfl | rfl <;> rfl

theorem parseV4_iff {text : List Char} {a b c d : Byte} :
    IpAddress.parseV4 text = some #v[a, b, c, d] ↔ DottedQuad text a b c d := by
  unfold IpAddress.parseV4
  constructor
  · intro h
    split at h
    next ta tb tc td hsplit =>
      obtain ⟨a, ha, h⟩ := Option.bind_eq_some_iff.mp h
      obtain ⟨b, hb, h⟩ := Option.bind_eq_some_iff.mp h
      obtain ⟨c, hc, h⟩ := Option.bind_eq_some_iff.mp h
      obtain ⟨d, hd, h⟩ := Option.bind_eq_some_iff.mp h
      cases h
      have htext : ['.'].intercalate (text.splitOn '.') = text := List.intercalate_splitOn '.'
      have hjoin : ['.'].intercalate [ta, tb, tc, td] =
          ta ++ '.' :: (tb ++ '.' :: (tc ++ '.' :: td)) := by
        simp [List.intercalate]
      rw [hsplit, hjoin] at htext
      rw [← htext]
      exact .mk (parseOctet_iff.mp ha) (parseOctet_iff.mp hb) (parseOctet_iff.mp hc)
        (parseOctet_iff.mp hd)
    next => cases h
  · intro h
    cases h with
    | mk ha hb hc hd =>
      rw [splitOn_quad ha hb hc hd]
      simp only [parseOctet_iff.mpr ha, parseOctet_iff.mpr hb, parseOctet_iff.mpr hc,
        parseOctet_iff.mpr hd, Option.bind_eq_bind, Option.bind_some, Option.pure_def]

theorem parseHextet_iff {text : List Char} {w : BitVec 16} :
    IpAddress.parseHextet text = some w ↔ Group text w := by
  unfold IpAddress.parseHextet
  constructor
  · intro h
    split at h
    next => cases h
    next hlen =>
      simp only [Bool.or_eq_true, List.isEmpty_iff, decide_eq_true_eq, not_or] at hlen
      obtain ⟨value, hvalue, rfl⟩ := Option.map_eq_some_iff.mp h
      have hnumeral := (Str.digits_eq_some_iff hlen.1).mp hvalue
      have hshort : text.length ≤ 4 := Nat.le_of_not_lt hlen.2
      have hlt : value < 2 ^ 16 :=
        Nat.lt_of_lt_of_le (hnumeral.lt_pow fun c d => Str.hexDigit_lt)
          (Nat.pow_le_pow_right (by decide) hshort)
      have hto : (BitVec.ofNat 16 value).toNat = value := Nat.mod_eq_of_lt hlt
      refine ⟨?_, hshort⟩
      rwa [hto]
  · intro h
    rw [if_neg (by simp [h.ne_nil, h.length_le]), h.numeral.digits_eq]
    simp

/-! ## Pieces between colons -/

/-- `GroupsOrQuad`, of the pieces. -/
inductive PieceList : List (List Char) → List (BitVec 16) → Prop
  | one {p : List Char} {w : BitVec 16} (h : Group p w) : PieceList [p] [w]
  | quad {p : List Char} {a b c d : Byte} (h : DottedQuad p a b c d) :
      PieceList [p] [a ++ b, c ++ d]
  | cons {p : List Char} {ps : List (List Char)} {w : BitVec 16} {ws : List (BitVec 16)}
      (h : Group p w) (hrest : PieceList ps ws) : PieceList (p :: ps) (w :: ws)

theorem colon_notHex : Str.hexDigit ':' = none := by decide

theorem colon_notDigit : Str.decimalDigit ':' = none := by decide

theorem dot_notHex : Str.hexDigit '.' = none := by decide

theorem PieceList.ne_nil {ps : List (List Char)} {ws : List (BitVec 16)} (h : PieceList ps ws) :
    ps ≠ [] := by
  cases h <;> exact List.cons_ne_nil _ _

/-- No piece is empty. -/
theorem PieceList.nil_notMem {ps : List (List Char)} {ws : List (BitVec 16)}
    (h : PieceList ps ws) : [] ∉ ps := by
  induction h with
  | one h => simpa using h.ne_nil.symm
  | quad h => simpa using h.ne_nil.symm
  | cons h _ ih => simpa [ih] using h.ne_nil.symm

theorem GroupsOrQuad.pieces {text : List Char} {ws : List (BitVec 16)}
    (h : GroupsOrQuad text ws) : PieceList (text.splitOn ':') ws := by
  induction h with
  | one h =>
    rw [List.splitOn_eq_singleton (h.notMem colon_notHex)]
    exact .one h
  | quad h =>
    rw [List.splitOn_eq_singleton (h.notMem colon_notDigit (by decide))]
    exact .quad h
  | cons h _ ih =>
    rw [List.splitOn_append_cons_self_of_not_mem (h.notMem colon_notHex)]
    exact .cons h ih

theorem PieceList.text {ps : List (List Char)} {ws : List (BitVec 16)} (h : PieceList ps ws) :
    GroupsOrQuad ([':'].intercalate ps) ws := by
  induction h with
  | one h =>
    rw [List.intercalate_singleton]
    exact .one h
  | quad h =>
    rw [List.intercalate_singleton]
    exact .quad h
  | cons h hrest ih =>
    rw [List.intercalate_cons_of_ne_nil hrest.ne_nil, List.append_assoc]
    exact .cons h ih

theorem groupsOrQuad_iff {text : List Char} {ws : List (BitVec 16)} :
    GroupsOrQuad text ws ↔ PieceList (text.splitOn ':') ws := by
  refine ⟨GroupsOrQuad.pieces, fun h => ?_⟩
  have := h.text
  rwa [List.intercalate_splitOn] at this

theorem Groups.pieces {text : List Char} {ws : List (BitVec 16)} (h : Groups text ws) :
    List.Forall₂ Group (text.splitOn ':') ws := by
  induction h with
  | one h =>
    rw [List.splitOn_eq_singleton (h.notMem colon_notHex)]
    exact .cons h .nil
  | cons h _ ih =>
    rw [List.splitOn_append_cons_self_of_not_mem (h.notMem colon_notHex)]
    exact .cons h ih

theorem groups_of_pieces {ps : List (List Char)} {ws : List (BitVec 16)} (hne : ps ≠ [])
    (h : List.Forall₂ Group ps ws) : Groups ([':'].intercalate ps) ws := by
  induction h with
  | nil => exact absurd rfl hne
  | @cons p w ps ws h hrest ih =>
    by_cases hps : ps = []
    · subst hps
      cases hrest
      rw [List.intercalate_singleton]
      exact .one h
    · rw [List.intercalate_cons_of_ne_nil hps, List.append_assoc]
      exact .cons h (ih hps)

/-! ## The loop of `parseV6` -/

namespace IpAddress

variable {st st' : V6State} {piece : List Char} {pieces rest : List (List Char)}
  {ws groups : List (BitVec 16)}

theorem V6State.push_tail (hin : st.inTail = true) : st.push groups =
    if st.tail.length + groups.length > 8 then none
    else some { st with tail := st.tail ++ groups } := by
  rw [push, if_pos hin]

theorem V6State.push_head (hin : st.inTail = false) : st.push groups =
    if st.head.length + groups.length > 8 then none
    else some { st with head := st.head ++ groups } := by
  rw [push, if_neg (by rw [hin]; decide)]

/-- The loop at a group. -/
theorem parseV6Loop_group {w : BitVec 16} (h : Group piece w) :
    parseV6Loop st (piece :: rest) =
      (st.push [w]).bind fun st => if rest = [[]] then none else parseV6Loop st rest := by
  rw [parseV6Loop, if_neg (h.notMem dot_notHex), if_neg (by simp [h.ne_nil]),
    parseHextet_iff.mpr h, Option.bind_some]

/-- The loop at a dotted quad. -/
theorem parseV6Loop_quad {a b c d : Byte} (h : DottedQuad piece a b c d) :
    parseV6Loop st (piece :: rest) =
      (st.push [a ++ b, c ++ d]).bind fun st => if rest.isEmpty then some st else none := by
  rw [parseV6Loop, if_pos h.dot_mem, parseV4_iff.mpr h, Option.bind_some]
  rfl

/-- Any other piece but the empty one stops it. -/
theorem parseV6Loop_other (hne : piece ≠ []) (hgroup : ∀ w, ¬ Group piece w)
    (hquad : ∀ a b c d, ¬ DottedQuad piece a b c d) : parseV6Loop st (piece :: rest) = none := by
  rw [parseV6Loop]
  split
  next =>
    cases hv4 : parseV4 piece with
    | none => rfl
    | some v =>
      obtain ⟨a, b, c, d, rfl⟩ := exists_octets v
      exact absurd (parseV4_iff.mp hv4) (hquad _ _ _ _)
  next =>
    rw [if_neg (by simp [hne])]
    cases hw : parseHextet piece with
    | none => rfl
    | some w => exact absurd (parseHextet_iff.mp hw) (hgroup w)

/-- A piece is a group, a dotted quad, empty or none of these. -/
theorem piece_cases (piece : List Char) :
    (∃ w, Group piece w) ∨ (∃ a b c d, DottedQuad piece a b c d) ∨ piece = [] ∨
      (piece ≠ [] ∧ (∀ w, ¬ Group piece w) ∧ ∀ a b c d, ¬ DottedQuad piece a b c d) := by
  by_cases hgroup : ∃ w, Group piece w
  · exact Or.inl hgroup
  by_cases hquad : ∃ a b c d, DottedQuad piece a b c d
  · exact Or.inr (Or.inl hquad)
  by_cases hne : piece = []
  · exact Or.inr (Or.inr (Or.inl hne))
  refine Or.inr (Or.inr (Or.inr ⟨hne, fun w hw => hgroup ⟨w, hw⟩, fun a b c d h => ?_⟩))
  exact hquad ⟨a, b, c, d, h⟩

/-- A list that starts with a group is a piece list by the rest of it. -/
theorem pieceList_group {w : BitVec 16} (h : Group piece w) :
    PieceList (piece :: rest) ws ↔
      rest = [] ∧ ws = [w] ∨ ∃ ws', PieceList rest ws' ∧ ws = w :: ws' := by
  constructor
  · intro hlist
    cases hlist with
    | one h' =>
      exact Or.inl ⟨rfl, by rw [BitVec.eq_of_toNat_eq (h'.numeral.functional h.numeral)]⟩
    | quad h' => exact absurd h'.dot_mem (h.notMem dot_notHex)
    | cons h' hrest =>
      exact Or.inr ⟨_, hrest, by rw [BitVec.eq_of_toNat_eq (h'.numeral.functional h.numeral)]⟩
  · rintro (⟨rfl, rfl⟩ | ⟨ws', hrest, rfl⟩)
    · exact .one h
    · exact .cons h hrest

theorem pieceList_quad {a b c d : Byte} (h : DottedQuad piece a b c d) :
    PieceList (piece :: rest) ws ↔ rest = [] ∧ ws = [a ++ b, c ++ d] := by
  constructor
  · intro hlist
    cases hlist with
    | one h' => exact absurd h.dot_mem (h'.notMem dot_notHex)
    | quad h' =>
      have heq := (parseV4_iff.mpr h').symm.trans (parseV4_iff.mpr h)
      simp only [Option.some.injEq, Vector.mk.injEq, Array.mk.injEq, List.cons.injEq,
        and_true] at heq
      obtain ⟨rfl, rfl, rfl, rfl⟩ := heq
      exact ⟨rfl, rfl⟩
    | cons h' => exact absurd h.dot_mem (h'.notMem dot_notHex)
  · rintro ⟨rfl, rfl⟩
    exact .quad h

theorem not_pieceList_other (hgroup : ∀ w, ¬ Group piece w)
    (hquad : ∀ a b c d, ¬ DottedQuad piece a b c d) : ¬ PieceList (piece :: rest) ws := by
  intro hlist
  cases hlist with
  | one h => exact hgroup _ h
  | quad h => exact hquad _ _ _ _ h
  | cons h _ => exact hgroup _ h

theorem not_pieceList_nil : ¬ PieceList ([] :: rest) ws :=
  fun h => h.nil_notMem List.mem_cons_self

/-- The loop behind `::`. -/
theorem parseV6Loop_tail (hin : st.inTail = true) (hseen : st.seenCompression = true)
    (hne : pieces ≠ []) : parseV6Loop st pieces = some st' ↔
      ∃ ws, PieceList pieces ws ∧ st.tail.length + ws.length ≤ 8 ∧
        st' = { st with tail := st.tail ++ ws } := by
  induction pieces generalizing st with
  | nil => exact absurd rfl hne
  | cons piece rest ih =>
    rcases piece_cases piece with ⟨w, hw⟩ | ⟨a, b, c, d, hquad⟩ | rfl | ⟨hpiece, hgroup, hquad⟩
    · -- a group
      rw [parseV6Loop_group hw, V6State.push_tail hin]
      simp only [pieceList_group hw, List.length_singleton]
      by_cases hfull : st.tail.length + 1 > 8
      · rw [if_pos hfull]
        refine iff_of_false (by simp) ?_
        rintro ⟨ws, (⟨-, rfl⟩ | ⟨ws', -, rfl⟩), hle, -⟩
        · rw [List.length_singleton] at hle
          omega
        · rw [List.length_cons] at hle
          omega
      · rw [if_neg hfull, Option.bind_some]
        by_cases hrest : rest = []
        · subst hrest
          rw [if_neg (by simp), parseV6Loop]
          constructor
          · rintro h
            cases h
            exact ⟨[w], Or.inl ⟨rfl, rfl⟩, by simpa using hfull, rfl⟩
          · rintro ⟨ws, (⟨-, rfl⟩ | ⟨ws', hnil, -⟩), -, rfl⟩
            · rfl
            · exact absurd rfl hnil.ne_nil
        · split
          next hlast =>
            subst hlast
            refine iff_of_false (by simp) ?_
            rintro ⟨ws, (⟨hnil, -⟩ | ⟨ws', hnil, -⟩), -⟩
            · exact hrest hnil
            · exact not_pieceList_nil hnil
          next =>
            rw [ih (by exact hin) (by exact hseen) hrest]
            constructor
            · rintro ⟨ws, hlist, hle, rfl⟩
              refine ⟨w :: ws, Or.inr ⟨ws, hlist, rfl⟩, ?_, ?_⟩
              · rw [List.length_append, List.length_singleton] at hle
                rw [List.length_cons]
                omega
              · simp
            · rintro ⟨ws, (⟨hnil, -⟩ | ⟨ws', hlist, rfl⟩), hle, rfl⟩
              · exact absurd hnil hrest
              · refine ⟨ws', hlist, ?_, ?_⟩
                · rw [List.length_cons] at hle
                  rw [List.length_append, List.length_singleton]
                  omega
                · simp
    · -- a dotted quad, which is the last piece
      rw [parseV6Loop_quad hquad, V6State.push_tail hin]
      simp only [pieceList_quad hquad, List.length_cons, List.length_nil, List.isEmpty_iff]
      by_cases hfull : st.tail.length + (0 + 1 + 1) > 8
      · rw [if_pos hfull]
        refine iff_of_false (by simp) ?_
        rintro ⟨ws, ⟨-, rfl⟩, hle, -⟩
        simp only [List.length_cons, List.length_nil] at hle
        omega
      · rw [if_neg hfull, Option.bind_some]
        constructor
        · intro h
          split at h
          next hrest =>
            cases h
            exact ⟨_, ⟨hrest, rfl⟩, by simpa using hfull, rfl⟩
          next => cases h
        · rintro ⟨ws, ⟨hrest, rfl⟩, -, rfl⟩
          rw [if_pos hrest]
    · -- a second `::`
      rw [parseV6Loop, if_neg (by simp), if_pos (by simp), if_pos hseen]
      refine iff_of_false (by simp) ?_
      rintro ⟨ws, hlist, -⟩
      exact not_pieceList_nil hlist
    · rw [parseV6Loop_other hpiece hgroup hquad]
      refine iff_of_false (by simp) ?_
      rintro ⟨ws, hlist, -⟩
      exact not_pieceList_other hgroup hquad hlist

/-- What the loop accepts before it has seen `::`: a list without `::`, or the
groups of both sides. -/
inductive Accepted (st : V6State) : List (List Char) → V6State → Prop
  | plain {pieces : List (List Char)} {ws : List (BitVec 16)} (h : PieceList pieces ws)
      (hlen : st.head.length + ws.length ≤ 8) :
      Accepted st pieces { st with head := st.head ++ ws }
  | compressed {left right : List (List Char)} {head tail : List (BitVec 16)}
      (hleft : List.Forall₂ Group left head)
      (hright : right = [[]] ∧ tail = [] ∨ PieceList right tail)
      (hhead : st.head.length + head.length ≤ 8) (htail : tail.length ≤ 8) :
      Accepted st (left ++ [] :: right)
        { head := st.head ++ head, tail, seenCompression := true, inTail := true }

theorem Accepted.length_le (h : Accepted st pieces st') : st.head.length ≤ 8 := by
  cases h <;> omega

theorem not_accepted_end : ¬ Accepted st [] st' ∧ ¬ Accepted st [[]] st' := by
  constructor
  · intro h
    generalize hps : ([] : List (List Char)) = ps at h
    cases h with
    | plain h => exact h.ne_nil hps.symm
    | compressed => simp at hps
  · intro h
    generalize hps : [([] : List Char)] = ps at h
    cases h with
    | plain h => exact not_pieceList_nil (hps ▸ h)
    | @compressed left right _ _ _ hright =>
      have hright' : right = [] := by
        cases left with
        | nil => simpa using hps.symm
        | cons p left => simp at hps
      subst hright'
      rcases hright with ⟨h, -⟩ | h
      · cases h
      · exact h.ne_nil rfl

theorem accepted_group {w : BitVec 16} (hw : Group piece w) :
    Accepted st (piece :: rest) st' ↔
      rest = [] ∧ st.head.length + 1 ≤ 8 ∧ st' = { st with head := st.head ++ [w] } ∨
        Accepted { st with head := st.head ++ [w] } rest st' := by
  constructor
  · intro h
    generalize hps : piece :: rest = ps at h
    cases h with
    | @plain _ ws h hlen =>
      subst hps
      rcases (pieceList_group hw).mp h with ⟨hrest, rfl⟩ | ⟨ws', hlist, rfl⟩
      · exact Or.inl ⟨hrest, hlen, rfl⟩
      · rw [List.length_cons] at hlen
        have := @Accepted.plain { st with head := st.head ++ [w] } _ _ hlist
          (by rw [List.length_append, List.length_singleton]; omega)
        rw [List.append_assoc] at this
        exact Or.inr this
    | @compressed left right head tail hleft hright hhead htail =>
      cases hleft with
      | nil =>
        cases hps
        exact absurd rfl hw.ne_nil
      | @cons p w' left head hp hleft =>
        cases hps
        obtain rfl := BitVec.eq_of_toNat_eq (hp.numeral.functional hw.numeral)
        rw [List.length_cons] at hhead
        have := @Accepted.compressed { st with head := st.head ++ [w'] } _ _ _ _ hleft hright
          (by rw [List.length_append, List.length_singleton]; omega) htail
        rw [List.append_assoc] at this
        exact Or.inr this
  · rintro (⟨rfl, hlen, rfl⟩ | h)
    · exact .plain (.one hw) hlen
    · cases h with
      | plain h hlen =>
        simp only [List.length_append, List.length_singleton] at hlen
        have := @Accepted.plain st _ _ (.cons hw h) (by rw [List.length_cons]; omega)
        simpa using this
      | compressed hleft hright hhead htail =>
        simp only [List.length_append, List.length_singleton] at hhead
        have := @Accepted.compressed st _ _ _ _ (.cons hw hleft) hright
          (by rw [List.length_cons]; omega) htail
        simpa using this

theorem accepted_quad {a b c d : Byte} (hquad : DottedQuad piece a b c d) :
    Accepted st (piece :: rest) st' ↔ rest = [] ∧ st.head.length + 2 ≤ 8 ∧
      st' = { st with head := st.head ++ [a ++ b, c ++ d] } := by
  constructor
  · intro h
    generalize hps : piece :: rest = ps at h
    cases h with
    | plain h hlen =>
      subst hps
      obtain ⟨hrest, rfl⟩ := (pieceList_quad hquad).mp h
      exact ⟨hrest, hlen, rfl⟩
    | compressed hleft =>
      cases hleft with
      | nil =>
        cases hps
        exact absurd rfl hquad.ne_nil
      | cons hp _ =>
        cases hps
        exact absurd hquad.dot_mem (hp.notMem dot_notHex)
  · rintro ⟨rfl, hlen, rfl⟩
    exact .plain (.quad hquad) hlen

theorem accepted_nil : Accepted st ([] :: rest) st' ↔
    st.head.length ≤ 8 ∧ ∃ tail, (rest = [[]] ∧ tail = [] ∨ PieceList rest tail) ∧
      tail.length ≤ 8 ∧ st' = { head := st.head, tail, seenCompression := true, inTail := true } := by
  constructor
  · intro h
    refine ⟨h.length_le, ?_⟩
    generalize hps : ([] : List Char) :: rest = ps at h
    cases h with
    | plain h =>
      subst hps
      exact absurd h not_pieceList_nil
    | compressed hleft hright _ htail =>
      cases hleft with
      | nil =>
        cases hps
        exact ⟨_, hright, htail, by rw [List.append_nil]⟩
      | cons hp _ =>
        cases hps
        exact absurd rfl hp.ne_nil
  · rintro ⟨hlen, tail, hright, htail, rfl⟩
    have := @Accepted.compressed st _ _ _ _ .nil hright hlen htail
    rwa [List.append_nil] at this

theorem not_accepted_other (hne : piece ≠ []) (hgroup : ∀ w, ¬ Group piece w)
    (hquad : ∀ a b c d, ¬ DottedQuad piece a b c d) : ¬ Accepted st (piece :: rest) st' := by
  intro h
  generalize hps : piece :: rest = ps at h
  cases h with
  | plain h =>
    subst hps
    exact not_pieceList_other hgroup hquad h
  | compressed hleft =>
    cases hleft with
    | nil =>
      cases hps
      exact hne rfl
    | cons hp _ =>
      cases hps
      exact hgroup _ hp

/-- The loop before `::`. -/
theorem parseV6Loop_head (hin : st.inTail = false) (hseen : st.seenCompression = false)
    (htail : st.tail = []) (hne : pieces ≠ []) (hlast : pieces ≠ [[]]) (hst : st.head.length ≤ 8) :
    parseV6Loop st pieces = some st' ↔ Accepted st pieces st' := by
  induction pieces generalizing st with
  | nil => exact absurd rfl hne
  | cons piece rest ih =>
    rcases piece_cases piece with ⟨w, hw⟩ | ⟨a, b, c, d, hquad⟩ | rfl | ⟨hpiece, hgroup, hquad⟩
    · -- a group
      rw [parseV6Loop_group hw, V6State.push_head hin, List.length_singleton, accepted_group hw]
      by_cases hfull : st.head.length + 1 > 8
      · rw [if_pos hfull]
        refine iff_of_false (by simp) ?_
        rintro (⟨-, hlen, -⟩ | h)
        · omega
        · have := h.length_le
          simp only [List.length_append, List.length_singleton] at this
          omega
      · rw [if_neg hfull, Option.bind_some]
        by_cases hrest : rest = []
        · subst hrest
          rw [if_neg (by simp), parseV6Loop, or_iff_left not_accepted_end.1, Option.some.injEq]
          exact ⟨fun h => ⟨rfl, by omega, h.symm⟩, fun h => h.2.2.symm⟩
        · rw [or_iff_right fun h => hrest h.1]
          split
          next hnil =>
            subst hnil
            exact iff_of_false (by simp) not_accepted_end.2
          next hnil =>
            refine ih hin hseen htail hrest hnil ?_
            rw [List.length_append, List.length_singleton]
            omega
    · -- a dotted quad, which is the last piece
      rw [parseV6Loop_quad hquad, V6State.push_head hin, accepted_quad hquad]
      simp only [List.length_cons, List.length_nil, Nat.zero_add, List.isEmpty_iff]
      by_cases hfull : st.head.length + 2 > 8
      · rw [if_pos hfull]
        exact iff_of_false (by simp) fun h => by omega
      · rw [if_neg hfull, Option.bind_some]
        constructor
        · intro h
          split at h
          next hrest =>
            cases h
            exact ⟨hrest, by omega, rfl⟩
          next => cases h
        · rintro ⟨hrest, -, rfl⟩
          rw [if_pos hrest]
    · -- the empty piece is `::`
      rw [parseV6Loop, if_neg (by simp), if_pos (by simp), if_neg (by rw [hseen]; decide),
        accepted_nil, and_iff_right hst]
      split
      next hend =>
        rw [Option.some.injEq]
        constructor
        · rintro rfl
          exact ⟨[], Or.inl ⟨hend, rfl⟩, by simp, by rw [htail]⟩
        · rintro ⟨tail, (⟨-, rfl⟩ | hlist), -, rfl⟩
          · rw [htail]
          · rw [hend] at hlist
            exact absurd hlist not_pieceList_nil
      next hend =>
        have hrest : rest ≠ [] := fun h => hlast (by rw [h])
        rw [parseV6Loop_tail rfl rfl hrest, htail]
        constructor
        · rintro ⟨ws, hlist, hle, rfl⟩
          exact ⟨ws, Or.inr hlist, by simpa using hle, rfl⟩
        · rintro ⟨ws, (⟨h, -⟩ | hlist), hle, rfl⟩
          · exact absurd h hend
          · exact ⟨ws, hlist, by simpa using hle, rfl⟩
    · rw [parseV6Loop_other hpiece hgroup hquad]
      exact iff_of_false (by simp) (not_accepted_other hpiece hgroup hquad)

/-! ## Whole texts -/

variable {text : List Char} {words : List (BitVec 16)}

theorem finish_plain {head : List (BitVec 16)} :
    ({ head } : V6State).finish = some words ↔ head.length = 8 ∧ words = head := by
  simp only [V6State.finish, Bool.false_eq_true, if_false, List.length_nil]
  by_cases h : head.length = 8
  · simp [h, eq_comm]
  · simp [h]

theorem finish_compressed {head tail : List (BitVec 16)} {inTail : Bool} :
    ({ head, tail, seenCompression := true, inTail } : V6State).finish = some words ↔
      head.length + tail.length < 8 ∧
        words = head ++ List.replicate (8 - head.length - tail.length) 0 ++ tail := by
  simp only [V6State.finish, if_true]
  by_cases h : head.length + tail.length ≥ 8
  · rw [if_pos h]
    exact iff_of_false (by simp) fun hlt => by omega
  · rw [if_neg h, Option.some.injEq, and_iff_right (by omega), eq_comm]

theorem splitOn_colon (rest : List Char) : (':' :: rest).splitOn ':' = [] :: rest.splitOn ':' := by
  rw [List.splitOn_cons_eq_if_modifyHead]
  rfl

/-- Groups do not start with a colon. -/
theorem not_groups_colon {rest : List Char} : ¬ Groups (':' :: rest) ws := by
  intro h
  have := h.pieces
  rw [splitOn_colon] at this
  cases this with
  | cons hp _ => exact hp.ne_nil rfl

theorem not_groupsOrQuad_colon {rest : List Char} : ¬ GroupsOrQuad (':' :: rest) ws := by
  intro h
  have := h.pieces
  rw [splitOn_colon] at this
  exact not_pieceList_nil this

theorem toLength_le (h : GroupsOrQuad text ws) : ws.length ≤ text.length := by
  induction h with
  | one h => exact List.length_pos_iff.mpr h.ne_nil
  | quad h =>
    cases h
    simp only [List.length_append, List.length_cons, List.length_nil]
    omega
  | cons h _ ih =>
    simp only [List.length_append, List.length_cons]
    omega

theorem two_le_length (h : V6Text text words) : 2 ≤ text.length := by
  cases h with
  | full h hlen =>
    have := toLength_le h
    omega
  | compressed =>
    simp only [List.length_append, List.length_cons]
    omega

/-- A text that starts with a colon starts with `::`. -/
theorem v6Text_colon {c : Char} {rest : List Char} : V6Text (':' :: c :: rest) words ↔
    c = ':' ∧ ∃ tail, (rest = [] ∧ tail = [] ∨ GroupsOrQuad rest tail) ∧ tail.length < 8 ∧
      words = List.replicate (8 - tail.length) 0 ++ tail := by
  constructor
  · intro h
    generalize htext : ':' :: c :: rest = t at h
    cases h with
    | full h =>
      subst htext
      exact absurd h not_groupsOrQuad_colon
    | @compressed left right head tail hleft hright hlen =>
      rcases hleft with ⟨rfl, rfl⟩ | hleft
      · cases htext
        rw [List.length_nil, Nat.zero_add] at hlen
        exact ⟨rfl, tail, hright, hlen, rfl⟩
      · cases left with
        | nil =>
          have := hleft.pieces
          rw [List.splitOn_nil] at this
          cases this with
          | cons hp _ => exact absurd rfl hp.ne_nil
        | cons x left =>
          obtain ⟨rfl, -⟩ := List.cons_eq_cons.mp htext
          exact absurd hleft not_groups_colon
  · rintro ⟨rfl, tail, hright, hlen, rfl⟩
    exact @V6Text.compressed [] rest [] tail (Or.inl ⟨rfl, rfl⟩) hright
      (by rwa [List.length_nil, Nat.zero_add])

/-- Any other text is what the loop accepts and `finish` makes whole. -/
theorem v6Text_other (hne : text ≠ []) (hhead : text.head? ≠ some ':') : V6Text text words ↔
    ∃ st', Accepted {} (text.splitOn ':') st' ∧ st'.finish = some words := by
  constructor
  · intro h
    cases h with
    | full h hlen =>
      exact ⟨_, .plain h.pieces (by simp [hlen]), finish_plain.mpr ⟨hlen, rfl⟩⟩
    | @compressed left right head tail hleft hright hlen =>
      rcases hleft with ⟨rfl, rfl⟩ | hleft
      · exact absurd rfl hhead
      · have hsplit : (left ++ ':' :: ':' :: right).splitOn ':' =
            left.splitOn ':' ++ [] :: right.splitOn ':' := by
          rw [List.splitOn_append_cons_self, splitOn_colon]
        have hright' : right.splitOn ':' = [[]] ∧ tail = [] ∨ PieceList (right.splitOn ':') tail := by
          refine hright.imp (fun h => ?_) GroupsOrQuad.pieces
          rw [h.1]
          exact ⟨List.splitOn_nil _, h.2⟩
        rw [hsplit]
        exact ⟨_, .compressed hleft.pieces hright' (by simp; omega) (by omega),
          finish_compressed.mpr ⟨hlen, rfl⟩⟩
  · rintro ⟨st', h, hfinish⟩
    have htext : [':'].intercalate (text.splitOn ':') = text := List.intercalate_splitOn ':'
    generalize text.splitOn ':' = pieces at h htext
    cases h with
    | plain h =>
      obtain ⟨hlen, rfl⟩ := finish_plain.mp hfinish
      rw [← htext]
      exact .full h.text hlen
    | @compressed left right head tail hleft hright =>
      obtain ⟨hlen, rfl⟩ := finish_compressed.mp hfinish
      have hne' : right ≠ [] := by
        rcases hright with ⟨rfl, -⟩ | h
        · exact List.cons_ne_nil _ _
        · exact h.ne_nil
      have hleft' : left ≠ [] := by
        rintro rfl
        rw [List.nil_append, List.intercalate_cons_of_ne_nil hne'] at htext
        rw [← htext] at hhead
        exact hhead rfl
      have hjoin : [':'].intercalate (left ++ [] :: right) =
          [':'].intercalate left ++ ':' :: ':' :: [':'].intercalate right := by
        rw [Str.intercalate_append hleft' (List.cons_ne_nil _ _),
          List.intercalate_cons_of_ne_nil hne']
        simp
      have hright' : [':'].intercalate right = [] ∧ tail = [] ∨
          GroupsOrQuad ([':'].intercalate right) tail := by
        refine hright.imp (fun h => ?_) PieceList.text
        rw [h.1, List.intercalate_singleton]
        exact ⟨rfl, h.2⟩
      rw [← htext, hjoin]
      exact .compressed (Or.inr (groups_of_pieces hleft' hleft)) hright' hlen

theorem parseV6_iff : parseV6 text = some words ↔ V6Text text words := by
  unfold parseV6
  split
  next => exact iff_of_false (by simp) fun h => absurd (two_le_length h) (by decide)
  next => exact iff_of_false (by simp) fun h => absurd (two_le_length h) (by simp)
  next c rest =>
    rw [v6Text_colon]
    by_cases hc : c = ':'
    · rw [if_neg (not_not_intro hc), and_iff_right hc]
      split
      next hempty =>
        rw [List.isEmpty_iff.mp hempty, Option.some.injEq]
        constructor
        · rintro rfl
          exact ⟨[], Or.inl ⟨rfl, rfl⟩, by decide, rfl⟩
        · rintro ⟨tail, (⟨-, rfl⟩ | h), -, rfl⟩
          · rfl
          · have := h.pieces
            rw [List.splitOn_nil] at this
            exact absurd this not_pieceList_nil
      next hempty =>
        have hrest : rest ≠ [] := fun h => hempty (List.isEmpty_iff.mpr h)
        have hpieces : rest.splitOn ':' ≠ [] := List.splitOn_ne_nil _ _
        rw [Option.bind_eq_some_iff]
        constructor
        · rintro ⟨st', hloop, hfinish⟩
          obtain ⟨ws, hlist, -, rfl⟩ := (parseV6Loop_tail rfl rfl hpieces).mp hloop
          obtain ⟨hlen, rfl⟩ := finish_compressed.mp hfinish
          exact ⟨ws, Or.inr (groupsOrQuad_iff.mpr hlist), by simpa using hlen, by simp⟩
        · rintro ⟨ws, (⟨h, -⟩ | hlist), hlen, rfl⟩
          · exact absurd h hrest
          · refine ⟨{ tail := ws, seenCompression := true, inTail := true }, ?_, ?_⟩
            · rw [parseV6Loop_tail rfl rfl hpieces]
              exact ⟨ws, hlist.pieces, by simpa using Nat.le_of_lt hlen, rfl⟩
            · rw [finish_compressed]
              exact ⟨by simpa using hlen, by simp⟩
    · rw [if_pos hc]
      exact iff_of_false (by simp) fun h => hc h.1
  next hnil hone hcolon =>
    have hhead : text.head? ≠ some ':' := by
      rcases text with _ | ⟨x, _ | ⟨y, rest⟩⟩
      · simp
      · exact absurd rfl (hone x)
      · intro h
        cases h
        exact hcolon y rest rfl
    have hsplit : text.splitOn ':' ≠ [[]] := by
      intro h
      have htext : [':'].intercalate (text.splitOn ':') = text := List.intercalate_splitOn ':'
      rw [h] at htext
      exact hnil htext.symm
    rw [v6Text_other hnil hhead, Option.bind_eq_some_iff]
    refine exists_congr fun st' => and_congr_left fun _ => ?_
    exact @parseV6Loop_head {} st' (text.splitOn ':') rfl rfl rfl (List.splitOn_ne_nil _ _) hsplit
      (by decide)

/-- A text with a colon is not a dotted quad, and one without is not IPv6. -/
theorem colon_mem_of_v6Text (h : V6Text text words) : ':' ∈ text := by
  cases h with
  | full h hlen =>
    cases h with
    | one => cases hlen
    | quad => cases hlen
    | cons => simp
  | compressed => simp

theorem length_groupBytes (words : List (BitVec 16)) :
    (words.flatMap groupBytes).length = 2 * words.length := by
  induction words with
  | nil => rfl
  | cons w ws ih =>
    rw [List.flatMap_cons, List.length_append, ih, List.length_cons]
    show 2 + 2 * ws.length = _
    omega

theorem length_v6Text (h : V6Text text words) : words.length = 8 := by
  cases h with
  | full _ hlen => exact hlen
  | compressed _ _ hlen =>
    simp only [List.length_append, List.length_replicate]
    omega

/-- Reading a text gives the address that it denotes without the white space
around it, and fails if it denotes none. -/
theorem tryParse_iff (text : List Char) (a : IpAddress) :
    tryParse text = some a ↔ Denotes (Str.trim text) a := by
  simp only [tryParse]
  generalize Str.trim text = trimmed
  split
  next hempty =>
    rw [List.isEmpty_iff.mp hempty]
    refine iff_of_false (by simp) fun h => ?_
    cases h with
    | v4 h => exact h.ne_nil rfl
    | v6 h => exact absurd (colon_mem_of_v6Text h) List.not_mem_nil
  next =>
    split
    next hcolon =>
      constructor
      · intro h
        obtain ⟨words, hwords, haddress⟩ := Option.bind_eq_some_iff.mp h
        unfold ofGroups at haddress
        split at haddress
        next hlen =>
          cases haddress
          exact .v6 (parseV6_iff.mp hwords) hlen
        next => cases haddress
      · intro h
        cases h with
        | v4 h => exact absurd hcolon (h.notMem colon_notDigit (by decide))
        | v6 h hlen => rw [parseV6_iff.mpr h, Option.bind_some, ofGroups, dif_pos hlen]
    next hcolon =>
      constructor
      · intro h
        obtain ⟨v, hv, rfl⟩ := Option.map_eq_some_iff.mp h
        obtain ⟨a, b, c, d, rfl⟩ := exists_octets v
        exact .v4 (parseV4_iff.mp hv)
      · intro h
        cases h with
        | v4 h =>
          rw [parseV4_iff.mpr h]
          rfl
        | v6 h => exact absurd (colon_mem_of_v6Text h) hcolon

/-- Every dotted quad and every RFC 4291 text denotes an address. -/
theorem exists_denotes : (∃ a, Denotes text a) ↔
    (∃ a b c d, DottedQuad text a b c d) ∨ ∃ words, V6Text text words := by
  constructor
  · rintro ⟨a, h⟩
    cases h with
    | v4 h => exact Or.inl ⟨_, _, _, _, h⟩
    | v6 h => exact Or.inr ⟨_, h⟩
  · rintro (⟨a, b, c, d, h⟩ | ⟨words, h⟩)
    · exact ⟨_, .v4 h⟩
    · exact ⟨_, .v6 h (by rw [length_groupBytes, length_v6Text h])⟩

theorem tryParse_grammar (text : List Char) :
    ((tryParse text).isSome = true ↔
      (∃ a b c d, DottedQuad (Str.trim text) a b c d) ∨ ∃ words, V6Text (Str.trim text) words) ∧
    ∀ a, tryParse text = some a ↔ Denotes (Str.trim text) a := by
  refine ⟨?_, tryParse_iff text⟩
  rw [Option.isSome_iff_exists, ← exists_denotes]
  exact exists_congr (tryParse_iff text)

end IpAddress

end NovaVpn.Net
