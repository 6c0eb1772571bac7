import Mathlib.Init

/-!
# Text

What the program does to a `std::string` byte by byte. A text is the list of
its bytes, each written as the character of that code, so that nothing here
depends on how several bytes make one character.
-/

namespace NovaVpn.Str

/-- `str::isSpace`. -/
def isSpace (c : Char) : Bool :=
  c == ' ' || c == '\t' || c == '\r' || c == '\n' || c == '\x0b' || c == '\x0c'

/-- `str::trim`: the text without white space at either end. -/
def trim (text : List Char) : List Char :=
  ((text.dropWhile isSpace).reverse.dropWhile isSpace).reverse

/-- `str::trimRight`. -/
def trimRight (text : List Char) : List Char := (text.reverse.dropWhile isSpace).reverse

theorem dropWhile_isSpace {text : List Char} (h : ∀ c ∈ text.head?, isSpace c = false) :
    text.dropWhile isSpace = text := by
  cases text with
  | nil => rfl
  | cons c cs => rw [List.dropWhile_cons_of_neg (by simp [h c rfl])]

/-- A text that neither starts nor ends with white space. -/
theorem trim_eq_self {text : List Char} (hhead : ∀ c ∈ text.head?, isSpace c = false)
    (hlast : ∀ c ∈ text.getLast?, isSpace c = false) : trim text = text := by
  rw [trim, dropWhile_isSpace hhead, dropWhile_isSpace (by rwa [List.head?_reverse]),
    List.reverse_reverse]

theorem trim_of_forall {text : List Char} (h : ∀ c ∈ text, isSpace c = false) : trim text = text :=
  trim_eq_self (fun c hc => h c (List.mem_of_mem_head? hc))
    fun c hc => h c (List.mem_of_getLast? hc)

theorem mem_dropWhile_isSpace {c : Char} (hc : isSpace c = false) {text : List Char} :
    c ∈ text.dropWhile isSpace ↔ c ∈ text := by
  induction text with
  | nil => rfl
  | cons x xs ih =>
    rw [List.dropWhile_cons]
    split
    next hx =>
      have hne : c ≠ x := fun h => by rw [h, hx] at hc; cases hc
      rw [ih, List.mem_cons, or_iff_right hne]
    next => rfl

/-- Only white space is taken away. -/
theorem mem_trim {c : Char} (hc : isSpace c = false) {text : List Char} (h : c ∈ text) :
    c ∈ trim text := by
  rw [trim, List.mem_reverse, mem_dropWhile_isSpace hc, List.mem_reverse, mem_dropWhile_isSpace hc]
  exact h

/-- White space at the end of a text is taken away with the rest of it. -/
theorem trimRight_append {w : List Char} (hw : ∀ c ∈ w, isSpace c = true) (text : List Char) :
    trimRight (text ++ w) = trimRight text := by
  have hrev : ∀ c ∈ w.reverse, isSpace c = true := fun c hc => hw c (List.mem_reverse.mp hc)
  rw [trimRight, List.reverse_append, List.dropWhile_append_of_pos hrev, trimRight]

/-- A text that is not all white space stops the trimming. -/
theorem trimRight_append_of_ne {text : List Char} (h : trimRight text ≠ []) (front : List Char) :
    trimRight (front ++ text) = front ++ trimRight text := by
  have hne : ¬ (text.reverse.dropWhile isSpace).isEmpty = true := by
    intro hempty
    rw [trimRight, List.isEmpty_iff.mp hempty] at h
    exact h rfl
  rw [trimRight, List.reverse_append, List.dropWhile_append, if_neg hne, List.reverse_append,
    List.reverse_reverse, trimRight]

/-- What is taken away at the end is white space. -/
theorem exists_trimRight (text : List Char) :
    ∃ w, (∀ c ∈ w, isSpace c = true) ∧ text = trimRight text ++ w := by
  refine ⟨(text.reverse.takeWhile isSpace).reverse, fun c hc => ?_, ?_⟩
  · exact List.all_eq_true.mp (List.all_takeWhile (l := text.reverse)) c (List.mem_reverse.mp hc)
  · rw [trimRight, ← List.reverse_append, List.takeWhile_append_dropWhile, List.reverse_reverse]

theorem trimRight_trimRight (text : List Char) : trimRight (trimRight text) = trimRight text := by
  obtain ⟨w, hw, heq⟩ := exists_trimRight text
  conv => rhs; rw [heq]
  exact (trimRight_append hw _).symm

theorem trim_eq (text : List Char) : trim text = trimRight (text.dropWhile isSpace) := rfl

theorem trim_trimRight (text : List Char) : trim (trimRight text) = trim text := by
  obtain ⟨w, hw, heq⟩ := exists_trimRight text
  conv => rhs; rw [heq]
  rw [trim_eq, trim_eq, List.dropWhile_append]
  split
  next hempty =>
    have hnil := @List.dropWhile_append_of_pos _ isSpace w [] hw
    rw [List.append_nil] at hnil
    rw [List.isEmpty_iff.mp hempty, hnil]
    rfl
  next => exact (trimRight_append hw _).symm

theorem trimRight_of_forall {text : List Char} (h : ∀ c ∈ text, isSpace c = false) :
    trimRight text = text := by
  rw [trimRight, dropWhile_isSpace, List.reverse_reverse]
  exact fun c hc => h c (List.mem_reverse.mp (List.mem_of_mem_head? hc))

/-- The part of a text before the first of some character. -/
theorem takeWhile_before {c : Char} {xs : List Char} (h : c ∉ xs) (ys : List Char) :
    (xs ++ c :: ys).takeWhile (· ≠ c) = xs := by
  have hxs : ∀ x ∈ xs, decide (x ≠ c) = true := fun x hx =>
    decide_eq_true fun heq => h (heq ▸ hx)
  rw [List.takeWhile_append_of_pos hxs, List.takeWhile_cons_of_neg (by simp), List.append_nil]

theorem dropWhile_before {c : Char} {xs : List Char} (h : c ∉ xs) (ys : List Char) :
    (xs ++ c :: ys).dropWhile (· ≠ c) = c :: ys := by
  have hxs : ∀ x ∈ xs, decide (x ≠ c) = true := fun x hx =>
    decide_eq_true fun heq => h (heq ▸ hx)
  rw [List.dropWhile_append_of_pos hxs, List.dropWhile_cons_of_neg (by simp)]

/-- `str::toLower`, of ASCII letters only. -/
def toLower (text : List Char) : List Char := text.map Char.toLower

/-- Only a capital changes, and into a small letter. -/
theorem eq_of_toLower {c d : Char} (h : c.toLower = d) (hd : ¬ ('a' ≤ d ∧ d ≤ 'z')) : c = d := by
  unfold Char.toLower at h
  split at h
  next hrange =>
    have hval := congrArg (fun x : Char => x.val.toNat) h
    simp only [UInt32.toNat_add] at hval
    have h1 : 65 ≤ c.val.toNat := hrange.1
    have h2 : c.val.toNat ≤ 90 := hrange.2
    have h3 : ('a'.val - 'A'.val).toNat = 32 := by decide
    refine absurd ⟨?_, ?_⟩ hd
    · show 97 ≤ d.val.toNat
      omega
    · show d.val.toNat ≤ 122
      omega
  next => exact h

/-- `str::toUpper`. -/
def toUpper (text : List Char) : List Char := text.map Char.toUpper

/-- `str::equalsIgnoreCase`. -/
def equalsIgnoreCase (a b : List Char) : Bool := toLower a = toLower b

/-- `find` of the text `needle` succeeds. -/
def contains (needle : List Char) : List Char → Bool
  | [] => needle.isEmpty
  | c :: cs => needle.isPrefixOf (c :: cs) || contains needle cs

/-- `str::split` that keeps empty pieces. -/
def split (delimiter : Char) (text : List Char) : List (List Char) := text.splitOn delimiter

/-- No piece has the delimiter in it. -/
theorem notMem_of_mem_split {delimiter : Char} {text piece : List Char}
    (h : piece ∈ split delimiter text) : delimiter ∉ piece := by
  unfold split at h
  induction text generalizing piece with
  | nil =>
    rw [List.splitOn_nil, List.mem_singleton] at h
    simp [h]
  | cons c cs ih =>
    rw [List.splitOn_cons_eq_if_modifyHead] at h
    split at h
    · rcases List.mem_cons.mp h with rfl | h
      · exact List.not_mem_nil
      · exact ih h
    · rename_i hc
      cases hs : cs.splitOn delimiter with
      | nil => exact absurd hs (List.splitOn_ne_nil delimiter cs)
      | cons head tail =>
        rw [hs, List.modifyHead_cons] at h
        rcases List.mem_cons.mp h with rfl | h
        · have hhead := ih (hs ▸ List.mem_cons_self)
          simp only [List.mem_cons, not_or]
          exact ⟨fun e => hc (beq_iff_eq.mpr e.symm), hhead⟩
        · exact ih (hs ▸ List.mem_cons_of_mem _ h)

theorem split_intercalate {delimiter : Char} {pieces : List (List Char)}
    (h : ∀ piece ∈ pieces, delimiter ∉ piece) (hne : pieces ≠ []) :
    split delimiter ([delimiter].intercalate pieces) = pieces :=
  List.splitOn_intercalate delimiter h hne

theorem intercalate_append {delimiter : List Char} {xs ys : List (List Char)} (hxs : xs ≠ [])
    (hys : ys ≠ []) : delimiter.intercalate (xs ++ ys) =
      delimiter.intercalate xs ++ delimiter ++ delimiter.intercalate ys := by
  induction xs with
  | nil => exact absurd rfl hxs
  | cons x xs ih =>
    by_cases h : xs = []
    · rw [h, List.singleton_append, List.intercalate_cons_of_ne_nil hys,
        List.intercalate_singleton]
    · rw [List.cons_append, List.intercalate_cons_of_ne_nil (List.append_ne_nil_of_left_ne_nil h _),
        ih h, List.intercalate_cons_of_ne_nil h]
      simp only [List.append_assoc]

/-- The value of a decimal digit. -/
def decimalDigit (c : Char) : Option Nat :=
  if '0' ≤ c ∧ c ≤ '9' then some (c.toNat - '0'.toNat) else none

/-- The value of a hexadecimal digit of either case. -/
def hexDigit (c : Char) : Option Nat :=
  if '0' ≤ c ∧ c ≤ '9' then some (c.toNat - '0'.toNat)
  else if 'a' ≤ c ∧ c ≤ 'f' then some (c.toNat - 'a'.toNat + 10)
  else if 'A' ≤ c ∧ c ≤ 'F' then some (c.toNat - 'A'.toNat + 10)
  else none

/-- A number read digit by digit in base `base`, from the value `acc` of what
was read before; `none` at the first character that is not a digit. -/
def digits (base : Nat) (digit : Char → Option Nat) : Nat → List Char → Option Nat
  | acc, [] => some acc
  | acc, c :: cs => (digit c).bind fun d => digits base digit (acc * base + d) cs

/-- `std::strtoul` in base 10, with the 32 bits that an `unsigned long` has on
Windows: what comes after the digits is left, a number that is too large is the
largest there is, and one with a minus sign is negated. -/
def strtoul (text : List Char) : UInt32 :=
  let signed := text.dropWhile isSpace
  let digits := if signed.head? = some '-' ∨ signed.head? = some '+' then signed.tail else signed
  let value := (digits.takeWhile Char.isDigit).foldl (fun n c => n * 10 + (c.toNat - '0'.toNat)) 0
  if value > 0xFFFFFFFF then 0xFFFFFFFF
  else if signed.head? = some '-' then 0 - UInt32.ofNat value
  else UInt32.ofNat value

example : strtoul " 1194udp".toList = 1194 ∧ strtoul "-1".toList = 4294967295 := by
  decide +kernel

/-! ## Wildcards -/

/-- The loop of `globMatchImpl`, which keeps what it goes back to: the pattern
behind the last star, and the text from which it tries that next. -/
def globLoop : Nat → List Char → List Char → Option (List Char × List Char) → Option Bool
  | 0, _, _, _ => none
  | _ + 1, pattern, [], _ => some (pattern.all fun p => p == '*')
  | fuel + 1, pattern, c :: text, star =>
    if pattern.head?.any fun p => p == '?' || p.toLower == c.toLower then
      globLoop fuel pattern.tail text star
    else if pattern.head? = some '*' then
      globLoop fuel pattern.tail (c :: text) (some (pattern.tail, c :: text))
    else
      match star with
      | some (behind, _ :: rest) => globLoop fuel behind rest (some (behind, rest))
      | _ => some false

/-- `str::globMatch`. -/
def globMatch (pattern text : List Char) : Bool :=
  (globLoop ((text.length + 2) * (pattern.length + text.length + 1)) pattern text none).getD false

/-- What the loop has before it, at most: `bound` rounds for each place of the
text that it can still go back to. -/
def globWeight (bound : Nat) (pattern text : List Char) : Option (List Char × List Char) → Nat
  | none => (text.length + 1) * bound + (pattern.length + text.length)
  | some (_, place) => place.length * bound + (pattern.length + text.length)

theorem globLoop_isSome (bound : Nat) {fuel : Nat} {pattern text : List Char}
    {star : Option (List Char × List Char)} (hfuel : globWeight bound pattern text star < fuel)
    (hbound : pattern.length + text.length < bound)
    (hstar : ∀ s ∈ star, s.1.length + s.2.length < bound ∧ text.length ≤ s.2.length) :
    (globLoop fuel pattern text star).isSome := by
  induction fuel generalizing pattern text star with
  | zero => omega
  | succ fuel ih =>
    cases text with
    | nil => rfl
    | cons c text =>
      have htail : pattern.tail.length ≤ pattern.length := by
        rw [List.length_tail]
        omega
      rw [List.length_cons] at hbound
      simp only [globLoop]
      split
      next =>
        -- one character of both
        refine ih ?_ (by omega) fun s hs => ?_
        · cases star with
          | none =>
            simp only [globWeight, List.length_cons, Nat.succ_mul] at hfuel ⊢
            omega
          | some s =>
            simp only [globWeight, List.length_cons] at hfuel ⊢
            omega
        · obtain ⟨hbehind, hplace⟩ := hstar s hs
          rw [List.length_cons] at hplace
          exact ⟨hbehind, by omega⟩
      next =>
        split
        next hhead =>
          -- a star, and the pattern is shorter
          have hshorter : pattern.tail.length + 1 = pattern.length := by
            cases pattern with
            | nil => cases hhead
            | cons p ps => rfl
          refine ih ?_ (by rw [List.length_cons]; omega) fun s hs => ?_
          · cases star with
            | none =>
              simp only [globWeight, List.length_cons, Nat.succ_mul] at hfuel ⊢
              omega
            | some s =>
              have hle := Nat.mul_le_mul_right bound (hstar s rfl).2
              simp only [globWeight, List.length_cons] at hfuel hle ⊢
              omega
          · cases hs
            simp only [List.length_cons]
            exact ⟨by omega, Nat.le_refl _⟩
        next =>
          split
          next behind first rest =>
            -- one place further on
            have hback := (hstar (behind, first :: rest) rfl).1
            simp only [List.length_cons] at hback
            refine ih ?_ (by omega) fun s hs => ?_
            · simp only [globWeight, List.length_cons, Nat.succ_mul] at hfuel ⊢
              omega
            · cases hs
              exact ⟨by simp only; omega, Nat.le_refl _⟩
          next => rfl

/-- The loop of `globMatch` comes to its end. -/
theorem globMatch_isSome (pattern text : List Char) :
    (globLoop ((text.length + 2) * (pattern.length + text.length + 1)) pattern text none).isSome := by
  refine globLoop_isSome (pattern.length + text.length + 1) ?_ (by omega) fun s hs => by cases hs
  simp only [globWeight, Nat.succ_mul]
  omega

example : globMatch "C:\\Program Files\\*\\chrome.exe".toList
    "c:\\program files\\google\\Chrome.exe".toList = true ∧
    globMatch "*.exe".toList "a.exe.txt".toList = false := by
  decide +kernel

end NovaVpn.Str
