import NovaVpn.Core.Status
import NovaVpn.Core.Text
import NovaVpn.Framework.Bits

/-!
# Addresses and address ranges

`Networking/IpAddress.cpp`: the address type with its two textual forms, and
the range type. An address holds the 4 or 16 bytes of its family; a range
holds a network address with its host bits cleared and a prefix length within
the family's width. Both facts are fields, since no other value of the two
classes can be made.

`contains` is characterised by the bits of the two addresses
(`IpRange.contains_iff`).
-/

namespace NovaVpn.Net

open NovaVpn.Framework

inductive AddressFamily where
  | ipv4
  | ipv6
  deriving DecidableEq, Repr

namespace AddressFamily

/-- The bytes of an address of this family. -/
def byteCount : AddressFamily → Nat
  | ipv4 => 4
  | ipv6 => 16

/-- `kV4Width`, `kV6Width`. -/
def width : AddressFamily → Nat
  | ipv4 => 32
  | ipv6 => 128

theorem width_eq (f : AddressFamily) : f.width = 8 * f.byteCount := by
  cases f <;> rfl

end AddressFamily

/-- An IPv4 or IPv6 address. -/
@[ext] structure IpAddress where
  family : AddressFamily
  bytes : List Byte
  length_bytes : bytes.length = family.byteCount
  deriving DecidableEq, Repr

namespace IpAddress

def fromV4 (a b c d : Byte) : IpAddress := ⟨.ipv4, [a, b, c, d], rfl⟩

def fromV6 (octets : Vector Byte 16) : IpAddress := ⟨.ipv6, octets.toList, by simp [AddressFamily.byteCount]⟩

def anyV4 : IpAddress := fromV4 0 0 0 0

def anyV6 : IpAddress := fromV6 (Vector.replicate 16 0)

def isV4 (a : IpAddress) : Bool := a.family = .ipv4

def isUnspecified (a : IpAddress) : Bool := a.bytes.all (· == 0)

/-- The IPv4 address that an address in `::ffff:0:0/96` stands for. -/
def normalized (a : IpAddress) : IpAddress :=
  if a.isV4 then a
  else if a.bytes.take 12 = [0, 0, 0, 0, 0, 0, 0, 0, 0, 0, 0xFF, 0xFF] then
    fromV4 (a.bytes.getD 12 0) (a.bytes.getD 13 0) (a.bytes.getD 14 0) (a.bytes.getD 15 0)
  else a

/-! ## Reading an address -/

/-- A decimal octet without sign, blank or leading zero. -/
def parseOctet (text : List Char) : Option Byte :=
  if text.isEmpty || text.length > 3 then none
  else if text.length > 1 && text.head? == some '0' then none
  else
    match Str.digits 10 Str.decimalDigit 0 text with
    | some value => if value > 255 then none else some (BitVec.ofNat 8 value)
    | none => none

/-- Four octets between three dots. -/
def parseV4 (text : List Char) : Option (Vector Byte 4) :=
  match text.splitOn '.' with
  | [a, b, c, d] => do
    let a ← parseOctet a
    let b ← parseOctet b
    let c ← parseOctet c
    let d ← parseOctet d
    return #v[a, b, c, d]
  | _ => none

def parseHextet (text : List Char) : Option (BitVec 16) :=
  if text.isEmpty || text.length > 4 then none
  else (Str.digits 16 Str.hexDigit 0 text).map (BitVec.ofNat 16)

/-- What `parseV6` has read: the groups before and after `::`. -/
structure V6State where
  head : List (BitVec 16) := []
  tail : List (BitVec 16) := []
  seenCompression : Bool := false
  inTail : Bool := false

/-- Appends groups to the part being read, at most eight of them. -/
def V6State.push (st : V6State) (groups : List (BitVec 16)) : Option V6State :=
  if st.inTail then
    if st.tail.length + groups.length > 8 then none
    else some { st with tail := st.tail ++ groups }
  else if st.head.length + groups.length > 8 then none
  else some { st with head := st.head ++ groups }

/-- The loop of `parseV6`, over the pieces between the colons. An empty piece
is the place of `::`; an IPv4 literal, which stands for two groups, must be
the last piece; and the text must not end in a single colon. -/
def parseV6Loop : V6State → List (List Char) → Option V6State
  | st, [] => some st
  | st, piece :: rest =>
    if '.' ∈ piece then
      (parseV4 piece).bind fun v4 =>
        (st.push [v4[0] ++ v4[1], v4[2] ++ v4[3]]).bind fun st =>
          if rest.isEmpty then some st else none
    else if piece.isEmpty then
      if st.seenCompression then none
      else
        -- nothing follows the second colon: the loop ends here
        if rest = [[]] then some { st with seenCompression := true, inTail := true }
        else parseV6Loop { st with seenCompression := true, inTail := true } rest
    else
      (parseHextet piece).bind fun value =>
        (st.push [value]).bind fun st =>
          -- a trailing single colon
          if rest = [[]] then none else parseV6Loop st rest

/-- The two bytes of a group. -/
def groupBytes (w : BitVec 16) : List Byte := [w.extractLsb' 8 8, w.extractLsb' 0 8]

/-- The sixteen bytes of the groups read: `::` stands for at least one group
of zeros, and without it there are eight groups. -/
def V6State.finish (st : V6State) : Option (List (BitVec 16)) :=
  if st.seenCompression then
    if st.head.length + st.tail.length ≥ 8 then none
    else some (st.head ++ List.replicate (8 - st.head.length - st.tail.length) 0 ++ st.tail)
  else if st.head.length ≠ 8 || st.tail.length ≠ 0 then none
  else some st.head

/-- RFC 4291 text. -/
def parseV6 (text : List Char) : Option (List (BitVec 16)) :=
  match text with
  | [] | [_] => none
  | ':' :: c :: rest =>
    if c ≠ ':' then none
    else if rest.isEmpty then some (List.replicate 8 0)
    else
      (parseV6Loop { seenCompression := true, inTail := true } (rest.splitOn ':')).bind
        V6State.finish
  | text => (parseV6Loop {} (text.splitOn ':')).bind V6State.finish

/-- The address of eight groups. -/
def ofGroups (words : List (BitVec 16)) : Option IpAddress :=
  if h : (words.flatMap groupBytes).length = 16 then some ⟨.ipv6, words.flatMap groupBytes, h⟩
  else none

def tryParse (text : List Char) : Option IpAddress :=
  let trimmed := Str.trim text
  if trimmed.isEmpty then none
  else if ':' ∈ trimmed then (parseV6 trimmed).bind ofGroups
  else (parseV4 trimmed).map fun v => fromV4 v[0] v[1] v[2] v[3]

def parse (text : List Char) : Result IpAddress :=
  match tryParse text with
  | some address => .ok address
  | none => .error (Err.invalidArgument ("not a valid IP address: " ++ String.ofList text))

/-! ## Writing an address -/

def formatV4 (bytes : List Byte) : List Char :=
  ['.'].intercalate (bytes.map fun b => Nat.toDigits 10 b.toNat)

/-- The eight groups of sixteen bytes. -/
def wordsOf : List Byte → List (BitVec 16)
  | a :: b :: rest => (a ++ b) :: wordsOf rest
  | _ => []

/-- The scan for the longest run of zero groups. -/
structure ZeroRun where
  bestStart : Nat := 8
  bestLength : Nat := 0
  runStart : Nat := 0
  runLength : Nat := 0

/-- One step of the scan, at group `i`. -/
def ZeroRun.visit (z : ZeroRun) (i : Nat) (word : BitVec 16) : ZeroRun :=
  if word = 0 then
    let runStart := if z.runLength = 0 then i else z.runStart
    let runLength := z.runLength + 1
    if runLength > z.bestLength then
      { bestStart := runStart, bestLength := runLength, runStart, runLength }
    else { z with runStart, runLength }
  else { z with runLength := 0 }

def ZeroRun.scan : Nat → ZeroRun → List (BitVec 16) → ZeroRun
  | _, z, [] => z
  | i, z, w :: ws => scan (i + 1) (z.visit i w) ws

/-- Where the run to compress starts and how long it is; a single group of
zeros is not compressed. -/
def longestRun (words : List (BitVec 16)) : Nat × Nat :=
  let z := ZeroRun.scan 0 {} words
  if z.bestLength < 2 then (8, 0) else (z.bestStart, z.bestLength)

/-- The writing loop: `skip` groups of the compressed run are still to be
passed over. -/
def emit (bestStart bestLength : Nat) : (i skip : Nat) → List Char → List (BitVec 16) → List Char
  | _, _, out, [] => out
  | i, skip + 1, out, _ :: ws => emit bestStart bestLength (i + 1) skip out ws
  | i, 0, out, w :: ws =>
    if i = bestStart then emit bestStart bestLength (i + 1) (bestLength - 1) (out ++ [':', ':']) ws
    else
      let out := if !out.isEmpty && out.getLast? != some ':' then out ++ [':'] else out
      emit bestStart bestLength (i + 1) 0 (out ++ Nat.toDigits 16 w.toNat) ws

/-- RFC 5952 text. -/
def formatV6 (bytes : List Byte) : List Char :=
  let words := wordsOf bytes
  let run := longestRun words
  let out := emit run.1 run.2 0 0 [] words
  if out.isEmpty then [':', ':'] else out

def toText (a : IpAddress) : List Char :=
  if a.isV4 then formatV4 a.bytes else formatV6 a.bytes

protected def toString (a : IpAddress) : String := String.ofList a.toText

example : (tryParse "2001:db8::1".toList).map IpAddress.toString = some "2001:db8::1" := by decide
example : (tryParse "::ffff:1.2.3.4".toList).map IpAddress.toString = some "::ffff:102:304" := by
  decide
example : tryParse "1::2::3".toList = none := by decide

end IpAddress

/-! ## Ranges -/

/-- The bytes with everything after the first `n` bits cleared. -/
def maskBytes : Nat → List Byte → List Byte
  | _, [] => []
  | n, b :: bs =>
    (if n = 0 then 0 else if n < 8 then b &&& leadingOnes 8 n else b) :: maskBytes (n - 8) bs

theorem length_maskBytes (n : Nat) (bs : List Byte) : (maskBytes n bs).length = bs.length := by
  induction bs generalizing n with
  | nil => rfl
  | cons b bs ih => simp [maskBytes, ih]

theorem maskBytes_maskBytes (n : Nat) (bs : List Byte) :
    maskBytes n (maskBytes n bs) = maskBytes n bs := by
  induction bs generalizing n with
  | nil => rfl
  | cons b bs ih =>
    simp only [maskBytes, ih, List.cons.injEq, and_true]
    split
    · rfl
    · split
      · rw [BitVec.and_assoc, BitVec.and_self]
      · rfl

/-- An address range: a network and a prefix length. -/
structure IpRange where
  network : IpAddress
  prefixLength : Nat
  prefix_le : prefixLength ≤ network.family.width
  masked : maskBytes prefixLength network.bytes = network.bytes
  deriving DecidableEq, Repr

namespace IpRange

def family (r : IpRange) : AddressFamily := r.network.family

/-- The range of the addresses that share the first `prefixLength` bits of
`address`. -/
def make (address : IpAddress) (prefixLength : UInt8) : Result IpRange :=
  if h : prefixLength.toNat ≤ address.family.width then
    .ok
      { network := ⟨address.family, maskBytes prefixLength.toNat address.bytes,
          by rw [length_maskBytes, address.length_bytes]⟩
        prefixLength := prefixLength.toNat
        prefix_le := h
        masked := maskBytes_maskBytes _ _ }
  else
    .error (Err.invalidArgument ("prefix length " ++ toString prefixLength.toNat ++
      " exceeds the address width"))

/-- `std::from_chars` over all of a text of at most three characters. -/
def parsePrefixLength (text : List Char) : Option Nat :=
  if text.isEmpty || text.length > 3 then none else Str.digits 10 Str.decimalDigit 0 text

/-- `a.b.c.d/n`, or an address alone for the range of that one address. The
number read is cut to a byte before it is checked against the width. -/
def parse (text : List Char) : Result IpRange :=
  let trimmed := Str.trim text
  if '/' ∈ trimmed then do
    let address ← IpAddress.parse (trimmed.takeWhile (· ≠ '/'))
    match parsePrefixLength ((trimmed.dropWhile (· ≠ '/')).drop 1) with
    | some n => make address (UInt8.ofNat n)
    | none => .error (Err.invalidArgument ("invalid prefix length in " ++ String.ofList text))
  else do
    let address ← IpAddress.parse trimmed
    make address (UInt8.ofNat address.family.width)

/-- The loop of `contains`: `remaining` bits are still to be compared. -/
def matchBytes : (remaining : Nat) → List Byte → List Byte → Bool
  | 0, _, _ => true
  | remaining, c :: cs, n :: ns =>
    if remaining ≥ 8 then
      if c ≠ n then false else matchBytes (remaining - 8) cs ns
    else c &&& leadingOnes 8 remaining == n &&& leadingOnes 8 remaining
  | _, _, _ => true

def contains (r : IpRange) (address : IpAddress) : Bool :=
  if address.family ≠ r.family then false
  else matchBytes r.prefixLength address.bytes r.network.bytes

protected def toString (r : IpRange) : String :=
  r.network.toString ++ "/" ++ toString r.prefixLength

theorem matchBytes_cons {n : Nat} (hn : 0 < n) (c m : Byte) (cs ns : List Byte) :
    matchBytes n (c :: cs) (m :: ns) =
      if n ≥ 8 then if c ≠ m then false else matchBytes (n - 8) cs ns
      else c &&& leadingOnes 8 n == m &&& leadingOnes 8 n := by
  obtain ⟨n, rfl⟩ := Nat.exists_eq_succ_of_ne_zero (Nat.pos_iff_ne_zero.mp hn)
  rfl

theorem matchBytes_iff (n : Nat) (cs ns : List Byte) (hl : cs.length = ns.length)
    (hn : n ≤ 8 * cs.length) : matchBytes n cs ns = true ↔ AgreeOn n cs ns := by
  induction cs generalizing n ns with
  | nil =>
    obtain rfl : n = 0 := by simpa using hn
    simp [matchBytes, AgreeOn]
  | cons c cs ih =>
    obtain ⟨m, ns, rfl⟩ := List.exists_cons_of_length_eq_add_one hl.symm
    rcases n.eq_zero_or_pos with rfl | hpos
    · simp [matchBytes, AgreeOn]
    rw [matchBytes_cons hpos]
    by_cases h8 : n ≥ 8
    · obtain ⟨k, rfl⟩ := Nat.exists_eq_add_of_le' h8
      have hk := ih k ns (by simpa using hl) (by simp only [List.length_cons] at hn; omega)
      rw [agreeOn_cons_add, ← hk]
      by_cases hc : c = m <;> simp [hc]
    · rw [agreeOn_cons_of_le (by omega), ← masked_eq_iff c m (by omega)]
      simp [h8]

/-- A range contains the addresses of its family that agree with its network
on the prefix. -/
theorem contains_iff (r : IpRange) (a : IpAddress) :
    r.contains a = true ↔ a.family = r.family ∧ AgreeOn r.prefixLength a.bytes r.network.bytes := by
  unfold contains
  by_cases hf : a.family = r.family
  · have hl : a.bytes.length = r.network.bytes.length := by
      rw [a.length_bytes, r.network.length_bytes, hf, family]
    have hn : r.prefixLength ≤ 8 * a.bytes.length := by
      rw [hl, r.network.length_bytes, ← AddressFamily.width_eq]
      exact r.prefix_le
    rw [if_neg (not_not_intro hf), matchBytes_iff _ _ _ hl hn]
    exact ⟨fun h => ⟨hf, h⟩, And.right⟩
  · simp [hf]

end IpRange

/-- An address and a port. -/
structure Endpoint where
  address : IpAddress
  port : UInt16
  deriving DecidableEq, Repr

/-! ## Host names -/

def isAlnum (c : Char) : Bool :=
  ('a' ≤ c && c ≤ 'z') || ('A' ≤ c && c ≤ 'Z') || ('0' ≤ c && c ≤ '9')

/-- The loop of `isValidHostName`: the last character it went past, and the
length of the label it is in. -/
def hostLabels : (last : Char) → (labelLength : Nat) → List Char → Bool
  | last, labelLength, [] => 0 < labelLength && last != '-'
  | last, labelLength, c :: cs =>
    if c = '.' then
      if labelLength = 0 then false
      else if last = '-' then false
      else hostLabels c 0 cs
    else if !isAlnum c && c ≠ '-' && c ≠ '_' then false
    else if labelLength = 0 && c = '-' then false
    else if labelLength + 1 > 63 then false
    else hostLabels c (labelLength + 1) cs

def isValidHostName (host : List Char) : Bool :=
  if host.isEmpty || host.length > 253 then false
  else if host.head? = some '.' || host.getLast? = some '.' then false
  else hostLabels '.' 0 host

end NovaVpn.Net
