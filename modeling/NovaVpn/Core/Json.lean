import Mathlib.Algebra.Group.Int.Defs
import Mathlib.Data.String.Basic
import NovaVpn.Core.Status
import NovaVpn.Core.Text

/-!
# JSON values

The values of the JSON library, and `Core/Json.cpp`. An object is a map from
keys to values, kept here as the list of its fields in the order of the keys;
`Json.Ordered` says that every object of a value is one, and `Doc` is a value
with that property. Finite floating-point numbers are rationals.

`json::merge` is characterised by what it does to each field
(`lookup_mergeFields`), and keeps the order (`Ordered.merge`).
-/

namespace NovaVpn

inductive Json where
  | null
  | bool (value : Bool)
  | int (value : Int)
  | float (value : Rat)
  | str (value : String)
  | arr (items : List Json)
  | obj (fields : List (String × Json))
  deriving Repr

namespace Json

/-- Induction over a value, with the hypothesis for the items of an array and
the values of an object. -/
@[elab_as_elim]
theorem ind {motive : Json → Prop} (null : motive .null) (bool : ∀ b, motive (.bool b))
    (int : ∀ n, motive (.int n)) (float : ∀ q, motive (.float q)) (str : ∀ s, motive (.str s))
    (arr : ∀ items, (∀ j ∈ items, motive j) → motive (.arr items))
    (obj : ∀ fs : List (String × Json), (∀ f ∈ fs, motive f.2) → motive (.obj fs)) (j : Json) :
    motive j :=
  @Json.rec motive (fun items => ∀ j ∈ items, motive j) (fun fs => ∀ f ∈ fs, motive f.2)
    (fun f => motive f.2)
    null bool int float str arr obj
    (fun _ h => absurd h List.not_mem_nil)
    (fun _ _ hj hs => List.forall_mem_cons.mpr ⟨hj, hs⟩)
    (fun _ h => absurd h List.not_mem_nil)
    (fun _ _ hf hs => List.forall_mem_cons.mpr ⟨hf, hs⟩)
    (fun _ _ h => h) j

def object : Json := .obj []

def isObject : Json → Bool
  | .obj _ => true
  | _ => false

/-- `empty()`. -/
def isEmpty : Json → Bool
  | .null => true
  | .arr items => items.isEmpty
  | .obj fields => fields.isEmpty
  | _ => false

/-- The fields of an object; other values have none. -/
def fields : Json → List (String × Json)
  | .obj fields => fields
  | _ => []

/-- The field of an object with this key. -/
def field (j : Json) (key : String) : Option Json := j.fields.lookup key

/-- `object[key] = value`. -/
def insertField (key : String) (value : Json) : List (String × Json) → List (String × Json)
  | [] => [(key, value)]
  | (k, v) :: rest =>
    if key < k then (key, value) :: (k, v) :: rest
    else if key = k then (key, value) :: rest
    else (k, v) :: insertField key value rest

/-! ## Numbers -/

/-- `n` over `2 ^ k`, rounded to the nearest, a tie to the even one. -/
def roundEven (n k : Nat) : Nat :=
  let q := n / 2 ^ k
  let r := n % 2 ^ k
  if 2 * r < 2 ^ k ∨ 2 * r = 2 ^ k ∧ q % 2 = 0 then q else q + 1

/-- An integer as a double. -/
def toDouble (n : Int) : Rat :=
  let k := n.natAbs.log2 - 52
  ((n.sign * (roundEven n.natAbs k * 2 ^ k : Nat) : Int) : Rat)

/-- A double without its fraction. -/
def truncate (q : Rat) : Int := q.num.tdiv q.den

/-- A number as an `int`: of an integer the low 32 bits, of a double its
integral part; a boolean counts as 0 or 1. -/
def asInt : Json → Option Int
  | .bool b => some (if b then 1 else 0)
  | .int n => some (BitVec.ofInt 32 n).toInt
  | .float q => some (BitVec.ofInt 32 (truncate q)).toInt
  | _ => none

/-- A number as an `i64`. -/
def asI64 : Json → Option Int
  | .int n => some (BitVec.ofInt 64 n).toInt
  | .float q => some (BitVec.ofInt 64 (truncate q)).toInt
  | _ => none

/-- A number as a `u64`. -/
def asU64 : Json → Option UInt64
  | .int n => some (UInt64.ofBitVec (BitVec.ofInt 64 n))
  | .float q => some (UInt64.ofBitVec (BitVec.ofInt 64 (truncate q)))
  | _ => none

/-- A number as a `u32`, of which a boolean counts as one too. -/
def asU32 : Json → Option UInt32
  | .bool b => some (if b then 1 else 0)
  | .int n => some (UInt32.ofBitVec (BitVec.ofInt 32 n))
  | .float q => some (UInt32.ofBitVec (BitVec.ofInt 32 (truncate q)))
  | _ => none

def asString : Json → Option String
  | .str s => some s
  | _ => none

def asBool : Json → Option Bool
  | .bool b => some b
  | _ => none

/-- An array of strings. -/
def asStrings : Json → Option (List String)
  | .arr items => items.mapM asString
  | _ => none

theorem asInt_int {n : Int} (h : -2 ^ 31 ≤ n ∧ n < 2 ^ 31) : asInt (.int n) = some n := by
  rw [asInt, BitVec.toInt_ofInt, Int.bmod_eq_of_le (by omega) (by omega)]

theorem asInt_number {n : Nat} (h : n < 2 ^ 31) : asInt (.int n) = some (n : Int) :=
  asInt_int (by omega)

theorem asI64_int {n : Int} (h : -2 ^ 63 ≤ n ∧ n < 2 ^ 63) : asI64 (.int n) = some n := by
  rw [asI64, BitVec.toInt_ofInt, Int.bmod_eq_of_le (by omega) (by omega)]

theorem asU64_number (n : UInt64) : asU64 (.int n.toNat) = some n := by
  rw [asU64, BitVec.ofInt_natCast]
  exact congrArg some (UInt64.ofNat_toNat)

theorem asU32_number (n : UInt32) : asU32 (.int n.toNat) = some n := by
  rw [asU32, BitVec.ofInt_natCast]
  exact congrArg some (UInt32.ofNat_toNat)

theorem asStrings_strings (texts : List String) :
    asStrings (.arr (texts.map .str)) = some texts := by
  rw [asStrings, List.mapM_map]
  exact (List.mapM_pure (f := id) (l := texts)).trans (congrArg some (List.map_id texts))

/-! ## Equality

The library compares two integers as 64-bit words, and an integer with a
double as doubles. -/

mutual

/-- `operator==`. -/
def equals (a b : Json) : Bool :=
  match a, b with
  | .null, .null => true
  | .bool a, .bool b => a == b
  | .int a, .int b => BitVec.ofInt 64 a == BitVec.ofInt 64 b
  | .int a, .float b => toDouble a == b
  | .float a, .int b => a == toDouble b
  | .float a, .float b => a == b
  | .str a, .str b => a == b
  | .arr as, .arr bs => equalItems as bs
  | .obj as, .obj bs => equalFields as bs
  | _, _ => false
termination_by structural a

def equalItems (as bs : List Json) : Bool :=
  match as, bs with
  | [], [] => true
  | a :: as, b :: bs => equals a b && equalItems as bs
  | _, _ => false
termination_by structural as

def equalFields (as bs : List (String × Json)) : Bool :=
  match as, bs with
  | [], [] => true
  | a :: as, b :: bs => equalField a b && equalFields as bs
  | _, _ => false
termination_by structural as

def equalField (a b : String × Json) : Bool :=
  match a, b with
  | (k, a), (l, b) => k == l && equals a b
termination_by structural a

end

/-! ## Pointers -/

/-- A reference token without its escapes; a `~` must stand before 0 or 1. -/
def unescape : List Char → Option (List Char)
  | [] => some []
  | '~' :: '0' :: cs => (unescape cs).map ('~' :: ·)
  | '~' :: '1' :: cs => (unescape cs).map ('/' :: ·)
  | '~' :: _ => none
  | c :: cs => (unescape cs).map (c :: ·)

/-- `json_pointer`, from its text: the reference tokens, or none if the
library throws. -/
def parsePointer (text : String) : Option (List String) :=
  match text.toList with
  | [] => some []
  | '/' :: cs => (cs.splitOn '/').mapM fun token => (unescape token).map String.ofList
  | _ => none

/-- The index a reference token is for an array: a decimal number without
leading zeros. -/
def arrayIndex (token : String) : Option Nat :=
  match token.toList with
  | ['0'] => some 0
  | '0' :: _ => none
  | [] => none
  | cs => Str.digits 10 Str.decimalDigit 0 cs

/-- What an evaluation that may throw comes to. -/
abbrev Throws := Except Unit

/-- The value a token stands for, if there is one. In an array the empty
token and an index beyond any size throw. -/
def child (token : String) : Json → Throws (Option Json)
  | .obj fields => .ok (fields.lookup token)
  | .arr items =>
    if token = "" then .error ()
    else
      match arrayIndex token with
      | some i => if i < 2 ^ 64 - 1 then .ok items[i]? else .error ()
      | none => .ok none
  | _ => .ok none

/-- The value a pointer stands for, if `contains` finds one. -/
def find : List String → Json → Throws (Option Json)
  | [], j => .ok (some j)
  | token :: tokens, j => do
    match ← child token j with
    | some c => find tokens c
    | none => .ok none

theorem find_cons (token : String) (tokens : List String) (j : Json) :
    find (token :: tokens) j =
      match child token j with
      | .ok (some c) => find tokens c
      | .ok none => .ok none
      | .error e => .error e := by
  rw [find]
  cases child token j with
  | error e => rfl
  | ok c => cases c <;> rfl

/-- `json::get`: the value at a pointer, converted; the fallback if there is
none, or it does not convert, or the library throws. -/
def get {α : Type} (root : Json) (pointer : String) (convert : Json → Option α) (fallback : α) : α :=
  match parsePointer pointer with
  | none => fallback
  | some tokens =>
    match find tokens root with
    | .ok (some j) => (convert j).getD fallback
    | _ => fallback

/-- What `get` reads under a key of an object. -/
theorem get_key {α : Type} {root : Json} (hobj : root.isObject = true) {pointer key : String}
    (hp : parsePointer pointer = some [key]) (convert : Json → Option α) (fallback : α) :
    root.get pointer convert fallback = ((root.field key).bind convert).getD fallback := by
  cases root with
  | obj fields =>
    simp only [get, hp, find_cons, child, field, Json.fields]
    cases fields.lookup key <;> rfl
  | _ => cases hobj

/-- The same one object further down. -/
theorem get_key_key {α : Type} {root sub : Json} {pointer key key' : String}
    (hp : parsePointer pointer = some [key, key']) (hsub : root.field key = some sub)
    (hobj : sub.isObject = true) (convert : Json → Option α) (fallback : α) :
    root.get pointer convert fallback = ((sub.field key').bind convert).getD fallback := by
  cases root with
  | obj fields =>
    cases sub with
    | obj fields' =>
      have hl : fields.lookup key = some (.obj fields') := hsub
      simp only [get, hp, find_cons, child, hl, field, Json.fields]
      cases fields'.lookup key' <;> rfl
    | _ => cases hobj
  | _ => cases hsub

/-- Nothing is read below a key that is not there. -/
theorem get_missing {α : Type} {root : Json} {key : String} (hobj : root.isObject = true)
    (hnone : root.field key = none) (pointer key' : String)
    (hp : parsePointer pointer = some [key, key']) (convert : Json → Option α) (fallback : α) :
    root.get pointer convert fallback = fallback := by
  cases root with
  | obj fields =>
    have hl : fields.lookup key = none := hnone
    simp only [get, hp, find_cons, child, hl]
  | _ => cases hobj

/-- A null becomes an array or an object when a token is looked up in it to
be assigned. -/
def container (token : String) : Json → Json
  | .null => if token.toList.all Char.isDigit || token == "-" then .arr [] else .obj []
  | j => j

/-- The index `operator[]` of an array takes a token for; `-` is the one
behind the last. -/
def placeIndex (items : List Json) (token : String) : Option Nat :=
  if token = "-" then some items.length else (arrayIndex token).filter (· < 2 ^ 64 - 1)

/-- `root[pointer] = value`: the document, and whether the library did not
throw. What the way to the pointer lacks is created, and stays if it throws
further on. -/
def place : List String → Json → Json → Json × Bool
  | [], value, _ => (value, true)
  | token :: tokens, value, root =>
    match root.container token with
    | .obj fields =>
      let (c, done) := place tokens value ((fields.lookup token).getD .null)
      (.obj (insertField token c fields), done)
    | .arr items =>
      match placeIndex items token with
      | some i =>
        let items := items ++ List.replicate (i + 1 - items.length) .null
        let (c, done) := place tokens value (items.getD i .null)
        (.arr (items.set i c), done)
      | none => (.arr items, false)
    | j => (j, false)

/-- `json::set`: the document and the status; `what` is the text of the
exception if the library throws one. -/
def set (root : Json) (pointer : String) (value : Json) (what : String) : Json × Status :=
  let failed : Status := ⟨.serializationError, "cannot set " ++ pointer ++ ": " ++ what, 0⟩
  match parsePointer pointer with
  | some tokens =>
    let (root, done) := place tokens value root
    (root, if done then .ok else failed)
  | none => (root, failed)

/-! ## Merging -/

mutual

/-- `json::merge`: objects merge field by field, every other overlay
replaces. -/
def merge (base overlay : Json) : Json :=
  match overlay with
  | .obj os =>
    match base with
    | .obj bs => .obj (mergeFields bs os)
    | _ => .obj os
  | other => other
termination_by structural overlay

/-- The loop over the fields of the overlay. -/
def mergeFields (base overlay : List (String × Json)) : List (String × Json) :=
  match overlay with
  | [] => base
  | f :: fs => mergeFields (mergeField base f) fs
termination_by structural overlay

def mergeField (base : List (String × Json)) (f : String × Json) : List (String × Json) :=
  match f with
  | (key, value) =>
    match base.lookup key with
    | some b => insertField key (merge b value) base
    | none => insertField key value base
termination_by structural f

end

/-- What merging makes of one field. -/
def mergedField (base : Option Json) (value : Json) : Json :=
  match base with
  | some b => merge b value
  | none => value

theorem lookup_insertField_self (key : String) (value : Json) (fs : List (String × Json)) :
    (insertField key value fs).lookup key = some value := by
  induction fs with
  | nil => simp [insertField]
  | cons f fs ih =>
    obtain ⟨k, v⟩ := f
    rw [insertField]
    split
    · simp
    · split
      · simp
      · rename_i hne
        rw [List.lookup_cons, beq_eq_false_iff_ne.mpr hne]
        exact ih

theorem lookup_insertField_ne {key k' : String} (h : k' ≠ key) (value : Json)
    (fs : List (String × Json)) : (insertField key value fs).lookup k' = fs.lookup k' := by
  have hkey : (k' == key) = false := beq_eq_false_iff_ne.mpr h
  induction fs with
  | nil => simp [insertField, List.lookup_cons, hkey]
  | cons f fs ih =>
    obtain ⟨k, v⟩ := f
    rw [insertField]
    split
    · rw [List.lookup_cons, hkey]
    · split
      · rename_i heq
        subst heq
        rw [List.lookup_cons, List.lookup_cons, hkey]
      · rw [List.lookup_cons, List.lookup_cons, ih]

theorem lookup_foldl_insertField (key : String) (fields init : List (String × Json)) :
    (fields.foldl (fun fs f => insertField f.1 f.2 fs) init).lookup key =
      (fields.reverse.lookup key).or (init.lookup key) := by
  induction fields generalizing init with
  | nil => rfl
  | cons f fields ih =>
    rw [List.foldl_cons, ih, List.reverse_cons, List.lookup_append, Option.or_assoc]
    congr 1
    by_cases hk : key = f.1
    · rw [hk, lookup_insertField_self, List.lookup_cons_self, Option.some_or]
    · rw [lookup_insertField_ne hk, List.lookup_cons, beq_eq_false_iff_ne.mpr hk]
      rfl

theorem mergeField_eq (base : List (String × Json)) (key : String) (value : Json) :
    mergeField base (key, value) = insertField key (mergedField (base.lookup key) value) base := by
  rw [mergeField]
  cases base.lookup key <;> rfl

/-- A key no field of the overlay has is left alone. -/
theorem lookup_mergeFields_of_notMem {key : String} {base overlay : List (String × Json)}
    (h : key ∉ overlay.map (·.1)) : (mergeFields base overlay).lookup key = base.lookup key := by
  induction overlay generalizing base with
  | nil => rw [mergeFields]
  | cons f fs ih =>
    obtain ⟨k, v⟩ := f
    rw [List.map_cons, List.mem_cons, not_or] at h
    rw [mergeFields, ih h.2, mergeField_eq, lookup_insertField_ne h.1]

/-- What merging does to each field, for an overlay with distinct keys. -/
theorem lookup_mergeFields {base overlay : List (String × Json)}
    (h : (overlay.map (·.1)).Nodup) (key : String) :
    (mergeFields base overlay).lookup key =
      match overlay.lookup key with
      | some value => some (mergedField (base.lookup key) value)
      | none => base.lookup key := by
  induction overlay generalizing base with
  | nil => rw [mergeFields]; rfl
  | cons f fs ih =>
    obtain ⟨k, v⟩ := f
    rw [List.map_cons, List.nodup_cons] at h
    rw [mergeFields, mergeField_eq, List.lookup_cons]
    by_cases hk : key = k
    · subst hk
      rw [lookup_mergeFields_of_notMem h.1, lookup_insertField_self, beq_self_eq_true]
    · rw [ih h.2, lookup_insertField_ne hk, beq_eq_false_iff_ne.mpr hk]

/-! ## Ordered values -/

/-- Every object has its fields in the order of their keys, each key once. -/
inductive Ordered : Json → Prop where
  | null : Ordered .null
  | bool (b : Bool) : Ordered (.bool b)
  | int (n : Int) : Ordered (.int n)
  | float (q : Rat) : Ordered (.float q)
  | str (s : String) : Ordered (.str s)
  | arr {items : List Json} (h : ∀ j ∈ items, Ordered j) : Ordered (.arr items)
  | obj {fs : List (String × Json)} (hkeys : fs.Pairwise (·.1 < ·.1))
      (hvalues : ∀ f ∈ fs, Ordered f.2) : Ordered (.obj fs)

/-- The same of a list of fields. -/
structure OrderedFields (fs : List (String × Json)) : Prop where
  keys : fs.Pairwise (·.1 < ·.1)
  values : ∀ f ∈ fs, Ordered f.2

theorem Ordered.fields {j : Json} (h : Ordered j) : OrderedFields j.fields := by
  cases h with
  | obj hkeys hvalues => exact ⟨hkeys, hvalues⟩
  | _ => exact ⟨List.Pairwise.nil, fun _ hf => absurd hf List.not_mem_nil⟩

theorem OrderedFields.nil : OrderedFields [] :=
  ⟨List.Pairwise.nil, fun _ h => absurd h List.not_mem_nil⟩

theorem OrderedFields.nodup {fs : List (String × Json)} (h : OrderedFields fs) :
    (fs.map (·.1)).Nodup :=
  List.pairwise_map.mpr (h.keys.imp fun hlt => ne_of_lt hlt)

theorem mem_insertField {key : String} {value : Json} {fs : List (String × Json)}
    {f : String × Json} (h : f ∈ insertField key value fs) : f = (key, value) ∨ f ∈ fs := by
  induction fs with
  | nil => exact .inl (List.mem_singleton.mp h)
  | cons g fs ih =>
    rw [insertField] at h
    split at h
    · exact List.mem_cons.mp h
    · split at h
      · rcases List.mem_cons.mp h with h | h
        · exact .inl h
        · exact .inr (List.mem_cons_of_mem _ h)
      · rcases List.mem_cons.mp h with h | h
        · exact .inr (h ▸ List.mem_cons_self)
        · rcases ih h with h | h
          · exact .inl h
          · exact .inr (List.mem_cons_of_mem _ h)

theorem OrderedFields.insertField {fs : List (String × Json)} (h : OrderedFields fs) (key : String)
    {value : Json} (hv : Ordered value) : OrderedFields (insertField key value fs) := by
  refine ⟨?_, fun f hf => ?_⟩
  · have hkeys := h.keys
    clear h
    induction fs with
    | nil => exact List.pairwise_singleton _ _
    | cons g fs ih =>
      obtain ⟨k, v⟩ := g
      rw [Json.insertField]
      rw [List.pairwise_cons] at hkeys
      split
      · rename_i hlt
        refine List.pairwise_cons.mpr ⟨fun f hf => ?_, List.pairwise_cons.mpr hkeys⟩
        rcases List.mem_cons.mp hf with rfl | hf
        · exact hlt
        · exact lt_trans hlt (hkeys.1 f hf)
      · split
        · rename_i heq
          subst heq
          exact List.pairwise_cons.mpr hkeys
        · rename_i hnlt hne
          refine List.pairwise_cons.mpr ⟨fun f hf => ?_, ih hkeys.2⟩
          rcases mem_insertField hf with rfl | hf
          · exact lt_of_le_of_ne (not_lt.mp hnlt) (Ne.symm hne)
          · exact hkeys.1 f hf
  · rcases mem_insertField hf with rfl | hf
    · exact hv
    · exact h.values f hf

theorem orderedFields_foldl {fields init : List (String × Json)} (hi : OrderedFields init)
    (h : ∀ f ∈ fields, Ordered f.2) :
    OrderedFields (fields.foldl (fun fs f => insertField f.1 f.2 fs) init) := by
  induction fields generalizing init with
  | nil => exact hi
  | cons f fields ih =>
    rw [List.forall_mem_cons] at h
    exact ih (hi.insertField f.1 h.1) h.2

theorem OrderedFields.lookup {fs : List (String × Json)} (h : OrderedFields fs) {key : String}
    {value : Json} (hl : fs.lookup key = some value) : Ordered value := by
  obtain ⟨l, k, r⟩ := List.lookup_eq_some_iff.mp hl
  exact h.values (key, value) (by simp [r])

mutual

theorem Ordered.merge (overlay : Json) {base : Json} (ho : Ordered overlay) (hb : Ordered base) :
    Ordered (Json.merge base overlay) := by
  match overlay with
  | .obj os =>
    cases hb with
    | obj hkeys hvalues =>
      have h := OrderedFields.mergeFields os ho.fields ⟨hkeys, hvalues⟩
      rw [Json.merge]
      exact .obj h.keys h.values
    | _ => exact ho
  | .null => exact ho
  | .bool _ => exact ho
  | .int _ => exact ho
  | .float _ => exact ho
  | .str _ => exact ho
  | .arr _ => exact ho
termination_by structural overlay

theorem OrderedFields.mergeFields (overlay : List (String × Json)) {base : List (String × Json)}
    (ho : OrderedFields overlay) (hb : OrderedFields base) :
    OrderedFields (Json.mergeFields base overlay) := by
  match overlay with
  | [] => exact hb
  | f :: fs =>
    rw [Json.mergeFields]
    have hf := OrderedFields.mergeField f (ho.values f List.mem_cons_self) hb
    exact OrderedFields.mergeFields fs
      ⟨ho.keys.tail, fun g hg => ho.values g (List.mem_cons_of_mem _ hg)⟩ hf
termination_by structural overlay

theorem OrderedFields.mergeField (f : String × Json) {base : List (String × Json)}
    (hf : Ordered f.2) (hb : OrderedFields base) : OrderedFields (Json.mergeField base f) := by
  match f with
  | (key, value) =>
    rw [mergeField_eq]
    refine hb.insertField key ?_
    cases hl : base.lookup key with
    | none => exact hf
    | some b => exact Ordered.merge value hf (hb.lookup hl)
termination_by structural f

end

theorem Ordered.container (token : String) {root : Json} (h : Ordered root) :
    Ordered (root.container token) := by
  cases root with
  | null =>
    rw [Json.container]
    split
    · exact .arr fun _ h => absurd h List.not_mem_nil
    · exact .obj List.Pairwise.nil fun _ h => absurd h List.not_mem_nil
  | _ => exact h

theorem Ordered.items {items : List Json} (h : Ordered (.arr items)) : ∀ j ∈ items, Ordered j := by
  cases h with
  | arr h => exact h

theorem ordered_lookup_getD {fs : List (String × Json)} (h : OrderedFields fs) (key : String) :
    Ordered ((fs.lookup key).getD .null) := by
  cases hl : fs.lookup key with
  | none => exact .null
  | some c => exact h.lookup hl

theorem Ordered.child {token : String} {j c : Json} (h : Ordered j)
    (hc : Json.child token j = .ok (some c)) : Ordered c := by
  cases j with
  | obj fs => exact h.fields.lookup (Except.ok.inj hc)
  | arr items =>
    rw [Json.child] at hc
    split at hc
    · cases hc
    · split at hc
      · split at hc
        · exact h.items c (List.mem_of_getElem? (Except.ok.inj hc))
        · cases hc
      · cases hc
  | _ => cases hc

theorem Ordered.find {tokens : List String} {j c : Json} (h : Ordered j)
    (hc : Json.find tokens j = .ok (some c)) : Ordered c := by
  induction tokens generalizing j with
  | nil =>
    cases hc
    exact h
  | cons token tokens ih =>
    rw [find_cons] at hc
    split at hc
    · next d hd => exact ih (h.child hd) hc
    · cases hc
    · cases hc

theorem Ordered.place (tokens : List String) {value root : Json} (hv : Ordered value)
    (hr : Ordered root) : Ordered (Json.place tokens value root).1 := by
  induction tokens generalizing root with
  | nil => exact hv
  | cons token tokens ih =>
    have hc := hr.container token
    rw [Json.place]
    split
    · next fields heq =>
      rw [heq] at hc
      have h := hc.fields.insertField token (ih (ordered_lookup_getD hc.fields token))
      exact .obj h.keys h.values
    · next items heq =>
      rw [heq] at hc
      split
      · next i _ =>
        have hpad : ∀ j ∈ items ++ List.replicate (i + 1 - items.length) Json.null, Ordered j := by
          intro j hj
          rcases List.mem_append.mp hj with hj | hj
          · exact hc.items j hj
          · rw [List.eq_of_mem_replicate hj]
            exact .null
        refine .arr fun j hj => ?_
        rcases List.mem_or_eq_of_mem_set hj with hj | hj
        · exact hpad j hj
        · rw [hj]
          refine ih ?_
          rw [List.getD_eq_getElem?_getD]
          cases hg : (items ++ List.replicate (i + 1 - items.length) Json.null)[i]? with
          | none => exact .null
          | some c => exact hpad c (List.mem_of_getElem? hg)
      · exact hc
    · exact hc

theorem Ordered.set {value root : Json} (hv : Ordered value) (hr : Ordered root)
    (pointer what : String) : Ordered (root.set pointer value what).1 := by
  unfold Json.set
  split
  · exact Ordered.place _ hv hr
  · exact hr

end Json

/-- A JSON value whose objects are maps: what the library builds. -/
structure Doc where
  value : Json
  ordered : value.Ordered

namespace Doc

def object : Doc := ⟨Json.object, .obj List.Pairwise.nil fun _ h => absurd h List.not_mem_nil⟩

def merge (base overlay : Doc) : Doc :=
  ⟨Json.merge base.value overlay.value, Json.Ordered.merge _ overlay.ordered base.ordered⟩

def field (d : Doc) (key : String) : Option Json := d.value.field key

/-- `root[pointer] = value`. -/
def place (tokens : List String) (value root : Doc) : Doc :=
  ⟨(Json.place tokens value.value root.value).1, .place tokens value.ordered root.ordered⟩

/-- `object[key] = value`. -/
def insert (d : Doc) (key : String) (v : Doc) : Doc where
  value := .obj (Json.insertField key v.value d.value.fields)
  ordered :=
    have h := d.ordered.fields.insertField key v.ordered
    .obj h.keys h.values

/-- An object from its fields, in any order. -/
def ofFields (fields : List (String × Doc)) : Doc :=
  fields.foldl (fun d f => d.insert f.1 f.2) .object

def bool (b : Bool) : Doc := ⟨.bool b, .bool b⟩

def int (n : Int) : Doc := ⟨.int n, .int n⟩

def str (s : String) : Doc := ⟨.str s, .str s⟩

/-- `Json::array()`. -/
def array : Doc := ⟨.arr [], .arr fun _ h => absurd h List.not_mem_nil⟩

/-- An array with its items. -/
def ofItems (items : List Doc) : Doc where
  value := .arr (items.map value)
  ordered := .arr fun _ h => by
    obtain ⟨d, -, rfl⟩ := List.mem_map.mp h
    exact d.ordered

theorem value_foldl_insert (fields : List (String × Doc)) (d : Doc) (hobj : d.value.isObject = true) :
    (fields.foldl (fun d f => d.insert f.1 f.2) d).value =
      .obj ((fields.map fun f => (f.1, f.2.value)).foldl (fun fs f => Json.insertField f.1 f.2 fs)
        d.value.fields) := by
  induction fields generalizing d with
  | nil =>
    obtain ⟨v, hv⟩ := d
    cases v with
    | obj fs => rfl
    | _ => cases hobj
  | cons f fields ih => exact ih (d.insert f.1 f.2) rfl

theorem isObject_ofFields (fields : List (String × Doc)) :
    (ofFields fields).value.isObject = true := by
  rw [ofFields, value_foldl_insert fields .object rfl]
  rfl

theorem lookup_map_value (fields : List (String × Doc)) (key : String) :
    (fields.map fun f => (f.1, f.2.value)).lookup key = (fields.lookup key).map value := by
  induction fields with
  | nil => rfl
  | cons f fields ih =>
    rw [List.map_cons, List.lookup_cons, List.lookup_cons, ih]
    cases key == f.1 <;> rfl

/-- The last of the values that a key is given. -/
theorem field_ofFields (fields : List (String × Doc)) (key : String) :
    (ofFields fields).field key = (fields.reverse.lookup key).map value := by
  show (ofFields fields).value.fields.lookup key = _
  rw [ofFields, value_foldl_insert fields .object rfl]
  show List.lookup key (List.foldl _ [] _) = _
  rw [Json.lookup_foldl_insertField, List.lookup_nil, Option.or_none, ← List.map_reverse,
    lookup_map_value]

/-- What `get` reads in an object. -/
theorem get_ofFields {α : Type} (fields : List (String × Doc)) (pointer key : String)
    (hp : Json.parsePointer pointer = some [key]) (convert : Json → Option α) (fallback : α) :
    (ofFields fields).value.get pointer convert fallback =
      ((fields.reverse.lookup key).bind fun d => convert d.value).getD fallback := by
  rw [Json.get_key (isObject_ofFields fields) hp]
  show Option.getD (((ofFields fields).field key).bind convert) fallback = _
  rw [field_ofFields, Option.bind_map]
  rfl

/-- The same in an object of the object. -/
theorem get_sub {α : Type} {d : Doc} {fields : List (String × Doc)} {key : String}
    (h : d.field key = some (ofFields fields).value) (pointer key' : String)
    (hp : Json.parsePointer pointer = some [key, key']) (convert : Json → Option α)
    (fallback : α) : d.value.get pointer convert fallback =
      ((fields.reverse.lookup key').bind fun d => convert d.value).getD fallback := by
  rw [Json.get_key_key hp h (isObject_ofFields fields)]
  show Option.getD (((ofFields fields).field key').bind convert) fallback = _
  rw [field_ofFields, Option.bind_map]
  rfl

end Doc

end NovaVpn
