import NovaVpn.Profiles.RowsEncode

/-!
# Listing profiles

`list` of `Profiles/SqliteProfileStore.cpp`: every row is read, without its
source, a row that cannot be read is skipped, and what passes the filters is
sorted and cut. SQLite gives the rows in any order and `std::sort` leaves open
the order of what the comparison does not tell apart, so that `Lists` is a
relation.

`lists_iff_tables`: what is listed are the profiles that meet the query, each
once, in the order it asks for.
-/

namespace NovaVpn.Profiles

inductive SortOrder where
  | nameAscending
  | recentlyUsed
  | mostUsed
  | countryThenName
  deriving DecidableEq, Repr

structure ProfileQuery where
  search : String := ""
  tags : List String := []
  favoritesOnly : Option Bool := none
  sort : SortOrder := .nameAscending
  /-- 0 for no limit. -/
  limit : Nat := 0

/-! ## The filters -/

def matchesSearch (p : Profile) (needle : String) : Bool :=
  if needle.isEmpty then true
  else
    let lowered := Str.toLower needle.toList
    let has (field : String) := Str.contains lowered (Str.toLower field.toList)
    if has p.name || has p.metadata.country || has p.metadata.city then true
    else p.metadata.tags.any has

def passesFilter (p : Profile) (query : ProfileQuery) : Bool :=
  if query.favoritesOnly.any (· ≠ p.metadata.favorite) then false
  else if !matchesSearch p query.search then false
  else query.tags.all fun required => required ∈ p.metadata.tags

/-- The texts that are searched. -/
def Profile.searched (p : Profile) : List String :=
  p.name :: p.metadata.country :: p.metadata.city :: p.metadata.tags

/-- What a query asks of a profile. -/
structure Meets (query : ProfileQuery) (p : Profile) : Prop where
  favorite : ∀ wanted, query.favoritesOnly = some wanted → p.metadata.favorite = wanted
  search : query.search ≠ "" →
    ∃ field ∈ p.searched, Str.toLower query.search.toList <:+: Str.toLower field.toList
  tags : ∀ tag ∈ query.tags, tag ∈ p.metadata.tags

theorem contains_iff {needle text : List Char} : Str.contains needle text = true ↔ needle <:+: text := by
  induction text with
  | nil => rw [Str.contains, List.isEmpty_iff, List.infix_nil]
  | cons c cs ih =>
    rw [Str.contains, Bool.or_eq_true, ih, List.isPrefixOf_iff_prefix, List.infix_cons_iff]

theorem matchesSearch_iff {p : Profile} {needle : String} : matchesSearch p needle = true ↔
    (needle ≠ "" →
      ∃ field ∈ p.searched, Str.toLower needle.toList <:+: Str.toLower field.toList) := by
  simp only [matchesSearch]
  split
  next hempty =>
    rw [String.isEmpty_iff] at hempty
    exact iff_of_true rfl fun hne => absurd hempty hne
  next hempty =>
    rw [String.isEmpty_iff] at hempty
    rw [forall_prop_of_true hempty]
    simp only [Profile.searched, List.exists_mem_cons_iff, ← contains_iff]
    split
    next hhas =>
      rw [Bool.or_eq_true, Bool.or_eq_true, or_assoc] at hhas
      exact iff_of_true rfl (hhas.imp_right fun h => h.imp_right .inl)
    next hhas =>
      rw [Bool.or_eq_true, Bool.or_eq_true, not_or, not_or] at hhas
      obtain ⟨⟨hname, hcountry⟩, hcity⟩ := hhas
      rw [List.any_eq_true, or_iff_right hname, or_iff_right hcountry, or_iff_right hcity]

theorem passesFilter_iff {p : Profile} {query : ProfileQuery} :
    passesFilter p query = true ↔ Meets query p := by
  have hfavorite : query.favoritesOnly.any (· ≠ p.metadata.favorite) = true ↔
      ¬ ∀ wanted, query.favoritesOnly = some wanted → p.metadata.favorite = wanted := by
    cases query.favoritesOnly with
    | none => simp
    | some wanted =>
      simp only [Option.any_some, decide_eq_true_eq, Option.some.injEq, forall_eq']
      exact ne_comm
  have htags : (query.tags.all fun required => required ∈ p.metadata.tags) = true ↔
      ∀ tag ∈ query.tags, tag ∈ p.metadata.tags := by
    simp only [List.all_eq_true, decide_eq_true_eq]
  unfold passesFilter
  split
  next hother =>
    exact iff_of_false Bool.false_ne_true fun h => hfavorite.mp hother h.favorite
  next hsame =>
    rw [hfavorite, not_not] at hsame
    split
    next hmiss =>
      rw [Bool.not_eq_true', Bool.eq_false_iff, ne_eq, matchesSearch_iff] at hmiss
      exact iff_of_false Bool.false_ne_true fun h => hmiss h.search
    next hfound =>
      rw [Bool.not_eq_true', Bool.not_eq_false, matchesSearch_iff] at hfound
      exact htags.trans ⟨fun h => ⟨hsame, hfound, h⟩, fun h => h.tags⟩

/-! ## The order -/

/-- A name in lower case. -/
def Profile.lowerName (p : Profile) : String := String.ofList (Str.toLower p.name.toList)

/-- The comparisons of `sortProfiles`. -/
def precedes (order : SortOrder) (a b : Profile) : Bool :=
  match order with
  | .nameAscending => a.lowerName < b.lowerName
  | .recentlyUsed => a.metadata.lastConnectedAt > b.metadata.lastConnectedAt
  | .mostUsed => a.metadata.connectCount > b.metadata.connectCount
  | .countryThenName =>
    if a.metadata.country ≠ b.metadata.country then a.metadata.country < b.metadata.country
    else a.lowerName < b.lowerName

/-- `a` may stand before `b`. -/
def InOrder (order : SortOrder) (a b : Profile) : Prop :=
  match order with
  | .nameAscending => a.lowerName ≤ b.lowerName
  | .recentlyUsed => b.metadata.lastConnectedAt ≤ a.metadata.lastConnectedAt
  | .mostUsed => b.metadata.connectCount ≤ a.metadata.connectCount
  | .countryThenName => a.metadata.country < b.metadata.country ∨
      a.metadata.country = b.metadata.country ∧ a.lowerName ≤ b.lowerName

theorem precedes_eq_false {order : SortOrder} {a b : Profile} :
    precedes order b a = false ↔ InOrder order a b := by
  cases order with
  | nameAscending =>
    show decide (b.lowerName < a.lowerName) = false ↔ a.lowerName ≤ b.lowerName
    rw [decide_eq_false_iff_not, not_lt]
  | recentlyUsed =>
    show decide (b.metadata.lastConnectedAt > a.metadata.lastConnectedAt) = false ↔
      b.metadata.lastConnectedAt ≤ a.metadata.lastConnectedAt
    rw [decide_eq_false_iff_not, gt_iff_lt, not_lt]
  | mostUsed =>
    show decide (b.metadata.connectCount > a.metadata.connectCount) = false ↔
      b.metadata.connectCount ≤ a.metadata.connectCount
    rw [decide_eq_false_iff_not, gt_iff_lt, UInt64.not_lt]
  | countryThenName =>
    show (if b.metadata.country ≠ a.metadata.country then
        decide (b.metadata.country < a.metadata.country)
      else decide (b.lowerName < a.lowerName)) = false ↔
      a.metadata.country < b.metadata.country ∨
        a.metadata.country = b.metadata.country ∧ a.lowerName ≤ b.lowerName
    split
    next hne =>
      rw [decide_eq_false_iff_not, not_lt]
      refine ⟨fun hle => .inl (lt_of_le_of_ne hle (Ne.symm hne)), ?_⟩
      rintro (hlt | ⟨heq, -⟩)
      · exact hlt.le
      · exact heq.le
    next heq =>
      rw [ne_eq, not_not] at heq
      rw [decide_eq_false_iff_not, not_lt]
      refine ⟨fun hle => .inr ⟨heq.symm, hle⟩, ?_⟩
      rintro (hlt | ⟨-, hle⟩)
      · exact absurd heq.symm hlt.ne
      · exact hle

/-! ## The list -/

/-- `std::sort`, which may leave what `lt` does not tell apart in any order. -/
def StdSort {α : Type} (lt : α → α → Bool) (xs sorted : List α) : Prop :=
  sorted.Perm xs ∧ sorted.Pairwise fun a b => lt b a = false

/-- The limit of a query. -/
def cut {α : Type} (limit : Nat) (xs : List α) : List α :=
  if limit ≠ 0 ∧ xs.length > limit then xs.take limit else xs

variable {c : Codecs} {r : Rows} {t : Tables} {query : ProfileQuery}

/-- The profile of a row, if it can be read. -/
def readRow (c : Codecs) (row : ProfileRow) : Option Profile :=
  (fromJson (Rows.parseDocument c row.document).value).toOption

/-- What the loop of `list` collects, of the rows as they come. -/
def collect (c : Codecs) (query : ProfileQuery) (scan : List (Sigma fun _ : String => ProfileRow)) :
    List Profile :=
  (scan.filterMap fun e => readRow c e.2).filter fun p => passesFilter p query

/-- `list`: the rows in the order `scan` of SQLite, and a result. -/
def Lists (c : Codecs) (r : Rows) (query : ProfileQuery) (out : List Profile) : Prop :=
  ∃ scan sorted, scan.Perm r.profiles.entries ∧
    StdSort (precedes query.sort) (collect c query scan) sorted ∧ out = cut query.limit sorted

theorem readRow_eq (hc : c.Lawful) {row : ProfileRow} {p : Profile} (h : IsRow c row p) :
    readRow c row = some p := by
  rw [readRow, h.fromJson hc]
  rfl

section

variable {scan : List (Sigma fun _ : String => ProfileRow)}

theorem read_of_mem (hc : c.Lawful) (h : Encodes c r t) (hscan : scan.Perm r.profiles.entries)
    {e : Sigma fun _ : String => ProfileRow} (he : e ∈ scan) {p : Profile}
    (hread : readRow c e.2 = some p) : t.profiles.lookup e.1 = some p := by
  obtain ⟨q, hq, his⟩ := h.profiles.exists_right (AList.mem_lookup_iff.mpr (hscan.mem_iff.mp he))
  rw [readRow_eq hc his] at hread
  rw [hq, hread]

theorem mem_collect (hc : c.Lawful) (h : Encodes c r t) (hscan : scan.Perm r.profiles.entries)
    {p : Profile} : p ∈ collect c query scan ↔
      Meets query p ∧ ∃ id, t.profiles.lookup id = some p := by
  rw [collect, List.mem_filter, passesFilter_iff, and_comm, List.mem_filterMap]
  refine and_congr_right fun _ => ⟨?_, ?_⟩
  · rintro ⟨e, he, hread⟩
    exact ⟨e.1, read_of_mem hc h hscan he hread⟩
  · rintro ⟨id, hp⟩
    obtain ⟨row, hrow, his⟩ := h.profiles.exists_left hp
    exact ⟨⟨id, row⟩, hscan.mem_iff.mpr (AList.mem_lookup_iff.mp hrow), readRow_eq hc his⟩

/-- No profile is collected twice, since each has the id of its row. -/
theorem nodup_collect (hc : c.Lawful) (h : Encodes c r t)
    (hscan : scan.Perm r.profiles.entries) : (collect c query scan).Nodup := by
  refine List.Nodup.filter _ ?_
  have hkeys : scan.Pairwise fun e e' => e.1 ≠ e'.1 :=
    List.nodupKeys_iff_pairwise.mp ((List.perm_nodupKeys hscan).mpr r.profiles.nodupKeys)
  rw [List.Nodup, List.pairwise_filterMap]
  refine hkeys.imp_of_mem fun {e e'} he he' hne p hp p' hp' heq => hne ?_
  rw [← t.keyed _ p (read_of_mem hc h hscan he hp), heq,
    t.keyed _ p' (read_of_mem hc h hscan he' hp')]

/-- What is listed: the profiles that meet the query, each once, in its order
and cut to its limit. -/
theorem lists_iff_tables (hc : c.Lawful) (h : Encodes c r t) {out : List Profile} :
    Lists c r query out ↔ ∃ full : List Profile, full.Nodup ∧ full.Pairwise (InOrder query.sort) ∧
      (∀ p, p ∈ full ↔ Meets query p ∧ ∃ id, t.profiles.lookup id = some p) ∧
      out = cut query.limit full := by
  constructor
  · rintro ⟨scan, sorted, hscan, ⟨hperm, hsorted⟩, rfl⟩
    refine ⟨sorted, hperm.nodup_iff.mpr (nodup_collect hc h hscan), ?_, fun p => ?_, rfl⟩
    · exact hsorted.imp precedes_eq_false.mp
    · rw [hperm.mem_iff, mem_collect hc h hscan]
  · rintro ⟨full, hnodup, horder, hmem, rfl⟩
    refine ⟨r.profiles.entries, full, .refl _, ⟨?_, horder.imp precedes_eq_false.mpr⟩, rfl⟩
    refine (List.perm_ext_iff_of_nodup hnodup (nodup_collect hc h (.refl _))).mpr fun p => ?_
    rw [hmem, mem_collect hc h (.refl _)]

end

end NovaVpn.Profiles
