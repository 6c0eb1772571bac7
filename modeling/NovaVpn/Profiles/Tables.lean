import Mathlib.Data.Finset.Filter
import Mathlib.Data.Finset.Insert
import Mathlib.Data.List.AList
import NovaVpn.Framework.Transactions
import NovaVpn.Profiles.Profile

/-!
# The tables of the profiles

The part of the schema in `Database/Schema.cpp` that holds profiles, with its
constraints: the id of a row is the id in its document, no two rows have the
same name, and a tag or a sealed source belongs to a row. A row is the profile
that its document holds; the columns beside the document repeat parts of it.
A sealed source is the text that was sealed.

The statements of `Profiles/SqliteProfileStore.cpp` are functions on the
tables that fail where a constraint would be violated. `Contents` is what the
tables hold by id, and each statement's effect is stated there.
-/

namespace NovaVpn.Profiles

open NovaVpn.Framework

/-- A profile as its document gives it back. -/
def Profile.stored (p : Profile) : Profile :=
  { p with
    metadata := { p.metadata with
      createdAt := storedTime p.metadata.createdAt
      modifiedAt := storedTime p.metadata.modifiedAt
      lastConnectedAt := storedTime p.metadata.lastConnectedAt }
    sourceConfig := "" }

structure Tables where
  profiles : AList fun _ : String => Profile := ∅
  tags : Finset (String × String) := ∅
  blobs : AList fun _ : String => String := ∅
  keyed : ∀ id p, profiles.lookup id = some p → p.id = id
  unique : ∀ id id' p p', profiles.lookup id = some p → profiles.lookup id' = some p' →
    p.name = p'.name → id = id'
  tagged : ∀ id tag, (id, tag) ∈ tags → id ∈ profiles
  sealed : ∀ id, id ∈ blobs → id ∈ profiles

/-- No entry but the one under this key has the value. -/
theorem any_other_eq_false {α β : Type} [DecidableEq α] {m : AList fun _ : String => β} {id : String}
    {f : β → α} {a : α} : (m.entries.any fun e => e.1 ≠ id && f e.2 = a) = false ↔
      ∀ id' b, m.lookup id' = some b → f b = a → id' = id := by
  simp only [List.any_eq_false, Bool.and_eq_true, decide_eq_true_eq, not_and]
  constructor
  · intro h id' b hb hf
    by_contra hne
    exact h ⟨id', b⟩ (AList.mem_lookup_iff.mp hb) hne hf
  · rintro h ⟨id', b⟩ he hne hf
    exact hne (h id' b (AList.mem_lookup_iff.mpr he) hf)

namespace Tables

def empty : Tables where
  keyed id p h := by rw [AList.lookup_empty] at h; cases h
  unique id id' p p' h := by rw [AList.lookup_empty] at h; cases h
  tagged id tag h := absurd h (Finset.notMem_empty _)
  sealed id h := absurd h (AList.notMem_empty id)

/-- Whether another row has the name. -/
def nameTaken (t : Tables) (id name : String) : Bool :=
  t.profiles.entries.any fun e => e.1 ≠ id && e.2.name = name

theorem nameTaken_eq_false {t : Tables} {id name : String} : t.nameTaken id name = false ↔
    ∀ id' p, t.profiles.lookup id' = some p → p.name = name → id' = id :=
  any_other_eq_false

/-- A row is written under its id. -/
def putRow (t : Tables) (p : Profile) (h : t.nameTaken p.id p.name = false) : Tables where
  profiles := t.profiles.insert p.id p
  tags := t.tags
  blobs := t.blobs
  keyed id q hq := by
    by_cases hid : id = p.id
    · subst hid
      rw [AList.lookup_insert, Option.some.injEq] at hq
      rw [hq]
    · rw [AList.lookup_insert_ne hid] at hq
      exact t.keyed id q hq
  unique id id' q q' hq hq' hname := by
    rw [nameTaken_eq_false] at h
    by_cases hid : id = p.id
    · by_cases hid' : id' = p.id
      · rw [hid, hid']
      · subst hid
        rw [AList.lookup_insert, Option.some.injEq] at hq
        rw [AList.lookup_insert_ne hid'] at hq'
        exact absurd (h id' q' hq' (by rw [← hname, hq])) hid'
    · rw [AList.lookup_insert_ne hid] at hq
      by_cases hid' : id' = p.id
      · subst hid'
        rw [AList.lookup_insert, Option.some.injEq] at hq'
        exact h id q hq (by rw [hname, hq'])
      · rw [AList.lookup_insert_ne hid'] at hq'
        exact t.unique id id' q q' hq hq' hname
  tagged id tag htag := (AList.mem_insert t.profiles).mpr (Or.inr (t.tagged id tag htag))
  sealed id hid := (AList.mem_insert t.profiles).mpr (Or.inr (t.sealed id hid))

/-! ## Statements -/

/-- `INSERT INTO profiles`. -/
def insertProfile (p : Profile) (t : Tables) : Option Tables :=
  if p.id ∈ t.profiles then none
  else if h : t.nameTaken p.id p.name = false then some (t.putRow p.stored h)
  else none

/-- `UPDATE profiles … WHERE id=?1`, which may find no row. -/
def updateProfile (p : Profile) (t : Tables) : Option Tables :=
  if p.id ∈ t.profiles then
    if h : t.nameTaken p.id p.name = false then some (t.putRow p.stored h) else none
  else some t

/-- `DELETE FROM profile_tags WHERE profile_id = …`. -/
def deleteTags (id : String) (t : Tables) : Option Tables :=
  some { t with
    tags := t.tags.filter fun e => e.1 ≠ id
    tagged := fun id' tag h => t.tagged id' tag (Finset.mem_of_mem_filter _ h) }

/-- `INSERT OR IGNORE INTO profile_tags`; a foreign key is not ignored. -/
def insertTag (id tag : String) (t : Tables) : Option Tables :=
  if h : id ∈ t.profiles then
    some { t with
      tags := insert (id, tag) t.tags
      tagged := fun id' tag' htag => by
        rcases Finset.mem_insert.mp htag with heq | htag
        · cases heq
          exact h
        · exact t.tagged id' tag' htag }
  else none

/-- `INSERT OR REPLACE INTO profile_blobs`. -/
def insertBlob (id source : String) (t : Tables) : Option Tables :=
  if h : id ∈ t.profiles then
    some { t with
      blobs := t.blobs.insert id source
      sealed := fun id' hid' => by
        rcases (AList.mem_insert t.blobs).mp hid' with rfl | hid'
        · exact h
        · exact t.sealed id' hid' }
  else none

/-- `DELETE FROM profiles WHERE id = ?1`; the tags and the source cascade. -/
def deleteProfile (id : String) (t : Tables) : Option Tables :=
  some
    { profiles := t.profiles.erase id
      tags := t.tags.filter fun e => e.1 ≠ id
      blobs := t.blobs.erase id
      keyed := fun id' p h => by
        by_cases hid : id' = id
        · rw [hid, AList.lookup_erase] at h
          cases h
        · rw [AList.lookup_erase_ne hid] at h
          exact t.keyed id' p h
      unique := fun i i' p p' hp hp' hname => by
        by_cases hi : i = id
        · rw [hi, AList.lookup_erase] at hp
          cases hp
        · by_cases hi' : i' = id
          · rw [hi', AList.lookup_erase] at hp'
            cases hp'
          · rw [AList.lookup_erase_ne hi] at hp
            rw [AList.lookup_erase_ne hi'] at hp'
            exact t.unique i i' p p' hp hp' hname
      tagged := fun id' tag h => by
        obtain ⟨htag, hne⟩ := Finset.mem_filter.mp h
        exact AList.mem_erase.mpr ⟨hne, t.tagged id' tag htag⟩
      sealed := fun id' h => by
        obtain ⟨hne, hmem⟩ := AList.mem_erase.mp h
        exact AList.mem_erase.mpr ⟨hne, t.sealed id' hmem⟩ }

end Tables

/-! ## What the tables hold -/

/-- By id: the row, its tags, its source. -/
@[ext] structure Contents where
  row : String → Option Profile
  tags : String → Set String
  blob : String → Option String

namespace Contents

def setRow (c : Contents) (id : String) (row : Option Profile) : Contents :=
  { c with row := Function.update c.row id row }

def setTags (c : Contents) (id : String) (tags : Set String) : Contents :=
  { c with tags := Function.update c.tags id tags }

def setBlob (c : Contents) (id : String) (blob : Option String) : Contents :=
  { c with blob := Function.update c.blob id blob }

end Contents

namespace Tables

def contents (t : Tables) : Contents where
  row id := t.profiles.lookup id
  tags id := { tag | (id, tag) ∈ t.tags }
  blob id := t.blobs.lookup id

theorem mem_profiles {t : Tables} {id : String} :
    id ∈ t.profiles ↔ (t.contents.row id).isSome = true := AList.lookup_isSome.symm

theorem lookup_insert_eq {β : Type} (s : AList fun _ : String => β) (id : String) (b : β) :
    (fun i => (s.insert id b).lookup i) = Function.update (fun i => s.lookup i) id (some b) :=
  Function.eq_update_iff.mpr ⟨AList.lookup_insert s, fun _ hi => AList.lookup_insert_ne hi⟩

theorem lookup_erase_eq {β : Type} (s : AList fun _ : String => β) (id : String) :
    (fun i => (s.erase id).lookup i) = Function.update (fun i => s.lookup i) id none :=
  Function.eq_update_iff.mpr ⟨AList.lookup_erase id s, fun _ hi => AList.lookup_erase_ne hi⟩

theorem filter_tags_eq (tags : Finset (String × String)) (id : String) :
    (fun i => { tag | (i, tag) ∈ tags.filter fun e => e.1 ≠ id }) =
      Function.update (fun i => { tag | (i, tag) ∈ tags }) id ∅ := by
  rw [Function.eq_update_iff]
  refine ⟨by simp, fun i hi => ?_⟩
  simp [hi]

theorem insert_tags_eq (tags : Finset (String × String)) (id tag : String) :
    (fun i => { tag' | (i, tag') ∈ insert (id, tag) tags }) =
      Function.update (fun i => { tag' | (i, tag') ∈ tags }) id
        (insert tag { tag' | (id, tag') ∈ tags }) := by
  rw [Function.eq_update_iff]
  refine ⟨?_, fun i hi => ?_⟩
  · ext tag'
    simp
  · ext tag'
    simp [hi]

/-- No row, so no tags. -/
theorem tags_of_row {t : Tables} {id : String} (h : t.contents.row id = none) :
    t.contents.tags id = ∅ := by
  ext tag
  simp only [contents, Set.mem_ofPred_eq, Set.mem_empty_iff_false, iff_false]
  exact fun htag => AList.lookup_eq_none.mp h (t.tagged id tag htag)

variable {t t' : Tables} {p : Profile} {id : String}

theorem contents_putRow (h : t.nameTaken p.id p.name = false) :
    (t.putRow p h).contents = t.contents.setRow p.id (some p) :=
  Contents.ext (lookup_insert_eq t.profiles p.id p) rfl rfl

theorem contents_insertProfile (h : insertProfile p t = some t') :
    t.contents.row p.id = none ∧ t'.contents = t.contents.setRow p.id (some p.stored) := by
  simp only [insertProfile] at h
  split at h
  next => cases h
  next hmem =>
    split at h
    next hname =>
      cases h
      exact ⟨AList.lookup_eq_none.mpr hmem, contents_putRow (p := p.stored) hname⟩
    next => cases h

/-- An `UPDATE` writes the row, or finds none. -/
theorem contents_updateProfile (h : updateProfile p t = some t') :
    (p.id ∈ t.profiles ∧ t'.contents = t.contents.setRow p.id (some p.stored)) ∨
      (p.id ∉ t.profiles ∧ t' = t) := by
  simp only [updateProfile] at h
  split at h
  next hmem =>
    split at h
    next hname =>
      cases h
      exact Or.inl ⟨hmem, contents_putRow (p := p.stored) hname⟩
    next => cases h
  next hmem =>
    cases h
    exact Or.inr ⟨hmem, rfl⟩

theorem contents_deleteTags (h : deleteTags id t = some t') :
    t'.contents = t.contents.setTags id ∅ := by
  cases h
  exact Contents.ext rfl (filter_tags_eq t.tags id) rfl

theorem contents_insertTag {tag : String} (h : insertTag id tag t = some t') :
    id ∈ t.profiles ∧ t'.contents = t.contents.setTags id (insert tag (t.contents.tags id)) := by
  simp only [insertTag] at h
  split at h
  next hmem =>
    cases h
    exact ⟨hmem, Contents.ext rfl (insert_tags_eq t.tags id tag) rfl⟩
  next => cases h

theorem contents_insertBlob {source : String} (h : insertBlob id source t = some t') :
    id ∈ t.profiles ∧ t'.contents = t.contents.setBlob id (some source) := by
  simp only [insertBlob] at h
  split at h
  next hmem =>
    cases h
    exact ⟨hmem, Contents.ext rfl rfl (lookup_insert_eq t.blobs id source)⟩
  next => cases h

theorem contents_deleteProfile (h : deleteProfile id t = some t') :
    t'.contents = ((t.contents.setRow id none).setTags id ∅).setBlob id none := by
  cases h
  exact Contents.ext (lookup_erase_eq t.profiles id) (filter_tags_eq t.tags id)
    (lookup_erase_eq t.blobs id)

end Tables

end NovaVpn.Profiles
