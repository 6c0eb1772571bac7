import Mathlib.Data.Nat.Digits.Defs
import NovaVpn.Core.Config
import NovaVpn.Framework.Machine

/-!
# The configuration is populated

A pointer that resolves in the defaults should resolve in the effective
document. `Json.Populates` says so of two values. An overlay, a file or a
value that is set may put something that lacks these pointers in the place of
an object; `ConfigStore.Keeps` is the condition on a call that it does not,
and `populated_of_run` says that this is enough over whole runs.
-/

namespace NovaVpn

open Framework

namespace Str

/-- The character of a decimal digit. -/
def digitChar (d : Nat) : Char := Char.ofNat (d + '0'.toNat)

theorem decimalDigit_eq_some {c : Char} {d : Nat} (h : decimalDigit c = some d) :
    d < 10 ∧ c = digitChar d := by
  unfold decimalDigit at h
  split at h
  · next hc =>
    cases h
    have h0 : '0'.toNat ≤ c.toNat := hc.1
    have h9 : c.toNat ≤ '9'.toNat := hc.2
    have h10 : '9'.toNat = '0'.toNat + 9 := rfl
    refine ⟨by omega, ?_⟩
    rw [digitChar, Nat.sub_add_cancel h0, Char.ofNat_toNat]
  · cases h

/-- A text that reads as a number is the text of its digits. -/
theorem digits_eq_some {acc n : Nat} {cs : List Char}
    (h : digits 10 decimalDigit acc cs = some n) :
    ∃ ds : List Nat, (∀ d ∈ ds, d < 10) ∧ cs = ds.map digitChar ∧
      n = acc * 10 ^ ds.length + Nat.ofDigits 10 ds.reverse := by
  induction cs generalizing acc with
  | nil =>
    cases h
    exact ⟨[], by simp⟩
  | cons c cs ih =>
    obtain ⟨d, hd, hrest⟩ := Option.bind_eq_some_iff.mp h
    obtain ⟨hlt, rfl⟩ := decimalDigit_eq_some hd
    obtain ⟨ds, hds, rfl, hn⟩ := ih hrest
    refine ⟨d :: ds, List.forall_mem_cons.mpr ⟨hlt, hds⟩, rfl, ?_⟩
    rw [hn, List.reverse_cons, Nat.ofDigits_append, Nat.ofDigits_singleton, List.length_reverse,
      List.length_cons, pow_succ]
    ring

end Str
namespace Json

/-- An index is written in one way only. -/
theorem toList_of_arrayIndex {token : String} {i : Nat} (h : arrayIndex token = some i) :
    token.toList = if i = 0 then ['0'] else (Nat.digits 10 i).reverse.map Str.digitChar := by
  unfold arrayIndex at h
  split at h
  · next heq =>
    cases h
    exact heq
  · cases h
  · cases h
  · next hzero hlead hnil =>
    obtain ⟨ds, hds, hcs, hn⟩ := Str.digits_eq_some h
    rw [Nat.zero_mul, Nat.zero_add] at hn
    cases ds with
    | nil => exact absurd hcs hnil
    | cons d ds =>
      have hd : d ≠ 0 := by
        rintro rfl
        exact hlead _ hcs
      have hdigits : Nat.digits 10 i = (d :: ds).reverse := by
        rw [hn]
        refine Nat.digits_ofDigits 10 (by decide) _ (fun e he => hds e (List.mem_reverse.mp he))
          fun _ => ?_
        rwa [List.getLast_reverse]
      have hi : i ≠ 0 := by
        rintro rfl
        simp at hdigits
      rw [if_neg hi, hdigits, List.reverse_reverse, hcs]

theorem arrayIndex_inj {a b : String} {i : Nat} (ha : arrayIndex a = some i)
    (hb : arrayIndex b = some i) : a = b :=
  String.toList_injective ((toList_of_arrayIndex ha).trans (toList_of_arrayIndex hb).symm)

/-! ## Pointers that resolve -/

def Resolves (tokens : List String) (j : Json) : Prop := ∃ v, find tokens j = .ok (some v)

/-- Every pointer that resolves in `d` resolves in `e`. -/
def Populates (e d : Json) : Prop := ∀ tokens, Resolves tokens d → Resolves tokens e

theorem resolves_cons {token : String} {tokens : List String} {j : Json} :
    Resolves (token :: tokens) j ↔
      ∃ c, child token j = .ok (some c) ∧ Resolves tokens c := by
  unfold Resolves
  rw [find_cons]
  cases child token j with
  | error e => simp
  | ok c => cases c <;> simp

instance (tokens : List String) (j : Json) : Decidable (Resolves tokens j) :=
  match h : find tokens j with
  | .ok (some v) => isTrue ⟨v, h⟩
  | .ok none => isFalse fun ⟨_, hv⟩ => by simp [h] at hv
  | .error _ => isFalse fun ⟨_, hv⟩ => by simp [h] at hv

/-- Token by token: what the defaults have under a token, the document has,
and it is populated. -/
theorem populates_iff {e d : Json} :
    Populates e d ↔ ∀ token dc, child token d = .ok (some dc) →
      ∃ ec, child token e = .ok (some ec) ∧ Populates ec dc := by
  constructor
  · intro h token dc hd
    obtain ⟨ec, hec, -⟩ := resolves_cons.mp (h [token] (resolves_cons.mpr ⟨dc, hd, dc, rfl⟩))
    refine ⟨ec, hec, fun tokens ht => ?_⟩
    obtain ⟨ec', hec', hr⟩ := resolves_cons.mp (h (token :: tokens) (resolves_cons.mpr ⟨dc, hd, ht⟩))
    rw [hec] at hec'
    cases hec'
    exact hr
  · intro h tokens ht
    cases tokens with
    | nil => exact ⟨e, rfl⟩
    | cons token tokens =>
      obtain ⟨dc, hd, hr⟩ := resolves_cons.mp ht
      obtain ⟨ec, hec, hp⟩ := h token dc hd
      exact resolves_cons.mpr ⟨ec, hec, hp tokens hr⟩

theorem Populates.refl (d : Json) : Populates d d := fun _ h => h

/-- A null populates only what has nothing under it. -/
theorem Populates.of_null {d : Json} (h : Populates .null d) (e : Json) : Populates e d := by
  rw [populates_iff] at h ⊢
  intro token dc hd
  obtain ⟨ec, hec, -⟩ := h token dc hd
  cases hec

theorem Populates.container {e d : Json} (h : Populates e d) (token : String) :
    Populates (e.container token) d := by
  cases e with
  | null => exact h.of_null _
  | _ => exact h

theorem child_arr {token : String} {items : List Json} {c : Json} :
    child token (.arr items) = .ok (some c) ↔
      token ≠ "" ∧ ∃ i, arrayIndex token = some i ∧ i < 2 ^ 64 - 1 ∧ items[i]? = some c := by
  rw [child]
  split
  · next h => simp [h]
  · next h =>
    cases arrayIndex token with
    | none => simp
    | some i =>
      simp only [ne_eq, h, not_false_eq_true, true_and, Option.some.injEq, exists_eq_left']
      by_cases hi : i < 2 ^ 64 - 1
      · rw [if_pos hi, Except.ok.injEq, and_iff_right hi]
      · rw [if_neg hi]
        exact ⟨fun h => (by cases h), fun h => absurd h.1 hi⟩

/-! ## Assignment -/

/-- A field is set to what still populates its default. -/
theorem Populates.insertField {fields : List (String × Json)} {token : String} {value d : Json}
    (h : Populates (.obj fields) d)
    (hv : ∀ ec dc, fields.lookup token = some ec → child token d = .ok (some dc) →
      Populates ec dc → Populates value dc) :
    Populates (.obj (Json.insertField token value fields)) d := by
  rw [populates_iff] at h ⊢
  intro t dc hd
  obtain ⟨ec, hec, hp⟩ := h t dc hd
  by_cases ht : t = token
  · subst ht
    exact ⟨value, congrArg Except.ok (lookup_insertField_self t value fields),
      hv ec dc (Except.ok.inj hec) hd hp⟩
  · refine ⟨ec, ?_, hp⟩
    show Except.ok ((Json.insertField token value fields).lookup t) = _
    rw [lookup_insertField_ne ht]
    exact hec

/-- The token of an index that is set is the one a default is under. -/
theorem token_of_placeIndex {items : List Json} {token t : String} {i : Nat}
    (hi : placeIndex items token = some i) (hj : arrayIndex t = some i) (hlt : i < items.length) :
    token = t := by
  unfold placeIndex at hi
  split at hi
  · cases hi
    omega
  · exact arrayIndex_inj (Option.filter_eq_some_iff.mp hi).1 hj

/-- An item is set to what still populates its default. -/
theorem Populates.setItem {items : List Json} {token : String} {value d : Json} {i : Nat}
    (h : Populates (.arr items) d) (hi : placeIndex items token = some i)
    (hv : ∀ ec dc, items[i]? = some ec → child token d = .ok (some dc) → Populates ec dc →
      Populates value dc) :
    Populates (.arr ((items ++ List.replicate (i + 1 - items.length) Json.null).set i value)) d := by
  rw [populates_iff] at h ⊢
  intro t dc hd
  obtain ⟨ec, hec, hp⟩ := h t dc hd
  obtain ⟨hne, j, hj, hlt, hget⟩ := child_arr.mp hec
  have hjlen : j < items.length := (List.getElem?_eq_some_iff.mp hget).1
  by_cases hij : i = j
  · subst hij
    have ht := token_of_placeIndex hi hj hjlen
    subst ht
    refine ⟨value, child_arr.mpr ⟨hne, i, hj, hlt, ?_⟩, hv ec dc hget hd hp⟩
    have hlen : i < (items ++ List.replicate (i + 1 - items.length) Json.null).length := by
      rw [List.length_append]
      omega
    exact List.getElem?_set_self hlen
  · refine ⟨ec, child_arr.mpr ⟨hne, j, hj, hlt, ?_⟩, hp⟩
    rw [List.getElem?_set_ne hij, List.getElem?_append_left hjlen, hget]

/-- An assignment populates the document as long as what it puts in the place
of a default populates that. -/
theorem Populates.place {tokens : List String} {value e d : Json} (h : Populates e d)
    (hv : ∀ dv, find tokens d = .ok (some dv) → Populates value dv) :
    Populates (Json.place tokens value e).1 d := by
  induction tokens generalizing e d with
  | nil => exact hv d rfl
  | cons token tokens ih =>
    have hc := h.container token
    -- what the token leads to keeps populating its default
    have hchild : ∀ {ec dc}, child token d = .ok (some dc) → Populates ec dc →
        Populates (Json.place tokens value ec).1 dc := by
      intro ec dc hd hp
      refine ih hp fun dv hdv => hv dv ?_
      rw [find_cons, hd]
      exact hdv
    rw [Json.place]
    split
    · next fields heq =>
      rw [heq] at hc
      refine hc.insertField fun ec dc hl hd hp => ?_
      rw [hl]
      exact hchild hd hp
    · next items heq =>
      rw [heq] at hc
      split
      · next i hi =>
        refine hc.setItem hi fun ec dc hget hd hp => ?_
        have hlen : i < items.length := (List.getElem?_eq_some_iff.mp hget).1
        rw [List.getD_eq_getElem?_getD, List.getElem?_append_left hlen, hget]
        exact hchild hd hp
      · exact hc
    · exact hc

/-! ## Merging -/

mutual

/-- Where the overlay replaces a value of the document, what it puts there
populates the default in that place. -/
def MergeKeeps (d base overlay : Json) : Prop :=
  match overlay with
  | .obj os =>
    match base with
    | .obj bs => MergeKeepsFields d bs os
    | _ => Populates (.obj os) d
  | other => Populates other d
termination_by structural overlay

def MergeKeepsFields (d : Json) (base overlay : List (String × Json)) : Prop :=
  match overlay with
  | [] => True
  | f :: fs => MergeKeepsField d base f ∧ MergeKeepsFields d base fs
termination_by structural overlay

/-- A key the defaults do not have is free. -/
def MergeKeepsField (d : Json) (base : List (String × Json)) (f : String × Json) : Prop :=
  match f with
  | (key, value) =>
    match child key d, base.lookup key with
    | .ok (some dc), some b => MergeKeeps dc b value
    | _, _ => True
termination_by structural f

end

theorem mergeKeepsFields_mem {d : Json} {base overlay : List (String × Json)}
    (h : MergeKeepsFields d base overlay) {f : String × Json} (hf : f ∈ overlay) :
    MergeKeepsField d base f := by
  induction overlay with
  | nil => cases hf
  | cons g fs ih =>
    rw [MergeKeepsFields] at h
    rcases List.mem_cons.mp hf with rfl | hf
    · exact h.1
    · exact ih h.2 hf

theorem Populates.merge (overlay : Json) {base d : Json} (h : Populates base d)
    (ho : Ordered overlay) (hk : MergeKeeps d base overlay) : Populates (Json.merge base overlay) d := by
  induction overlay using Json.ind generalizing base d with
  | obj os ih =>
    cases base with
    | obj bs =>
      have hos : OrderedFields os := ho.fields
      rw [MergeKeeps] at hk
      rw [Json.merge]
      rw [populates_iff] at h ⊢
      intro key dc hd
      obtain ⟨b, hb, hp⟩ := h key dc hd
      replace hb : bs.lookup key = some b := Except.ok.inj hb
      rw [child, lookup_mergeFields hos.nodup, hb]
      cases hl : os.lookup key with
      | none => exact ⟨b, rfl, hp⟩
      | some value =>
        obtain ⟨l, r, heq, -⟩ := List.lookup_eq_some_iff.mp hl
        have hmem : (key, value) ∈ os := by simp [heq]
        have hkeep := mergeKeepsFields_mem hk hmem
        rw [MergeKeepsField, hd, hb] at hkeep
        exact ⟨_, rfl, ih _ hmem hp (hos.lookup hl) hkeep⟩
    | _ => exact hk
  | _ => exact hk

end Json

namespace ConfigStore

/-- The condition on a call: what it puts in the place of a default has the
pointers of that default. -/
def Keeps (store : ConfigStore) : Call → Prop
  | .load (some (.ok parsed)) =>
    store.defaults.value.MergeKeeps store.defaults.value parsed.value
  | .load _ => True
  | .set pointer value _ => ∀ tokens dv, Json.parsePointer pointer = some tokens →
      Json.find tokens store.defaults.value = .ok (some dv) → value.value.Populates dv
  | .apply overlay => overlay.value.isObject = true →
      (∃ changed, changedPointers store.effective.value overlay.value.fields = .ok changed) →
      store.defaults.value.MergeKeeps store.effective.value overlay.value
  | .reset _ => True

/-- The invariant. -/
def Populated (store : ConfigStore) : Prop :=
  store.effective.value.Populates store.defaults.value

theorem Populated.call {store : ConfigStore} (h : store.Populated) {c : Call} (hk : store.Keeps c) :
    (store.call c).Populated := by
  cases c with
  | load file =>
    match file with
    | none => exact .refl _
    | some (.error _) => exact .refl _
    | some (.ok parsed) => exact Json.Populates.merge _ (.refl _) parsed.ordered hk
  | set pointer value what =>
    show Json.Populates (store.effective.value.set pointer value.value what).1 _
    unfold Json.set
    cases hp : Json.parsePointer pointer with
    | none => exact h
    | some tokens => exact Json.Populates.place h fun dv hdv => hk tokens dv hp hdv
  | apply overlay =>
    rw [ConfigStore.call]
    split
    · next store' changed happly =>
      obtain ⟨hobj, hchanged, rfl⟩ := apply_eq_ok happly
      exact Json.Populates.merge _ h overlay.ordered (hk hobj ⟨changed, hchanged⟩)
    · exact h
  | reset pointer =>
    rw [ConfigStore.call]
    unfold reset
    split
    · exact h
    · split
      · exact h
      · exact h
      · next tokens _ _ value hf =>
        refine Json.Populates.place h fun dv hdv => ?_
        rw [hf] at hdv
        cases hdv
        exact .refl _

/-- A call always has an outcome. -/
def step (store : ConfigStore) (c : Call) : Option ConfigStore := some (store.call c)

theorem run_step (store : ConfigStore) (cs : List Call) :
    run step store cs = some (store.calls cs) := by
  induction cs generalizing store with
  | nil => rfl
  | cons c cs ih => exact ih (store.call c)

/-- In every run whose calls meet the condition, every pointer that resolves
in the defaults resolves in the snapshot. -/
theorem populated_of_run {defaults : Doc} {cs : List Call}
    (hk : RunMeets step Keeps { defaults } cs) {tokens : List String}
    (h : Json.Resolves tokens defaults.value) :
    Json.Resolves tokens (({ defaults } : ConfigStore).calls cs).snapshot.value := by
  have hstart : ({ defaults } : ConfigStore).Populated := Json.Populates.refl _
  have hinv : (({ defaults } : ConfigStore).calls cs).Populated := by
    refine run_invariant (fun store c store' hp hc hs => ?_) hstart hk (run_step _ cs)
    cases hs
    exact hp.call hc
  refine hinv tokens ?_
  rw [calls_defaults]
  exact h

/-- A file that names a mode, and the default restored after that. -/
theorem populated_modeChanged :
    let defaults : Doc := .ofFields [("dns", .ofFields [("mode", .str "tunnel")])]
    let cs : List Call :=
      [.load (some (.ok (.ofFields [("dns", .ofFields [("mode", .str "doh")])]))),
        .reset "/dns/mode"]
    RunMeets step Keeps { defaults } cs ∧
      Json.Resolves ["dns", "mode"] (({ defaults } : ConfigStore).calls cs).snapshot.value := by
  intro defaults cs
  have hk : RunMeets step Keeps { defaults } cs := by
    refine ⟨?_, fun _ _ => ⟨trivial, fun _ _ => trivial⟩⟩
    exact ⟨⟨Json.populates_iff.mpr nofun, trivial⟩, trivial⟩
  exact ⟨hk, populated_of_run hk (by decide +kernel)⟩

/-- An overlay puts a number in the place of a section. -/
theorem overlay_unpopulates :
    Json.Resolves ["dns", "mode"] serviceConfigDefaults.value ∧
      ¬ Json.Resolves ["dns", "mode"] (({ defaults := serviceConfigDefaults } : ConfigStore).calls
        [.apply (.ofFields [("dns", .int 5)])]).snapshot.value := by
  decide +kernel

end ConfigStore

end NovaVpn
