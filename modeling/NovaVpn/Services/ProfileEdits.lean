import NovaVpn.Framework.Machine
import NovaVpn.Services.ProfileApi

/-!
# Edits of one profile from several threads

`SetProfileFavorite`, `RenameProfile`, `SetProfileCredentials` and
`recordConnection`, each a `get` and an `update` of one profile, in any order
of these steps. The update writes back the whole profile that was read, so an
edit that came between is undone, with both reported as done
(`favorite_undone`). `no_lost_update`: the stored profile reflects every edit
that was reported as done, in every run in which each update finds the fields
that its edit does not set as they were read.
-/

namespace NovaVpn.ServiceApi

open NovaVpn.Framework NovaVpn.Profiles

/-- What the edits set of a profile. -/
@[ext] structure Tracked where
  favorite : Bool
  name : String
  credentialTarget : String
  userName : String
  savePassword : Bool
  connectCount : UInt64
  totalBytesSent : UInt64
  totalBytesReceived : UInt64

def tracked (p : Profile) : Tracked where
  favorite := p.metadata.favorite
  name := p.name
  credentialTarget := p.credentials.credentialTarget
  userName := p.credentials.userName
  savePassword := p.credentials.savePassword
  connectCount := p.metadata.connectCount
  totalBytesSent := p.metadata.totalBytesSent
  totalBytesReceived := p.metadata.totalBytesReceived

namespace ProfileEdit

/-- What an edit does to the fields. -/
def track (id : String) : ProfileEdit → Tracked → Tracked
  | favorite value, v => { v with favorite := value }
  | rename name, v => { v with name }
  | credentials userName password save, v =>
    { v with
      credentialTarget := targetOf id v.credentialTarget
      userName
      savePassword := save && !password.isEmpty }
  | connection _ sent received, v =>
    { v with
      connectCount := v.connectCount + 1
      totalBytesSent := v.totalBytesSent + sent
      totalBytesReceived := v.totalBytesReceived + received }

theorem tracked_apply (edit : ProfileEdit) (id : String) (p : Profile) :
    tracked (edit.apply id p) = edit.track id (tracked p) := by
  cases edit <;> rfl

/-- The counters of two profiles are the same. -/
def SameCounters (v w : Tracked) : Prop :=
  v.connectCount = w.connectCount ∧ v.totalBytesSent = w.totalBytesSent ∧
    v.totalBytesReceived = w.totalBytesReceived

instance (v w : Tracked) : Decidable (SameCounters v w) :=
  inferInstanceAs (Decidable (_ ∧ _ ∧ _))

/-- The fields that an edit does not set are the same. -/
def Agrees (id : String) : ProfileEdit → Tracked → Tracked → Prop
  | favorite _, v, w => v.name = w.name ∧ v.credentialTarget = w.credentialTarget ∧
    v.userName = w.userName ∧ v.savePassword = w.savePassword ∧ SameCounters v w
  | rename _, v, w => v.favorite = w.favorite ∧ v.credentialTarget = w.credentialTarget ∧
    v.userName = w.userName ∧ v.savePassword = w.savePassword ∧ SameCounters v w
  | credentials _ _ _, v, w => v.favorite = w.favorite ∧ v.name = w.name ∧
    targetOf id v.credentialTarget = targetOf id w.credentialTarget ∧ SameCounters v w
  | connection _ _ _, v, w => v.favorite = w.favorite ∧ v.name = w.name ∧
    v.credentialTarget = w.credentialTarget ∧ v.userName = w.userName ∧
    v.savePassword = w.savePassword ∧ SameCounters v w

instance (id : String) (v w : Tracked) : ∀ edit, Decidable (Agrees id edit v w)
  | favorite _ | rename _ | connection _ _ _ => inferInstanceAs (Decidable (_ ∧ _))
  | credentials _ _ _ => inferInstanceAs (Decidable (_ ∧ _))

theorem Agrees.track_eq {id : String} {edit : ProfileEdit} {v w : Tracked}
    (h : Agrees id edit v w) : edit.track id v = edit.track id w := by
  cases edit with
  | favorite value =>
    obtain ⟨hname, htarget, huser, hsave, hcount, hsent, hreceived⟩ := h
    simp only [track, hname, htarget, huser, hsave, hcount, hsent, hreceived]
  | rename name =>
    obtain ⟨hfavorite, htarget, huser, hsave, hcount, hsent, hreceived⟩ := h
    simp only [track, hfavorite, htarget, huser, hsave, hcount, hsent, hreceived]
  | credentials userName password save =>
    obtain ⟨hfavorite, hname, htarget, hcount, hsent, hreceived⟩ := h
    simp only [track, hfavorite, hname, htarget, hcount, hsent, hreceived]
  | connection now sent received =>
    obtain ⟨hfavorite, hname, htarget, huser, hsave, hcount, hsent, hreceived⟩ := h
    simp only [track, hfavorite, hname, htarget, huser, hsave, hcount, hsent, hreceived]

end ProfileEdit

/-! ## Threads -/

/-- The tables, the edit of each thread with the profile it read, and the
edits that were reported as done, newest first. -/
structure Editors where
  tables : Tables
  held : Nat → Option (ProfileEdit × Profile) := fun _ => none
  done : List ProfileEdit := []

/-- The steps on the profile; `sql` is an error if SQLite fails. A thread
stops if the vault does not take the password. -/
inductive EditAct where
  | get (thread : Nat) (edit : ProfileEdit) (sql : Status)
  | stop (thread : Nat)
  | update (thread : Nat) (now : SystemTime) (sql : Status)

/-- Whether an edit has a password for the vault. -/
def ProfileEdit.stores : ProfileEdit → Bool
  | credentials _ password save => save && !password.isEmpty
  | _ => false

namespace Editors

def setHeld (s : Editors) (thread : Nat) (h : Option (ProfileEdit × Profile)) : Editors :=
  { s with held := Function.update s.held thread h }

def step (id : String) (s : Editors) : EditAct → Option Editors
  | .get thread edit sql =>
    match s.held thread with
    | some _ => none
    | none =>
      if sql.isError then some s
      else
        match SqliteProfileStore.get s.tables id with
        | .error _ => some s
        | .ok p => some (s.setHeld thread (some (edit, p)))
  | .stop thread =>
    match s.held thread with
    | some (edit, _) => if edit.stores then some (s.setHeld thread none) else none
    | none => none
  | .update thread now sql =>
    match s.held thread with
    | some (edit, p) =>
      let updated := SqliteProfileStore.update (edit.apply id p) now sql s.tables
      some ({ s with
        tables := updated.1
        done := if updated.2.isOk then edit :: s.done else s.done }.setHeld thread none)
    | none => none

end Editors

/-- An update finds the fields that its edit does not set as they were
read. -/
def Undisturbed (id : String) (s : Editors) : EditAct → Prop
  | .update thread _ _ => ∀ edit read stored, s.held thread = some (edit, read) →
    SqliteProfileStore.get s.tables id = .ok stored →
      edit.Agrees id (tracked read) (tracked stored)
  | _ => True

instance decidableUndisturbed (id : String) (s : Editors) : ∀ act, Decidable (Undisturbed id s act)
  | .update thread _ _ =>
    match hheld : s.held thread, hget : SqliteProfileStore.get s.tables id with
    | some (edit, read), .ok stored =>
      decidable_of_iff (edit.Agrees id (tracked read) (tracked stored))
        ⟨fun h edit' read' stored' hheld' hget' => by
          rw [hheld] at hheld'
          rw [hget] at hget'
          cases hheld'
          cases hget'
          exact h,
        fun h => h edit read stored hheld hget⟩
    | some _, .error _ => isTrue fun _ _ _ _ h => by rw [hget] at h; cases h
    | none, _ => isTrue fun _ _ _ h => by rw [hheld] at h; cases h
  | .get _ _ _ | .stop _ => isTrue trivial

/-- The stored profile is what the edits that are done make of the first one;
a thread holds what it read of this profile. -/
structure EditsInv (id : String) (start : Tracked) (s : Editors) : Prop where
  stored : ∃ p, SqliteProfileStore.get s.tables id = .ok p ∧
    tracked p = s.done.foldr (ProfileEdit.track id) start
  held : ∀ thread edit p, s.held thread = some (edit, p) → p.id = id

namespace EditsInv

variable {id : String} {start : Tracked} {s s' : Editors} {thread : Nat}

theorem setHeld (h : EditsInv id start s) {x : Option (ProfileEdit × Profile)}
    (hx : ∀ edit p, x = some (edit, p) → p.id = id) : EditsInv id start (s.setHeld thread x) := by
  refine ⟨h.stored, ?_⟩
  show ∀ i edit p, Function.update s.held thread x i = some (edit, p) → p.id = id
  rw [Function.forall_update_iff s.held fun _ y => ∀ edit p, y = some (edit, p) → p.id = id]
  exact ⟨hx, fun i _ => h.held i⟩

/-- An edit that is written is added to those that are done. -/
theorem written (h : EditsInv id start s) {edit : ProfileEdit} {p : Profile}
    (hp : p.id = id) (now : SystemTime) (sql : Status)
    (hagrees : ∀ stored, SqliteProfileStore.get s.tables id = .ok stored →
      edit.Agrees id (tracked p) (tracked stored)) :
    EditsInv id start { s with
      tables := (SqliteProfileStore.update (edit.apply id p) now sql s.tables).1
      done := if (SqliteProfileStore.update (edit.apply id p) now sql s.tables).2.isOk then
        edit :: s.done else s.done } := by
  obtain ⟨stored, hstored, htracked⟩ := h.stored
  refine ⟨?_, h.held⟩
  rcases SqliteProfileStore.update_cases (edit.apply id p) now sql s.tables with
    ⟨herror, htables⟩ | ⟨-, hcontents, hok⟩
  · rw [Status.isError_eq_not_isOk, Bool.not_eq_true'] at herror
    refine ⟨stored, ?_, ?_⟩
    · show SqliteProfileStore.get (SqliteProfileStore.update _ _ _ _).1 id = _
      rw [htables, hstored]
    · simp only [herror, htracked, Bool.false_eq_true, if_false]
  · have hid : ((edit.apply id p).modified now).id = id := (edit.id_apply id p).trans hp
    have hget := SqliteProfileStore.get_write hcontents
    rw [hid] at hget
    have hdone : (SqliteProfileStore.update (edit.apply id p) now sql s.tables).2.isOk = true := by
      rw [hok]
      rfl
    refine ⟨_, hget, ?_⟩
    simp only [hdone, if_true]
    calc tracked (edit.apply id p)
      _ = edit.track id (tracked p) := edit.tracked_apply id p
      _ = edit.track id (tracked stored) := (hagrees stored hstored).track_eq
      _ = edit.track id (s.done.foldr (ProfileEdit.track id) start) := by rw [htracked]

theorem step (h : EditsInv id start s) {act : EditAct} (hok : Undisturbed id s act)
    (hs : s.step id act = some s') : EditsInv id start s' := by
  cases act with
  | get thread edit sql =>
    simp only [Editors.step] at hs
    split at hs
    next => cases hs
    next =>
      split at hs
      next =>
        cases hs
        exact h
      next =>
        split at hs
        next =>
          cases hs
          exact h
        next p hget =>
          cases hs
          refine h.setHeld fun edit' p' hx => ?_
          cases hx
          exact SqliteProfileStore.id_of_get hget
  | stop thread =>
    simp only [Editors.step] at hs
    split at hs
    next =>
      split at hs
      next =>
        cases hs
        exact h.setHeld fun _ _ hx => by cases hx
      next => cases hs
    next => cases hs
  | update thread now sql =>
    simp only [Editors.step] at hs
    split at hs
    next edit p hheld =>
      cases hs
      have hw := h.written (h.held thread edit p hheld) now sql fun stored =>
        hok edit p stored hheld
      exact hw.setHeld fun _ _ hx => by cases hx
    next => cases hs

end EditsInv

/-! ## What is reflected -/

namespace ProfileEdit

def favorite? : ProfileEdit → Option Bool
  | favorite value => some value
  | _ => none

def name? : ProfileEdit → Option String
  | rename name => some name
  | _ => none

/-- The user name and whether the password is saved. -/
def credentials? : ProfileEdit → Option (String × Bool)
  | credentials userName password save => some (userName, save && !password.isEmpty)
  | _ => none

/-- The bytes sent and received. -/
def traffic? : ProfileEdit → Option (UInt64 × UInt64)
  | connection _ sent received => some (sent, received)
  | _ => none

end ProfileEdit

/-- The bytes of the connections, one way. -/
def total (bytes : UInt64 × UInt64 → UInt64) (traffic : List (UInt64 × UInt64)) : UInt64 :=
  traffic.foldr (fun t sum => bytes t + sum) 0

/-- The fields are those of the newest edit that sets them, and the counters
have grown by what the connections add. -/
structure Reflects (id : String) (start : Tracked) (done : List ProfileEdit) (v : Tracked) :
    Prop where
  favorite : v.favorite = (done.findSome? ProfileEdit.favorite?).getD start.favorite
  name : v.name = (done.findSome? ProfileEdit.name?).getD start.name
  userName : v.userName =
    ((done.findSome? ProfileEdit.credentials?).map Prod.fst).getD start.userName
  savePassword : v.savePassword =
    ((done.findSome? ProfileEdit.credentials?).map Prod.snd).getD start.savePassword
  credentialTarget : v.credentialTarget =
    if (done.findSome? ProfileEdit.credentials?).isSome then targetOf id start.credentialTarget
    else start.credentialTarget
  connectCount : v.connectCount =
    start.connectCount + UInt64.ofNat (done.filterMap ProfileEdit.traffic?).length
  totalBytesSent : v.totalBytesSent =
    start.totalBytesSent + total Prod.fst (done.filterMap ProfileEdit.traffic?)
  totalBytesReceived : v.totalBytesReceived =
    start.totalBytesReceived + total Prod.snd (done.filterMap ProfileEdit.traffic?)

theorem targetOf_targetOf (id target : String) :
    targetOf id (targetOf id target) = targetOf id target := by
  have hne : (profileTarget id).isEmpty = false := by
    simp [profileTarget, credentialTargetPrefix]
  unfold targetOf
  split
  next => rw [if_neg (by rw [hne]; decide)]
  next => rfl

theorem reflects_foldr (id : String) (start : Tracked) (done : List ProfileEdit) :
    Reflects id start done (done.foldr (ProfileEdit.track id) start) := by
  induction done with
  | nil => constructor <;> simp [total]
  | cons edit done ih =>
    rw [List.foldr_cons]
    generalize done.foldr (ProfileEdit.track id) start = v at ih
    cases edit with
    | favorite value => exact { ih with favorite := rfl }
    | rename name => exact { ih with name := rfl }
    | credentials userName password save =>
      refine { ih with userName := rfl, savePassword := rfl, credentialTarget := ?_ }
      show targetOf id v.credentialTarget = targetOf id start.credentialTarget
      rw [ih.credentialTarget]
      split
      · exact targetOf_targetOf id start.credentialTarget
      · rfl
    | connection now sent received =>
      refine { ih with connectCount := ?_, totalBytesSent := ?_, totalBytesReceived := ?_ }
      · show v.connectCount + 1 =
          start.connectCount + UInt64.ofNat ((done.filterMap ProfileEdit.traffic?).length + 1)
        rw [ih.connectCount, UInt64.ofNat_add, UInt64.add_assoc]
        rfl
      · show v.totalBytesSent + sent =
          start.totalBytesSent + (sent + total Prod.fst (done.filterMap ProfileEdit.traffic?))
        rw [ih.totalBytesSent, UInt64.add_assoc, UInt64.add_comm sent]
      · show v.totalBytesReceived + received = start.totalBytesReceived +
          (received + total Prod.snd (done.filterMap ProfileEdit.traffic?))
        rw [ih.totalBytesReceived, UInt64.add_assoc, UInt64.add_comm received]

/-- The stored profile reflects every edit that was reported as done. -/
theorem no_lost_update {id : String} {t : Tables} {start : Profile}
    (hstart : SqliteProfileStore.get t id = .ok start) {acts : List EditAct} {s' : Editors}
    (hok : RunMeets (Editors.step id) (Undisturbed id) { tables := t } acts)
    (hr : run (Editors.step id) { tables := t } acts = some s') :
    ∃ p, SqliteProfileStore.get s'.tables id = .ok p ∧
      Reflects id (tracked start) s'.done (tracked p) := by
  have hinit : EditsInv id (tracked start) { tables := t } :=
    ⟨⟨start, hstart, rfl⟩, fun _ _ _ h => by cases h⟩
  have hinv := run_invariant (fun _ _ _ h hok hs => h.step hok hs) hinit hok hr
  obtain ⟨p, hget, htracked⟩ := hinv.stored
  refine ⟨p, hget, ?_⟩
  rw [htracked]
  exact reflects_foldr id (tracked start) s'.done

/-- A database with one profile. -/
def oneProfile : Tables :=
  (SqliteProfileStore.add (SqliteProfileStore.plainProfile "a") "" 1 .ok .empty).1

theorem get_oneProfile : ∃ start, SqliteProfileStore.get oneProfile "a" = .ok start := by
  have hget : (SqliteProfileStore.get oneProfile "a").toOption.isSome = true := by decide +kernel
  obtain ⟨start, hstart⟩ := Option.isSome_iff_exists.mp hget
  exact ⟨start, Result.eq_ok_of_toOption hstart⟩

/-- One edit after another. -/
def editsInTurn : List EditAct :=
  [.get 0 (.favorite true) .ok, .update 0 2 .ok, .get 1 (.rename "b") .ok, .update 1 3 .ok]

theorem no_lost_update_in_turn : ∃ s' start p,
    SqliteProfileStore.get oneProfile "a" = .ok start ∧
      run (Editors.step "a") { tables := oneProfile } editsInTurn = some s' ∧
      SqliteProfileStore.get s'.tables "a" = .ok p ∧
      Reflects "a" (tracked start) s'.done (tracked p) := by
  have hrun : (run (Editors.step "a") { tables := oneProfile } editsInTurn).isSome = true := by
    decide +kernel
  obtain ⟨s', hs'⟩ := Option.isSome_iff_exists.mp hrun
  obtain ⟨start, hstart⟩ := get_oneProfile
  obtain ⟨p, hp, hreflects⟩ := no_lost_update hstart (by decide +kernel) hs'
  exact ⟨s', start, p, hstart, hs', hp, hreflects⟩

/-- Thread 1 reads before thread 0 writes. -/
def editsCrossed : List EditAct :=
  [.get 0 (.favorite true) .ok, .get 1 (.rename "b") .ok, .update 0 2 .ok, .update 1 3 .ok]

/-- Both edits are reported as done, and the profile is not a favourite. -/
theorem favorite_undone : ¬ ∀ id t start acts s',
    SqliteProfileStore.get t id = .ok start →
    run (Editors.step id) { tables := t } acts = some s' →
      ∃ p, SqliteProfileStore.get s'.tables id = .ok p ∧
        Reflects id (tracked start) s'.done (tracked p) := by
  intro h
  have hrun : (run (Editors.step "a") { tables := oneProfile } editsCrossed).map
      (fun s => (s.done.findSome? ProfileEdit.favorite?,
        (SqliteProfileStore.get s.tables "a").toOption.map fun p => p.metadata.favorite)) =
        some (some true, some false) := by decide +kernel
  obtain ⟨s', hs', heq⟩ := Option.map_eq_some_iff.mp hrun
  obtain ⟨hdone, hfavorite⟩ := Prod.mk.inj heq
  obtain ⟨start, hstart⟩ := get_oneProfile
  obtain ⟨p, hp, hreflects⟩ := h "a" oneProfile start editsCrossed s' hstart hs'
  have hfield : p.metadata.favorite = true := by
    have hfield := hreflects.favorite
    rw [hdone] at hfield
    exact hfield
  rw [hp] at hfavorite
  replace hfavorite : some p.metadata.favorite = some false := hfavorite
  rw [hfield] at hfavorite
  cases hfavorite

end NovaVpn.ServiceApi
