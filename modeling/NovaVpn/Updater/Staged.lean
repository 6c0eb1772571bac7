import NovaVpn.Updater.Updater

/-!
# What is installed

`installStaged` checks the signature of the staged file again and not its hash,
so what it enters `Installing` with is a package whose hash was verified only if
nobody put another signed file in its place. `installed_verified` says for which
changes, by others or by a download that fails, this holds.
-/

namespace NovaVpn.Updater

variable {k : Setup}

/-- A file with these contents is not installed, or its hash is that of one of the
releases. -/
def Setup.harmless (k : Setup) (rs : List ReleaseInfo) : Option Bytes → Bool
  | none => true
  | some b => !k.authentic b || rs.any (k.hashes b)

/-- The contents pass the Authenticode check and hash to one of the releases. -/
def Setup.verified (k : Setup) (rs : List ReleaseInfo) : Option Bytes → Bool
  | none => false
  | some b => k.authentic b && rs.any (k.hashes b)

/-- The release being downloaded. -/
def Call.release : Call → Option ReleaseInfo
  | .fetching r | .fetched r | .hashed r | .signed r => some r
  | .idle | .installing _ => none

/-- The same, once its hash was verified. -/
def Call.checked : Call → Option ReleaseInfo
  | .hashed r | .signed r => some r
  | _ => none

namespace State

/-- The path is that of the package being downloaded. -/
def downloadsTo (k : Setup) (s : State) (path : String) : Bool :=
  s.call.release.any fun r => stagedPath k.config r = path

/-- The staged package may have these contents, while no call is in progress. -/
def allowsStaged (k : Setup) (s : State) (path : String) (contents : Option Bytes) : Bool :=
  s.stagedPackage ≠ some path || k.harmless s.accepted contents

/-- The file at the path may have these contents: the staged package, unless it is
being downloaded again, and a package whose hash was verified. -/
def allows (k : Setup) (s : State) (path : String) (contents : Option Bytes) : Bool :=
  (s.downloadsTo k path || s.allowsStaged k path contents) &&
    s.call.checked.all fun r =>
      stagedPath k.config r ≠ path || k.harmless (r :: s.accepted) contents

/-- What is asked of a step: a change by someone else, and what a download that
fails leaves behind, is one that the file may have; and between the check of
`installStaged` and its entry into `Installing` a change leaves a verified
file. -/
def ok (k : Setup) (s : State) : Act → Bool
  | .change path contents =>
    s.allows k path contents && (s.call ≠ .installing path || k.verified s.accepted contents)
  | .fetch contents status =>
    match s.call with
    | .fetching r => status.isOk || s.allowsStaged k (stagedPath k.config r) contents
    | _ => true
  | .verifyHash unreadable deleteFailed =>
    match s.call with
    | .fetched r =>
      let path := stagedPath k.config r
      (k.verifyHash (s.read path unreadable) r).isOk ||
        s.allowsStaged k path (secureDelete deleteFailed (s.files path))
    | _ => true
  | .verifyAuthenticode deleteFailed =>
    match s.call with
    | .hashed r =>
      let path := stagedPath k.config r
      (k.verifyAuthenticode path (s.files path)).isOk ||
        s.allowsStaged k path (secureDelete deleteFailed (s.files path))
    | _ => true
  | _ => true

def Ok (k : Setup) (s : State) (a : Act) : Prop := s.ok k a = true

instance (k : Setup) (s : State) (a : Act) : Decidable (s.Ok k a) :=
  inferInstanceAs (Decidable (_ = _))

/-- The invariant: no file has contents that it may not have, and what is about to
be installed is verified. -/
structure Guarded (k : Setup) (s : State) : Prop where
  allowed : ∀ path, s.allows k path (s.files path) = true
  ready : ∀ package, s.call = .installing package →
    s.stagedPackage = some package ∧ k.verified s.accepted (s.files package) = true

/-! ## The checks -/

theorem verifyHash_isError {s : State} {path : String} {unreadable : Option Failure}
    {r : ReleaseInfo} (h : (k.verifyHash (s.read path unreadable) r).isError = false) :
    ∃ b, s.files path = some b ∧ k.hashes b r = true := by
  cases unreadable with
  | some e =>
    simp only [read, Setup.verifyHash] at h
    exact absurd e.2 (by simp [h])
  | none =>
    cases hf : s.files path with
    | none =>
      simp only [read, hf, Setup.verifyHash] at h
      cases h
    | some b =>
      refine ⟨b, rfl, ?_⟩
      simp only [read, hf, Setup.verifyHash] at h
      unfold Setup.hashes
      cases hx : Str.fromHex (expectedHash k.config r).toList with
      | none =>
        rw [hx] at h
        cases h
      | some expected =>
        rw [hx] at h
        dsimp only at h ⊢
        split at h
        · cases h
        · split at h
          · cases h
          · simp_all

theorem verifyAuthenticode_isError {path : String} {contents : Option Bytes}
    (h : (k.verifyAuthenticode path contents).isError = false) :
    ∃ b, contents = some b ∧ k.authentic b = true := by
  unfold Setup.verifyAuthenticode at h
  cases contents with
  | none => cases h
  | some b =>
    refine ⟨b, rfl, ?_⟩
    unfold Setup.authentic
    by_contra hne
    simp only [decide_eq_true_eq] at hne
    simp [hne, Status.isError] at h

/-! ## What a step keeps -/

theorem allows_iff {s : State} {path : String} {contents : Option Bytes} :
    s.allows k path contents = true ↔
      (s.stagedPackage = some path → s.downloadsTo k path = false →
        k.harmless s.accepted contents = true) ∧
      ∀ r, s.call.checked = some r → stagedPath k.config r = path →
        k.harmless (r :: s.accepted) contents = true := by
  simp only [allows, allowsStaged, Bool.and_eq_true, Bool.or_eq_true, decide_eq_true_eq]
  refine and_congr ?_ ?_
  · cases s.downloadsTo k path <;> by_cases h : s.stagedPackage = some path <;> simp [h]
  · cases s.call.checked with
    | none => simp
    | some r => by_cases h : stagedPath k.config r = path <;> simp [h]

theorem allows_put {s : State} {path : String} {contents : Option Bytes}
    (hs : ∀ q, s.allows k q (s.files q) = true) (h : s.allows k path contents = true) (q : String) :
    s.allows k q ((s.put path contents).files q) = true := by
  by_cases hq : q = path
  · subst hq
    simpa [put] using h
  · simpa [put, hq] using hs q

/-- A call returns: the staged package is the only file still watched. -/
theorem guarded_idle {s : State} (hcall : s.call = .idle)
    (h : ∀ path, s.stagedPackage = some path → k.harmless s.accepted (s.files path) = true) :
    Guarded k s := by
  refine ⟨fun path => allows_iff.mpr ⟨fun hp _ => h path hp, fun r hr => ?_⟩, fun package hp => ?_⟩
  · rw [hcall] at hr
    cases hr
  · rw [hcall] at hp
    cases hp

theorem Guarded.idle {s : State} (hs : Guarded k s) (hcall : s.call.release = none) {path : String}
    (h : s.stagedPackage = some path) : k.harmless s.accepted (s.files path) = true :=
  (allows_iff.mp (hs.allowed path)).1 h (by simp [downloadsTo, hcall])

/-- A call that is no download returns, and has changed neither the files nor what
is staged. -/
theorem Guarded.returns {s s' : State} (hs : Guarded k s) (hcall : s.call.release = none)
    (hcall' : s'.call = .idle) (hstaged : s'.stagedPackage = s.stagedPackage)
    (haccepted : s'.accepted = s.accepted) (hfiles : s'.files = s.files) : Guarded k s' := by
  refine guarded_idle hcall' fun path hp => ?_
  rw [haccepted, hfiles]
  exact hs.idle hcall (hstaged ▸ hp)

/-- A download fails with a status, and leaves at its path what a staged package may
have. -/
theorem Guarded.fails {s : State} {r : ReleaseInfo} {contents : Option Bytes} {stage : UpdateStage}
    {status returned : Status} (hs : Guarded k s) (hcall : s.call.release = some r)
    (herr : status.isError = true)
    (hok : (status.isOk || s.allowsStaged k (stagedPath k.config r) contents) = true) :
    Guarded k ({ s.put (stagedPath k.config r) contents with stage := stage }.ret returned) := by
  have h : s.allowsStaged k (stagedPath k.config r) contents = true := by
    rw [Status.isError_eq_not_isOk, Bool.not_eq_true'] at herr
    simpa [herr] using hok
  refine guarded_idle rfl fun path hp => ?_
  replace hp : s.stagedPackage = some path := hp
  by_cases hq : path = stagedPath k.config r
  · subst hq
    simpa [allowsStaged, hp, put, ret] using h
  · have hto : s.downloadsTo k path = false := by simp [downloadsTo, hcall, Ne.symm hq]
    simpa [put, ret, hq] using (allows_iff.mp (hs.allowed path)).1 hp hto

/-- A download goes on: the files it does not write to are watched as before, and
its package as the step says. -/
theorem Guarded.goesOn {s s' : State} {r : ReleaseInfo} (hs : Guarded k s)
    (hcall : s.call.release = none ∨ s.call.release = some r) (hcall' : s'.call.release = some r)
    (hstaged : s'.stagedPackage = s.stagedPackage) (haccepted : s'.accepted = s.accepted)
    (hfiles : ∀ path, path ≠ stagedPath k.config r → s'.files path = s.files path)
    (hchecked : s'.call.checked = some r →
      k.harmless (r :: s.accepted) (s'.files (stagedPath k.config r)) = true) : Guarded k s' := by
  refine ⟨fun path => allows_iff.mpr ⟨fun hp hto => ?_, fun r' hr' hpath => ?_⟩, fun package hp => ?_⟩
  · have hne : path ≠ stagedPath k.config r := by
      rintro rfl
      simp [downloadsTo, hcall'] at hto
    have hto' : s.downloadsTo k path = false := by
      rcases hcall with h | h
      · simp [downloadsTo, h]
      · simp [downloadsTo, h, Ne.symm hne]
    rw [haccepted, hfiles path hne]
    exact (allows_iff.mp (hs.allowed path)).1 (hstaged ▸ hp) hto'
  · have hr : r' = r := by
      cases hc : s'.call <;> simp_all [Call.checked, Call.release]
    subst hr
    subst hpath
    rw [haccepted]
    exact hchecked hr'
  · rw [hp] at hcall'
    cases hcall'

theorem Guarded.change {s : State} {path : String} {contents : Option Bytes} (hs : Guarded k s)
    (hok : s.Ok k (.change path contents)) : Guarded k (s.put path contents) := by
  simp only [Ok, ok, Bool.and_eq_true, Bool.or_eq_true, decide_eq_true_eq] at hok
  refine ⟨allows_put hs.allowed hok.1, fun package hp => ⟨(hs.ready package hp).1, ?_⟩⟩
  by_cases hq : package = path
  · subst hq
    rcases hok.2 with hne | hv
    · exact absurd hp hne
    · simpa [put] using hv
  · simpa [put, hq] using (hs.ready package hp).2

/-- The staged package passes the check of `installStaged`: it was harmless, and so
it is verified. -/
theorem Guarded.installing {s : State} {package : String} (hs : Guarded k s)
    (hcall : s.call.release = none) (hpackage : s.stagedPackage = some package)
    (h : (k.verifyAuthenticode package (s.files package)).isError = false) :
    Guarded k { s with call := .installing package } := by
  refine ⟨fun path => allows_iff.mpr ⟨fun hp _ => hs.idle hcall hp, fun r hr => by cases hr⟩,
    fun p hp => ?_⟩
  cases hp
  refine ⟨hpackage, ?_⟩
  obtain ⟨b, hb, hauth⟩ := verifyAuthenticode_isError h
  have hharmless := hs.idle hcall hpackage
  simpa [hb, Setup.harmless, Setup.verified, hauth] using hharmless

theorem Guarded.check {s s' : State} {manifest signature : Result Bytes} (hs : Guarded k s)
    (h : s.step k (.check manifest signature) = some s') : Guarded k s' := by
  simp only [step] at h
  split at h
  · rename_i hcall
    cases h
    exact hs.returns (by rw [hcall]; rfl) rfl rfl rfl rfl
  · cases h

theorem Guarded.download {s s' : State} {r : ReleaseInfo} {directory : Status} (hs : Guarded k s)
    (h : s.step k (.download r directory) = some s') : Guarded k s' := by
  simp only [step] at h
  split at h
  · rename_i hcall
    have hrel : s.call.release = none := by rw [hcall]; rfl
    split at h
    · cases h
      exact hs.returns hrel rfl rfl rfl rfl
    · cases h
      exact hs.goesOn (r := r) (.inl hrel) rfl rfl rfl (fun _ _ => rfl) (fun h => by cases h)
  · cases h

theorem Guarded.fetch {s s' : State} {contents : Option Bytes} {status : Status} (hs : Guarded k s)
    (hok : s.Ok k (.fetch contents status)) (h : s.step k (.fetch contents status) = some s') :
    Guarded k s' := by
  simp only [step] at h
  split at h
  · rename_i r hcall
    have hrel : s.call.release = some r := by rw [hcall]; rfl
    simp only [Ok, ok, hcall] at hok
    split at h
    · rename_i herr
      cases h
      exact hs.fails hrel herr hok
    · cases h
      exact hs.goesOn (r := r) (.inr hrel) rfl rfl rfl (fun path hne => by simp [put, hne])
        (fun h => by cases h)
  · cases h

theorem Guarded.verifyHash {s s' : State} {unreadable : Option Failure} {deleteFailed : Option Nat}
    (hs : Guarded k s) (hok : s.Ok k (.verifyHash unreadable deleteFailed))
    (h : s.step k (.verifyHash unreadable deleteFailed) = some s') : Guarded k s' := by
  simp only [step] at h
  split at h
  · rename_i r hcall
    have hrel : s.call.release = some r := by rw [hcall]; rfl
    simp only [Ok, ok, hcall] at hok
    split at h
    · rename_i herr
      cases h
      exact hs.fails hrel herr hok
    · rename_i herr
      cases h
      obtain ⟨b, hb, hh⟩ := verifyHash_isError (eq_false_of_ne_true herr)
      refine hs.goesOn (r := r) (.inr hrel) rfl rfl rfl (fun _ _ => rfl) fun _ => ?_
      simp [hb, Setup.harmless, hh]
  · cases h

theorem Guarded.verifyAuthenticode {s s' : State} {deleteFailed : Option Nat} (hs : Guarded k s)
    (hok : s.Ok k (.verifyAuthenticode deleteFailed))
    (h : s.step k (.verifyAuthenticode deleteFailed) = some s') : Guarded k s' := by
  simp only [step] at h
  split at h
  · rename_i r hcall
    have hrel : s.call.release = some r := by rw [hcall]; rfl
    simp only [Ok, ok, hcall] at hok
    split at h
    · rename_i herr
      cases h
      exact hs.fails hrel herr hok
    · cases h
      refine hs.goesOn (r := r) (.inr hrel) rfl rfl rfl (fun _ _ => rfl) fun _ => ?_
      exact (allows_iff.mp (hs.allowed _)).2 r (by rw [hcall]; rfl) rfl
  · cases h

theorem Guarded.stagePackage {s s' : State} (hs : Guarded k s)
    (h : s.step k .stagePackage = some s') : Guarded k s' := by
  simp only [step] at h
  split at h
  · rename_i r hcall
    cases h
    -- from here on the package counts as accepted
    refine guarded_idle rfl fun path hp => ?_
    cases hp
    exact (allows_iff.mp (hs.allowed _)).2 r (by rw [hcall]; rfl) rfl
  · cases h

theorem Guarded.install {s s' : State} (hs : Guarded k s)
    (h : s.step k .install = some s') : Guarded k s' := by
  simp only [step] at h
  split at h
  · rename_i hcall
    have hrel : s.call.release = none := by rw [hcall]; rfl
    split at h
    · cases h
      exact hs.returns hrel rfl rfl rfl rfl
    · rename_i package hpackage
      split at h
      · cases h
        exact hs.returns hrel rfl rfl rfl rfl
      · split at h
        · cases h
          exact hs.returns hrel rfl rfl rfl rfl
        · rename_i herr
          cases h
          exact hs.installing hrel hpackage (eq_false_of_ne_true herr)
  · cases h

theorem Guarded.enterInstalling {s s' : State} (hs : Guarded k s)
    (h : s.step k .enterInstalling = some s') : Guarded k s' := by
  simp only [step] at h
  split at h
  · rename_i package hcall
    cases h
    exact hs.returns (by rw [hcall]; rfl) rfl rfl rfl rfl
  · cases h

theorem step_guarded {s s' : State} {a : Act} (hs : Guarded k s) (hok : s.Ok k a)
    (h : s.step k a = some s') : Guarded k s' := by
  cases a with
  | change path contents =>
    cases h
    exact hs.change hok
  | check manifest signature => exact hs.check h
  | download r directory => exact hs.download h
  | fetch contents status => exact hs.fetch hok h
  | verifyHash unreadable deleteFailed => exact hs.verifyHash hok h
  | verifyAuthenticode deleteFailed => exact hs.verifyAuthenticode hok h
  | stagePackage => exact hs.stagePackage h
  | install => exact hs.install h
  | enterInstalling => exact hs.enterInstalling h
  | discard deleteFailed =>
    simp only [step] at h
    split at h
    · cases h
      exact guarded_idle rfl fun path hp => (by cases hp)
    · cases h

theorem run_guarded {s s' : State} {acts : List Act} (hs : Guarded k s)
    (hok : Framework.RunMeets (step k) (Ok k) s acts) (hr : Framework.run (step k) s acts = some s') :
    Guarded k s' :=
  Framework.run_invariant (fun _ _ _ h hok h' => step_guarded h hok h') hs hok hr

/-- An updater that has just been made, over any files. -/
def initial (files : String → Option Bytes) : State := { files }

theorem guarded_initial (files : String → Option Bytes) : Guarded k (initial files) :=
  guarded_idle rfl fun path hp => (by cases hp)

/-- The staged file has the package hash of a release whose download returned ok,
and passes the Authenticode check. -/
def Verified (k : Setup) (s : State) : Prop :=
  ∃ package b r, s.stagedPackage = some package ∧ s.files package = some b ∧ r ∈ s.accepted ∧
    k.hashes b r = true ∧ k.authentic b = true

theorem verified_iff {s : State} : Verified k s ↔
    (s.stagedPackage.any fun package => k.verified s.accepted (s.files package)) = true := by
  simp only [Verified, Option.any_eq_true]
  constructor
  · rintro ⟨package, b, r, hp, hb, hmem, hh, hauth⟩
    refine ⟨package, hp, ?_⟩
    simp only [hb, Setup.verified, Bool.and_eq_true, List.any_eq_true]
    exact ⟨hauth, r, hmem, hh⟩
  · rintro ⟨package, hp, hv⟩
    cases hb : s.files package with
    | none =>
      rw [hb] at hv
      cases hv
    | some b =>
      simp only [hb, Setup.verified, Bool.and_eq_true, List.any_eq_true] at hv
      obtain ⟨hauth, r, hmem, hh⟩ := hv
      exact ⟨package, b, r, hp, hb, hmem, hh, hauth⟩

/-- Whatever the fetcher and others do to the files, in any run whose steps meet
the condition only verified contents are installed. -/
theorem installed_verified {files : String → Option Bytes} {acts : List Act} {s s' : State}
    (hok : Framework.RunMeets (step k) (Ok k) (initial files) acts)
    (hr : Framework.run (step k) (initial files) acts = some s)
    (h : s.step k .enterInstalling = some s') : Verified k s := by
  have hs := run_guarded (guarded_initial files) hok hr
  simp only [step] at h
  split at h
  · rename_i package hcall
    obtain ⟨hstaged, hv⟩ := hs.ready package hcall
    exact verified_iff.mpr (by simp [hstaged, hv])
  · cases h

/-! ## A release and two signed files -/

/-- `SHA-256` of the empty file and of `abc`. -/
def sampleSha256 (b : Bytes) : Bytes :=
  let hex := if b = [] then "e3b0c44298fc1c149afbf4c8996fb92427ae41e4649b934ca495991b7852b855"
    else if b = [97, 98, 99] then
      "ba7816bf8f01cfea414140de5dae2223b00361a396177a9cb410ff61f20015ad"
    else ""
  (Str.fromHex hex.toList).getD []

/-- A setup in which both are signed. -/
def sampleSetup : Setup where
  config := { stagingDir := "C:\\staging", currentVersion := "1.0.0" }
  sha256 := sampleSha256
  winVerifyTrust := fun _ => 0

/-- A release whose package is `abc`. -/
def sampleRelease : ReleaseInfo where
  version := "2.0.0"
  fullPackageUrl := "https://updates/2.0.0.pkg"
  fullPackageSha256 := "ba7816bf8f01cfea414140de5dae2223b00361a396177a9cb410ff61f20015ad"

/-- The release is downloaded. -/
def sampleDownload : List Act :=
  [.download sampleRelease .ok, .fetch (some [97, 98, 99]) .ok, .verifyHash none none,
    .verifyAuthenticode none, .stagePackage]

theorem installed_verified_sample :
    ∃ s s', Framework.run (step sampleSetup) (initial fun _ => none)
        (sampleDownload ++ [.install]) = some s ∧
      s.step sampleSetup .enterInstalling = some s' ∧ Verified sampleSetup s := by
  have hok : Framework.RunMeets (step sampleSetup) (Ok sampleSetup) (initial fun _ => none)
      (sampleDownload ++ [.install]) := by
    decide +kernel
  refine ⟨_, _, rfl, rfl, ?_⟩
  exact installed_verified hok rfl rfl

/-- Another signed file in the place of the staged one is installed. -/
theorem tampered_installed :
    ∃ s s', Framework.run (step sampleSetup) (initial fun _ => none)
        (sampleDownload ++
          [.change (stagedPath sampleSetup.config sampleRelease) (some []), .install]) = some s ∧
      s.step sampleSetup .enterInstalling = some s' ∧ ¬Verified sampleSetup s := by
  refine ⟨_, _, rfl, rfl, ?_⟩
  rw [verified_iff]
  decide +kernel

end State

end NovaVpn.Updater
