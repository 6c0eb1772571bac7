import Mathlib.Logic.Function.Basic
import NovaVpn.Core.Status
import NovaVpn.Core.Text
import NovaVpn.Framework.Machine

/-!
# The updater

`check`, `download`, `installStaged` and `discardStaged` of `Updater`, over files
whose contents anyone may change. The calls come one after the other, but a
change by someone else can come between any two steps of a call, so `download`
is cut at its checks and `installStaged` between its check and its entry into
`Installing`. The fetcher leaves any bytes at the path it is given and reports
what it likes. `sha256` and the Authenticode check are functions of the contents
of a file.
-/

namespace NovaVpn.Str

/-- `str::fromHex`. -/
def fromHex : List Char → Option (List UInt8)
  | [] => some []
  | [_] => none
  | c :: d :: rest =>
    (hexDigit c).bind fun hi => (hexDigit d).bind fun lo => (fromHex rest).map fun bytes =>
      UInt8.ofNat (hi * 16 + lo) :: bytes

end NovaVpn.Str

namespace NovaVpn.Updater

abbrev Bytes := List UInt8

/-- `ReleaseInfo`, the fields that the updater reads. -/
structure ReleaseInfo where
  version : String
  fullPackageUrl : String := ""
  fullPackageSha256 : String := ""
  deltaFromVersion : String := ""
  deltaPackageUrl : String := ""
  deltaPackageSha256 : String := ""
  minimumUpgradeFrom : String := ""
  deriving DecidableEq, Repr

/-- `UpdateStage`. -/
inductive UpdateStage where
  | idle | checkingManifest | verifyingManifest | downloading | verifyingPackage | applyingDelta
  | staging | readyToInstall | installing | failed
  deriving DecidableEq, Repr

/-- `UpdaterConfig`, without the address of the feed. -/
structure UpdaterConfig where
  stagingDir : String
  currentVersion : String
  allowDowngrade : Bool := false
  deriving DecidableEq, Repr

/-- What the updater is built over. -/
structure Setup where
  config : UpdaterConfig
  sha256 : Bytes → Bytes
  /-- Whether `WinVerifyTrust` accepts a file with these contents, or its error. -/
  winVerifyTrust : Bytes → UInt32
  /-- `verifyManifest`. -/
  verifyManifest : Bytes → Bytes → Status := fun _ _ => .ok
  /-- `parseManifest`. -/
  parseManifest : Bytes → Result ReleaseInfo := fun _ => .error (Err.parse "")

/-! ## Checking for a release -/

/-- One character of a version: the parts that are complete, at most four, and
the one being read. -/
def ordinalStep (parts : List UInt64 × UInt64) (c : Char) : List UInt64 × UInt64 :=
  if c = '.' then (if parts.1.length < 4 then parts.1 ++ [parts.2] else parts.1, 0)
  else match Str.decimalDigit c with
    | some d => (parts.1, parts.2 * 10 + UInt64.ofNat d)
    | none => parts

/-- `ordinal` in `compareVersions`. -/
def ordinal (v : String) : UInt64 :=
  let read := v.toList.foldl ordinalStep ([], 0)
  let parts := if read.1.length < 4 then read.1 ++ [read.2] else read.1
  (parts.getD 0 0 <<< 48) ||| (parts.getD 1 0 <<< 32) ||| (parts.getD 2 0 <<< 16) |||
    parts.getD 3 0

/-- `compareVersions`. -/
def compareVersions (a b : String) : Ordering := compare (ordinal a) (ordinal b)

/-- `Updater::check`: the stage it leaves and what it returns, from what the
fetcher returned for the manifest and for its signature. -/
def check (k : Setup) (manifest signature : Result Bytes) : UpdateStage × Result ReleaseInfo :=
  match manifest, signature with
  | .error e, _ => (.failed, .error (e.withContext "fetching the manifest"))
  | .ok _, .error e => (.failed, .error (e.withContext "fetching the manifest signature"))
  | .ok payload, .ok sig =>
    let status := k.verifyManifest payload sig
    if status.isError then
      (.failed, .error (status.withContext "verifying the manifest signature"))
    else match k.parseManifest payload with
      | .error e => (.failed, .error e)
      | .ok release =>
        let cmp := compareVersions release.version k.config.currentVersion
        if cmp = .eq ∨ (cmp = .lt ∧ k.config.allowDowngrade = false) then
          (.idle, .error (Err.make .updateUnavailable
            ("already up to date (" ++ k.config.currentVersion ++ ")")))
        else if release.minimumUpgradeFrom ≠ "" ∧
            compareVersions k.config.currentVersion release.minimumUpgradeFrom = .lt then
          (.failed, .error (Err.make .updateApply
            ("this build is too old to upgrade directly to " ++ release.version)))
        else (.idle, .ok release)

/-! ## Verifying a package -/

/-- Whether `download` takes the delta. -/
def useDelta (c : UpdaterConfig) (r : ReleaseInfo) : Bool :=
  r.deltaPackageUrl ≠ "" ∧ r.deltaFromVersion = c.currentVersion

def expectedHash (c : UpdaterConfig) (r : ReleaseInfo) : String :=
  if useDelta c r then r.deltaPackageSha256 else r.fullPackageSha256

/-- `staged` in `download`. -/
def stagedPath (c : UpdaterConfig) (r : ReleaseInfo) : String :=
  c.stagingDir ++ "\\" ++ "NovaVPN-" ++ r.version ++
    (if useDelta c r then "-delta.pkg" else ".pkg")

/-- The contents hash to the package hash of the release. -/
def Setup.hashes (k : Setup) (b : Bytes) (r : ReleaseInfo) : Bool :=
  match Str.fromHex (expectedHash k.config r).toList with
  | some expected => expected.length = 32 ∧ k.sha256 b = expected
  | none => false

/-- The contents pass the Authenticode check. -/
def Setup.authentic (k : Setup) (b : Bytes) : Bool := k.winVerifyTrust b = 0

/-- `ERROR_FILE_NOT_FOUND`. -/
def errorFileNotFound : UInt32 := 2

/-- A status that is an error. -/
abbrev Failure := { status : Status // status.isError = true }

/-- `verifyHash` of a release's package; `read` is what `sha256File` could read. -/
def Setup.verifyHash (k : Setup) (read : Result Bytes) (r : ReleaseInfo) : Status :=
  match read with
  | .error e => e
  | .ok b =>
    match Str.fromHex (expectedHash k.config r).toList with
    | none => Err.invalidArgument "expected hash is not a 32-byte hex string"
    | some expected =>
      if expected.length ≠ 32 then
        Err.invalidArgument "expected hash is not a 32-byte hex string"
      else if k.sha256 b ≠ expected then
        Err.make .checksumMismatch "file hash does not match the expected value"
      else .ok

/-- `verifyAuthenticode` of a file with these contents. -/
def Setup.verifyAuthenticode (k : Setup) (path : String) (contents : Option Bytes) : Status :=
  let result := match contents with
    | some b => k.winVerifyTrust b
    | none => errorFileNotFound
  if result ≠ 0 then
    { code := .signatureInvalid
      message := "Authenticode verification failed for " ++ path
      platformCode := result }
  else .ok

/-- `secureDelete`: the file is gone or, if it failed, some of its bytes have been
overwritten. -/
def secureDelete (failed : Option Nat) (contents : Option Bytes) : Option Bytes :=
  match failed, contents with
  | some n, some b => some (List.replicate (min n b.length) 0 ++ b.drop n)
  | _, _ => none

/-! ## The calls, step by step -/

/-- Where the call in progress stands. -/
inductive Call where
  | idle
  /-- `download`, in the fetcher; before `verifyHash`; before
  `verifyAuthenticode`; past it. -/
  | fetching (r : ReleaseInfo)
  | fetched (r : ReleaseInfo)
  | hashed (r : ReleaseInfo)
  | signed (r : ReleaseInfo)
  /-- `installStaged`, past its check. -/
  | installing (package : String)
  deriving DecidableEq, Repr

structure State where
  files : String → Option Bytes
  stage : UpdateStage := .idle
  stagedPackage : Option String := none
  stagedVersion : String := ""
  call : Call := .idle
  /-- The releases whose `download` returned ok. -/
  accepted : List ReleaseInfo := []
  /-- What the last call that returned a status returned. -/
  returned : Status := .ok

inductive Act where
  /-- Someone else writes or removes a file. -/
  | change (path : String) (contents : Option Bytes)
  | check (manifest signature : Result Bytes)
  /-- `download` is called; `directory` is what `ensureDirectory` returns. -/
  | download (r : ReleaseInfo) (directory : Status)
  /-- The fetcher returns `status`, and leaves these contents. -/
  | fetch (contents : Option Bytes) (status : Status)
  /-- `unreadable` if the file cannot be read. -/
  | verifyHash (unreadable : Option Failure) (deleteFailed : Option Nat)
  | verifyAuthenticode (deleteFailed : Option Nat)
  | stagePackage
  | install
  | enterInstalling
  | discard (deleteFailed : Option Nat)

namespace State

def put (s : State) (path : String) (contents : Option Bytes) : State :=
  { s with files := Function.update s.files path contents }

def ret (s : State) (status : Status) : State := { s with call := .idle, returned := status }

/-- A check of `download` failed: the package is deleted. -/
def reject (s : State) (path : String) (deleteFailed : Option Nat) (status : Status) : State :=
  { s.put path (secureDelete deleteFailed (s.files path)) with stage := .failed }.ret status

/-- What reading a file gives. -/
def read (s : State) (path : String) (unreadable : Option Failure) : Result Bytes :=
  match unreadable, s.files path with
  | some e, _ => .error e
  | none, none => .error (Win.fromWin32 errorFileNotFound ("CreateFile(" ++ path ++ ")"))
  | none, some b => .ok b

def step (k : Setup) (s : State) : Act → Option State
  | .change path contents => some (s.put path contents)
  | .check manifest signature =>
    match s.call with
    | .idle =>
      let checked := check k manifest signature
      some ({ s with stage := checked.1 }.ret (match checked.2 with | .ok _ => .ok | .error e => e))
    | _ => none
  | .download r directory =>
    match s.call with
    | .idle =>
      if directory.isError then some (s.ret directory)
      else some { s with stage := .downloading, call := .fetching r }
    | _ => none
  | .fetch contents status =>
    match s.call with
    | .fetching r =>
      let s := s.put (stagedPath k.config r) contents
      if status.isError then
        some ({ s with stage := .failed }.ret (status.withContext "downloading the package"))
      else some { s with stage := .verifyingPackage, call := .fetched r }
    | _ => none
  | .verifyHash unreadable deleteFailed =>
    match s.call with
    | .fetched r =>
      let path := stagedPath k.config r
      let status := k.verifyHash (s.read path unreadable) r
      if status.isError then
        some (s.reject path deleteFailed (status.withContext "verifying the package hash"))
      else some { s with call := .hashed r }
    | _ => none
  | .verifyAuthenticode deleteFailed =>
    match s.call with
    | .hashed r =>
      let path := stagedPath k.config r
      let status := k.verifyAuthenticode path (s.files path)
      if status.isError then
        some (s.reject path deleteFailed (status.withContext "verifying the package signature"))
      else some { s with call := .signed r }
    | _ => none
  | .stagePackage =>
    match s.call with
    | .signed r =>
      some ({ s with
        stagedPackage := some (stagedPath k.config r)
        stagedVersion := r.version
        stage := .readyToInstall
        accepted := r :: s.accepted }.ret .ok)
    | _ => none
  | .install =>
    match s.call with
    | .idle =>
      match s.stagedPackage with
      | none => some (s.ret (Err.invalidState "no staged package to install"))
      | some package =>
        if s.files package = none then
          some (s.ret (Err.invalidState "no staged package to install"))
        else
          let status := k.verifyAuthenticode package (s.files package)
          if status.isError then
            some (s.ret (status.withContext "re-verifying the staged package"))
          else some { s with call := .installing package }
    | _ => none
  | .enterInstalling =>
    match s.call with
    | .installing package =>
      some ({ s with stage := .installing }.ret (Err.make .notImplemented
        ("installer hand-off requires the MSI package (Phase 8); the update is " ++
          "downloaded and verified at " ++ package)))
    | _ => none
  | .discard deleteFailed =>
    match s.call with
    | .idle =>
      let s' := match s.stagedPackage with
        | some package => s.put package (secureDelete deleteFailed (s.files package))
        | none => s
      some ({ s' with stagedPackage := none, stagedVersion := "", stage := .idle }.ret .ok)
    | _ => none

end State

end NovaVpn.Updater
