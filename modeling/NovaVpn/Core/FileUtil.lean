import Mathlib.Logic.Function.Basic
import NovaVpn.Core.Status
import NovaVpn.Framework.Bits
import NovaVpn.Framework.Prog

/-!
# Replacing a file

`writeAtomicBytes` of `Core/FileUtil.cpp`: the new contents go to a sibling
temporary file, are flushed, and the file is swapped into place. Every Win32
call may fail as it is documented to, and a crash may fall between any two.
`ReplaceFileW` without a backup name has two failures after which the replaced
file is gone from its name, and the clean-up then deletes the only copy of the
new contents; without these two the old or the new contents are always there
(`replaced_iff`). Whatever happens, a call that fails leaves at the path what was
there or nothing (`writeAtomicBytes_leaves`).
-/

namespace NovaVpn.FileUtil

open NovaVpn.Framework

/-- A file's contents, and whether they are on stable storage. -/
structure File where
  bytes : List Byte
  flushed : Bool
  deriving DecidableEq, Repr

/-- The files, by their paths. -/
abbrev Disk := String → Option File

/-- What `GetLastError` reports of a call that failed. -/
abbrev LastError := { code : UInt32 // code ≠ Win.noError }

namespace LastError

def fileNotFound : LastError := ⟨2, by decide⟩
/-- `ERROR_UNABLE_TO_MOVE_REPLACEMENT`. -/
def unableToMoveReplacement : LastError := ⟨1176, by decide⟩
/-- `ERROR_UNABLE_TO_MOVE_REPLACEMENT_2`. -/
def unableToMoveReplacement2 : LastError := ⟨1177, by decide⟩

end LastError

/-- What `ReplaceFileW` does to two files that exist, without a backup name. -/
inductive ReplaceOutcome where
  | replaced
  /-- Both files retain their names. -/
  | kept (code : LastError)
  /-- The replaced file no longer exists. -/
  | removed
  /-- The replaced file still exists under a different name. -/
  | renamed (other : String)

/-- The replaced file is still under its name when the call has failed. -/
def ReplaceOutcome.KeepsName : ReplaceOutcome → Prop
  | .replaced | .kept _ => True
  | .removed | .renamed _ => False

namespace Disk

variable (d : Disk)

/-- `CreateFileW` with `CREATE_ALWAYS`. -/
def createFile (name : String) : Option LastError → Option LastError × Disk
  | none => (none, Function.update d name (some ⟨[], false⟩))
  | some code => (some code, d)

/-- `WriteFile` writes some of the bytes, also when it fails. -/
def writeFile (name : String) (bytes : List Byte) (o : Option LastError × Nat) :
    Except LastError Nat × Disk :=
  let written := bytes.take o.2
  (match o.1 with
    | none => .ok written.length
    | some code => .error code,
    Function.update d name ((d name).map fun file => ⟨file.bytes ++ written, false⟩))

def flushFileBuffers (name : String) : Option LastError → Option LastError × Disk
  | none => (none, Function.update d name ((d name).map fun file => { file with flushed := true }))
  | some code => (some code, d)

/-- `std::filesystem::exists`, which answers no when it cannot tell. -/
def pathExists (name : String) (known : Bool) : Bool × Disk := ((d name).isSome && known, d)

def replaceFile (replaced replacement : String) (o : ReplaceOutcome) : Option LastError × Disk :=
  match d replaced, d replacement with
  | some old, some new =>
    match o with
    | .replaced => (none, Function.update (Function.update d replaced (some new)) replacement none)
    | .kept code => (some code, d)
    | .removed => (some LastError.unableToMoveReplacement, Function.update d replaced none)
    | .renamed other =>
      (some LastError.unableToMoveReplacement2,
        Function.update (Function.update d other (some old)) replaced none)
  | _, _ => (some LastError.fileNotFound, d)

/-- `MoveFileExW` with `MOVEFILE_REPLACE_EXISTING`. -/
def moveFile (source target : String) (o : Option LastError) : Option LastError × Disk :=
  match d source, o with
  | some file, none => (none, Function.update (Function.update d target (some file)) source none)
  | some _, some code => (some code, d)
  | none, _ => (some LastError.fileNotFound, d)

def deleteFile (name : String) : Option LastError → Option LastError × Disk
  | none => (none, Function.update d name none)
  | some code => (some code, d)

end Disk

/-! ## The calls -/

inductive FileCall where
  | createDirectories (directory : String)
  | isDirectory (directory : String)
  | createFile (name : String)
  | writeFile (name : String) (bytes : List Byte)
  | flushFileBuffers (name : String)
  | closeHandle (name : String)
  | pathExists (name : String)
  | replaceFile (replaced replacement : String)
  | moveFile (source target : String)
  | deleteFile (name : String)

@[reducible] def fileApi : Api where
  Call := FileCall
  Ans
    -- whether there was an error
    | .createDirectories _ => Bool
    -- the answer, and the message the error code holds then
    | .isDirectory _ => Bool × String
    | .writeFile _ _ => Except LastError Nat
    | .closeHandle _ => Unit
    | .pathExists _ => Bool
    | .createFile _ | .flushFileBuffers _ | .replaceFile _ _ | .moveFile _ _ | .deleteFile _ =>
      Option LastError

@[reducible] def fileEnv : Env fileApi Disk where
  Outcome
    | .createDirectories _ => Bool
    | .isDirectory _ => Bool × String
    | .writeFile _ _ => Option LastError × Nat
    | .closeHandle _ => Unit
    | .pathExists _ => Bool
    | .replaceFile _ _ => ReplaceOutcome
    | .createFile _ | .flushFileBuffers _ | .moveFile _ _ | .deleteFile _ => Option LastError
  step
    | .createDirectories _, o, d => (o, d)
    | .isDirectory _, o, d => (o, d)
    | .createFile name, o, d => d.createFile name o
    | .writeFile name bytes, o, d => d.writeFile name bytes o
    | .flushFileBuffers name, o, d => d.flushFileBuffers name o
    | .closeHandle _, _, d => ((), d)
    | .pathExists name, o, d => d.pathExists name o
    | .replaceFile replaced replacement, o, d => d.replaceFile replaced replacement o
    | .moveFile source target, o, d => d.moveFile source target o
    | .deleteFile name, o, d => d.deleteFile name o

abbrev FileProg := Prog fileApi

/-- The program that makes one call. -/
def FileCall.perform (call : FileCall) : FileProg (fileApi.Ans call) :=
  Prog.perform (A := fileApi) call

/-! ## The code -/

/-- `win::lastError`. -/
def lastError (code : LastError) (context : String) : Status := Win.fromWin32 code.1 context

/-- The file the new contents are written to. -/
def tempOf (path : String) : String := path ++ ".tmp"

def createParent (parent : String) : FileProg Status :=
  if parent.isEmpty then pure .ok
  else do
    let failed ← FileCall.perform (.createDirectories parent)
    if !failed then pure .ok
    else do
      let answer ← FileCall.perform (.isDirectory parent)
      if answer.1 then pure .ok
      else pure (Err.make .ioError ("cannot create directory " ++ parent ++ ": " ++ answer.2))

/-- The loop over the chunks, for the next `fuel` writes; `none` while bytes
remain. -/
def writeChunks (temp : String) : Nat → List Byte → FileProg (Option Status)
  | 0, _ => pure none
  | fuel + 1, remaining =>
    if remaining.isEmpty then pure (some .ok)
    else do
      let answer ← FileCall.perform (.writeFile temp (remaining.take 1048576))
      match answer with
      | .error code => pure (some (lastError code ("WriteFile(" ++ temp ++ ")")))
      | .ok written => writeChunks temp fuel (remaining.drop written)

/-- What is done while the temporary file is open. -/
def fillTemp (temp : String) (fuel : Nat) (data : List Byte) : FileProg (Option Status) := do
  let written ← writeChunks temp fuel data
  match written with
  | none => pure none
  | some status =>
    if status.isError then pure (some status)
    else do
      let flushed ← FileCall.perform (.flushFileBuffers temp)
      pure (some (flushed.elim .ok fun code => lastError code ("FlushFileBuffers(" ++ temp ++ ")")))

def writeTemp (temp : String) (fuel : Nat) (data : List Byte) : FileProg (Option Status) := do
  let opened ← FileCall.perform (.createFile temp)
  match opened with
  | some code => pure (some (lastError code ("CreateFile(" ++ temp ++ ")")))
  | none => do
    let filled ← fillTemp temp fuel data
    match filled with
    | none => pure none
    | some status => do
      FileCall.perform (.closeHandle temp)
      pure (some status)

/-- A swap that has failed deletes the temporary file. -/
def settle (call path temp : String) (failure : Option LastError) : FileProg Status :=
  match failure with
  | some code => do
    let _ ← FileCall.perform (.deleteFile temp)
    pure (lastError code (call ++ "(" ++ path ++ ")"))
  | none => pure .ok

def swapIn (path temp : String) : FileProg Status := do
  let present ← FileCall.perform (.pathExists path)
  if present then do
    let failure ← FileCall.perform (.replaceFile path temp)
    settle "ReplaceFile" path temp failure
  else do
    let failure ← FileCall.perform (.moveFile temp path)
    settle "MoveFileEx" path temp failure

/-- `writeAtomicBytes`, of a path with this parent; `none` while it has not
returned. -/
def writeAtomicBytes (fuel : Nat) (path parent : String) (data : List Byte) :
    FileProg (Option Status) := do
  let status ← createParent parent
  if status.isError then pure (some status)
  else do
    let written ← writeTemp (tempOf path) fuel data
    match written with
    | none => pure none
    | some status =>
      if status.isError then pure (some status)
      else do
        let swapped ← swapIn path (tempOf path)
        pure (some swapped)

/-! ## What survives -/

theorem isError_lastError (code : LastError) (context : String) :
    (lastError code context).isError = true :=
  Win.isError_fromWin32 code.2 context

theorem not_ok_of_lastError {P : Prop} {code : LastError} {context : String} {status : Status}
    (hs : some (lastError code context) = some status) (hok : status.isError = false) : P := by
  rw [← Option.some.inj hs, isError_lastError] at hok
  cases hok

theorem tempOf_ne (path : String) : tempOf path ≠ path := by
  intro h
  have hlength := congrArg String.length h
  rw [tempOf, String.length_append] at hlength
  have htmp : ".tmp".length = 4 := by decide
  omega

/-- A file whose contents are on stable storage. -/
def durable (bytes : List Byte) : File := ⟨bytes, true⟩

/-- The complete old contents, which no file has if there were none, or the
complete new contents are at the path or under the temporary name. -/
def Survives (old : Option (List Byte)) (new : List Byte) (path : String) (d : Disk) : Prop :=
  d path = old.map durable ∨ d path = some (durable new) ∨
    (∃ bytes, old = some bytes ∧ d (tempOf path) = some (durable bytes)) ∨
      d (tempOf path) = some (durable new)

/-- What a call that returns leaves. -/
structure Returned (old : Option (List Byte)) (new : List Byte) (path : String) (status : Status)
    (d : Disk) : Prop where
  survives : Survives old new path d
  ok : status.isError = false → d path = some (durable new)
  error : status.isError = true → ∀ bytes, old = some bytes → d path = some (durable bytes)

/-- What is at the path after the call: the new contents, or after an error what
was there or nothing. -/
def Leaves (old : Option (List Byte)) (new : List Byte) (path : String) (status : Status)
    (d : Disk) : Prop :=
  (status = .ok ∧ d path = some (durable new)) ∨
    (status.isError = true ∧ (d path = old.map durable ∨ d path = none))

/-- No `ReplaceFileW` takes the replaced file from its name and fails. -/
def KeepsName : (call : FileCall) → fileEnv.Outcome call → Disk → Prop
  | .replaceFile _ _, o, _ => o.KeepsName
  | _, _, _ => True

section Specs

variable {old : Option (List Byte)} {new : List Byte} {path : String}

/-- While `KeepsName` is met something survives; and the program returns with
`Q`, a property of its result, the files and whether it was met. -/
def Spec (old : Option (List Byte)) (new : List Byte) (path : String) {α : Type} (p : FileProg α)
    (d : Disk) (b : Prop) (Q : α → Disk → Prop → Prop) : Prop :=
  Prog.Safe (Prog.watch fileEnv KeepsName) (fun _ _ _ => True)
    (fun s => s.2 → Survives old new path s.1) (fun a s => Q a s.1 s.2) p (d, b)

namespace Spec

variable {α β : Type} {d : Disk} {b : Prop}

theorem ret {a : α} {Q : α → Disk → Prop → Prop} (hs : b → Survives old new path d) (h : Q a d b) :
    Spec old new path (pure a) d b Q :=
  ⟨hs, h⟩

theorem bind {p : FileProg α} {f : α → FileProg β} {Q : α → Disk → Prop → Prop}
    {R : β → Disk → Prop → Prop} (hp : Spec old new path p d b Q)
    (hf : ∀ a d b, Q a d b → Spec old new path (f a) d b R) : Spec old new path (p >>= f) d b R :=
  Prog.Safe.bind hp fun a s _ hQ => hf a s.1 s.2 hQ

theorem call {call : FileCall} {f : fileApi.Ans call → FileProg β} {R : β → Disk → Prop → Prop}
    (hs : b → Survives old new path d)
    (h : ∀ o, Spec old new path (f (fileEnv.step call o d).1) (fileEnv.step call o d).2
      (b ∧ KeepsName call o d) R) :
    Spec old new path (call.perform >>= f) d b R :=
  Prog.Safe.step hs fun o _ => h o

theorem exec {p : FileProg α} {Q : α → Disk → Prop → Prop} (h : Spec old new path p d True Q)
    {ts : List fileEnv.Turn} (hm : Prog.Meets fileEnv KeepsName p d ts) :
    Survives old new path (Prog.exec fileEnv p d ts).2 := by
  have hI := Prog.Safe.exec h (Prog.meets_true p (d, True) ts)
  rw [Prog.exec_watch] at hI
  exact hI ⟨trivial, hm⟩

theorem post {p : FileProg α} {Q : α → Disk → Prop → Prop} (h : Spec old new path p d True Q)
    {ts : List fileEnv.Turn} {a : α} {d' : Disk} (hr : Prog.exec fileEnv p d ts = (.ret a, d')) :
    Q a d' (Prog.Meets fileEnv KeepsName p d ts) :=
  Prog.Safe.post_watch h hr

end Spec

/-! ## One program after another -/

variable {d : Disk} {b : Prop}

theorem survives_of_path (h : d path = old.map durable) : Survives old new path d := Or.inl h

theorem createParent_spec (h : d path = old.map durable) (parent : String) :
    Spec old new path (createParent parent) d b fun _ d' b' => d' = d ∧ (b' ↔ b) := by
  have hs : Survives old new path d := survives_of_path h
  unfold createParent
  split
  · exact .ret (fun _ => hs) ⟨rfl, Iff.rfl⟩
  · refine .call (fun _ => hs) fun failed => ?_
    split
    · exact .ret (fun _ => hs) ⟨rfl, iff_of_eq (and_true b)⟩
    · refine .call (fun _ => hs) fun answer => ?_
      split <;> exact .ret (fun _ => hs) ⟨rfl, by simp [KeepsName]⟩

/-- The file at the path has not changed, and if the call has gone well the
temporary file has these contents. -/
def Filled (d : Disk) (b : Prop) (path : String) (file : File → Prop) (r : Option Status) (d' : Disk)
    (b' : Prop) : Prop :=
  d' path = d path ∧ (b' ↔ b) ∧
    ∀ status, r = some status → status.isError = false → ∃ f, d' (tempOf path) = some f ∧ file f

/-- What a write has written and what then remains. -/
theorem written_append_drop (remaining : List Byte) (n : Nat) :
    (remaining.take 1048576).take n ++
      remaining.drop ((remaining.take 1048576).take n).length = remaining := by
  rw [List.take_take, List.length_take]
  rcases Nat.le_total (min n 1048576) remaining.length with hle | hle
  · rw [Nat.min_eq_left hle]
    exact List.take_append_drop (min n 1048576) remaining
  · rw [Nat.min_eq_right hle, List.drop_length, List.append_nil, List.take_of_length_le hle]

theorem writeFile_temp {name : String} {bytes : List Byte} {o : Option LastError × Nat} {file : File}
    (h : d name = some file) :
    (d.writeFile name bytes o).2 name = some ⟨file.bytes ++ bytes.take o.2, false⟩ := by
  simp [Disk.writeFile, h]

theorem flush_temp {name : String} {file : File} (h : d name = some file) :
    (d.flushFileBuffers name none).2 name = some { file with flushed := true } := by
  simp [Disk.flushFileBuffers, h]

theorem writeChunks_spec (fuel : Nat) {remaining : List Byte} {file : File}
    (h : d path = old.map durable) (htemp : d (tempOf path) = some file) :
    Spec old new path (writeChunks (tempOf path) fuel remaining) d b
      (Filled d b path fun f => f.bytes = file.bytes ++ remaining) := by
  induction fuel generalizing remaining file d b with
  | zero => exact .ret (fun _ => survives_of_path h) ⟨rfl, Iff.rfl, by simp⟩
  | succ fuel ih =>
    unfold writeChunks
    split
    · next hempty =>
      rw [List.isEmpty_iff.mp hempty, List.append_nil]
      exact .ret (fun _ => survives_of_path h) ⟨rfl, Iff.rfl, fun _ _ _ => ⟨file, htemp, rfl⟩⟩
    · refine .call (fun _ => survives_of_path h) fun o => ?_
      obtain ⟨failure, n⟩ := o
      have hpath : (fileEnv.step (.writeFile (tempOf path) (remaining.take 1048576)) (failure, n) d).2
          path = d path := Function.update_of_ne (Ne.symm (tempOf_ne path)) _ _
      cases failure with
      | some code =>
        exact .ret (fun _ => survives_of_path (hpath.trans h))
          ⟨hpath, iff_of_eq (and_true b), fun _ hs hok => not_ok_of_lastError hs hok⟩
      | none =>
        have hdone := written_append_drop remaining n
        refine Prog.Safe.mono (ih (hpath.trans h) (writeFile_temp htemp)) ?_
        rintro r ⟨d', b'⟩ - ⟨hd', hb', hr⟩
        refine ⟨hd'.trans hpath, hb'.trans (iff_of_eq (and_true b)), fun status hs hok => ?_⟩
        obtain ⟨f, hf, hbytes⟩ := hr status hs hok
        refine ⟨f, hf, ?_⟩
        calc f.bytes = (file.bytes ++ (remaining.take 1048576).take n) ++
              remaining.drop ((remaining.take 1048576).take n).length := hbytes
          _ = file.bytes ++ remaining := by rw [List.append_assoc, hdone]

theorem fillTemp_spec (fuel : Nat) {data : List Byte} {flushed : Bool}
    (h : d path = old.map durable) (htemp : d (tempOf path) = some ⟨[], flushed⟩) :
    Spec old new path (fillTemp (tempOf path) fuel data) d b
      (Filled d b path fun f => f = durable data) := by
  unfold fillTemp
  refine .bind (writeChunks_spec fuel h htemp) fun written d' b' ⟨hd', hb', hw⟩ => ?_
  have hpath := hd'.trans h
  cases written with
  | none => exact .ret (fun _ => survives_of_path hpath) ⟨hd', hb', by simp⟩
  | some status =>
    simp only
    split
    · next herror =>
      refine .ret (fun _ => survives_of_path hpath) ⟨hd', hb', fun s hs hok => ?_⟩
      rw [← Option.some.inj hs, herror] at hok
      cases hok
    · next hok =>
      obtain ⟨f, hf, hbytes⟩ := hw status rfl (eq_false_of_ne_true hok)
      refine .call (fun _ => survives_of_path hpath) fun o => ?_
      cases o with
      | some code =>
        exact .ret (fun _ => survives_of_path hpath)
          ⟨hd', by simp [KeepsName, hb'], fun _ hs hok => not_ok_of_lastError hs hok⟩
      | none =>
        have hkeep : (fileEnv.step (.flushFileBuffers (tempOf path)) none d').2 path = d' path :=
          Function.update_of_ne (Ne.symm (tempOf_ne path)) _ _
        refine .ret (fun _ => survives_of_path (hkeep.trans hpath))
          ⟨hkeep.trans hd', by simp [KeepsName, hb'], fun _ _ _ => ⟨_, flush_temp hf, ?_⟩⟩
        rw [hbytes]
        rfl

theorem writeTemp_spec (fuel : Nat) {data : List Byte} (h : d path = old.map durable) :
    Spec old new path (writeTemp (tempOf path) fuel data) d b
      (Filled d b path fun f => f = durable data) := by
  unfold writeTemp
  refine .call (fun _ => survives_of_path h) fun o => ?_
  cases o with
  | some code =>
    exact .ret (fun _ => survives_of_path h)
      ⟨rfl, iff_of_eq (and_true b), fun _ hs hok => not_ok_of_lastError hs hok⟩
  | none =>
    have hpath : (fileEnv.step (.createFile (tempOf path)) none d).2 path = d path :=
      Function.update_of_ne (Ne.symm (tempOf_ne path)) _ _
    refine .bind (fillTemp_spec fuel (hpath.trans h) (Function.update_self _ _ _))
      fun filled d' b' ⟨hd', hb', hf⟩ => ?_
    have hpath' := hd'.trans hpath
    have hs : Survives old new path d' := survives_of_path (hpath'.trans h)
    have hb : b' ↔ b := hb'.trans (iff_of_eq (and_true b))
    cases filled with
    | none => exact .ret (fun _ => hs) ⟨hpath', hb, by simp⟩
    | some status =>
      exact .call (fun _ => hs) fun _ =>
        .ret (fun _ => hs) ⟨hpath', (iff_of_eq (and_true b')).trans hb, hf⟩

theorem settle_ok (call : String) (h : d path = some (durable new)) (hb : b) :
    Spec old new path (settle call path (tempOf path) none) d b fun status d' b' =>
      (Returned old new path status d' ↔ b') ∧ Leaves old new path status d' := by
  have hs : Survives old new path d := Or.inr (Or.inl h)
  exact .ret (fun _ => hs)
    ⟨iff_of_true ⟨hs, fun _ => h, fun herror => by cases herror⟩ hb, .inl ⟨rfl, h⟩⟩

theorem settle_kept (call : String) (code : LastError) (h : d path = old.map durable) (hb : b) :
    Spec old new path (settle call path (tempOf path) (some code)) d b fun status d' b' =>
      (Returned old new path status d' ↔ b') ∧ Leaves old new path status d' := by
  have hreturned : ∀ d', d' path = old.map durable →
      Returned old new path (lastError code (call ++ "(" ++ path ++ ")")) d' := by
    intro d' hd'
    refine ⟨survives_of_path hd', fun hok => not_ok_of_lastError rfl hok, fun _ bytes hold => ?_⟩
    rw [hd', hold]
    rfl
  have herror := isError_lastError code (call ++ "(" ++ path ++ ")")
  refine .call (fun _ => survives_of_path h) fun o => ?_
  cases o with
  | some _ =>
    exact .ret (fun _ => survives_of_path h)
      ⟨iff_of_true (hreturned d h) ⟨hb, trivial⟩, .inr ⟨herror, .inl h⟩⟩
  | none =>
    have h' := (Function.update_of_ne (Ne.symm (tempOf_ne path)) none d).trans h
    exact .ret (fun _ => survives_of_path h')
      ⟨iff_of_true (hreturned _ h') ⟨hb, trivial⟩, .inr ⟨herror, .inl h'⟩⟩

/-- Once the old contents are gone from the path, the error does not leave
them there. -/
theorem settle_lost (call : String) (code : LastError) {bytes : List Byte} (hold : old = some bytes)
    (h : d path = none) (hb : ¬ b) :
    Spec old new path (settle call path (tempOf path) (some code)) d b fun status d' b' =>
      (Returned old new path status d' ↔ b') ∧ Leaves old new path status d' := by
  have hreturned : ∀ d', d' path = none →
      ¬ Returned old new path (lastError code (call ++ "(" ++ path ++ ")")) d' := by
    intro d' hd' hr
    have hthere := hr.error (isError_lastError code _) bytes hold
    rw [hd'] at hthere
    cases hthere
  have herror := isError_lastError code (call ++ "(" ++ path ++ ")")
  refine .call (fun hb' => absurd hb' hb) fun o => ?_
  cases o with
  | some _ =>
    exact .ret (fun hb' => absurd hb'.1 hb)
      ⟨iff_of_false (hreturned d h) fun hb' => hb hb'.1, .inr ⟨herror, .inr h⟩⟩
  | none =>
    have h' := (Function.update_of_ne (Ne.symm (tempOf_ne path)) none d).trans h
    exact .ret (fun hb' => absurd hb'.1 hb)
      ⟨iff_of_false (hreturned _ h') fun hb' => hb hb'.1, .inr ⟨herror, .inr h'⟩⟩

theorem update_update_path (d : Disk) (file : File) (path : String) :
    Function.update (Function.update d path (some file)) (tempOf path) none path = some file := by
  rw [Function.update_of_ne (Ne.symm (tempOf_ne path)), Function.update_self]

theorem replaceFile_spec {bytes : List Byte} (hold : old = some bytes)
    (h : d path = some (durable bytes)) (htemp : d (tempOf path) = some (durable new)) (hb : b)
    (o : ReplaceOutcome) :
    Spec old new path
      (settle "ReplaceFile" path (tempOf path) (d.replaceFile path (tempOf path) o).1)
      (d.replaceFile path (tempOf path) o).2 (b ∧ o.KeepsName) fun status d' b' =>
        (Returned old new path status d' ↔ b') ∧ Leaves old new path status d' := by
  unfold Disk.replaceFile
  simp only [h, htemp]
  cases o with
  | replaced => exact settle_ok "ReplaceFile" (update_update_path d _ path) ⟨hb, trivial⟩
  | kept code =>
    have hkept : d path = old.map durable := by rw [h, hold]; rfl
    exact settle_kept "ReplaceFile" code hkept ⟨hb, trivial⟩
  | removed =>
    have hgone : Function.update d path none path = none := Function.update_self path none d
    exact settle_lost "ReplaceFile" _ hold hgone fun hkept => hkept.2
  | renamed other =>
    have hgone := Function.update_self path none (Function.update d other (some (durable bytes)))
    exact settle_lost "ReplaceFile" _ hold hgone fun hkept => hkept.2

theorem moveFile_spec (h : d path = old.map durable) (htemp : d (tempOf path) = some (durable new))
    (hb : b) (o : Option LastError) :
    Spec old new path (settle "MoveFileEx" path (tempOf path) (d.moveFile (tempOf path) path o).1)
      (d.moveFile (tempOf path) path o).2 b fun status d' b' =>
        (Returned old new path status d' ↔ b') ∧ Leaves old new path status d' := by
  unfold Disk.moveFile
  simp only [htemp]
  cases o with
  | some code => exact settle_kept "MoveFileEx" code h hb
  | none => exact settle_ok "MoveFileEx" (update_update_path d _ path) hb

/-- The swap leaves what it should exactly if the replaced file kept its
name. -/
theorem swapIn_spec (h : d path = old.map durable) (htemp : d (tempOf path) = some (durable new))
    (hb : b) : Spec old new path (swapIn path (tempOf path)) d b fun status d' b' =>
      (Returned old new path status d' ↔ b') ∧ Leaves old new path status d' := by
  have hs : Survives old new path d := survives_of_path h
  unfold swapIn
  refine .call (fun _ => hs) fun known => ?_
  split
  · next hpresent =>
    obtain ⟨bytes, hold⟩ : ∃ bytes, old = some bytes := by
      cases old with
      | none => simp [Disk.pathExists, h] at hpresent
      | some bytes => exact ⟨bytes, rfl⟩
    have hpath : d path = some (durable bytes) := by rw [h, hold]; rfl
    exact .call (fun _ => hs) fun o => replaceFile_spec hold hpath htemp ⟨hb, trivial⟩ o
  · exact .call (fun _ => hs) fun o => moveFile_spec h htemp ⟨⟨hb, trivial⟩, trivial⟩ o

theorem writeAtomicBytes_spec (h : d path = old.map durable) (fuel : Nat) (parent : String) :
    Spec old new path (writeAtomicBytes fuel path parent new) d True fun r d' b' =>
      ∀ status, r = some status →
        (Returned old new path status d' ↔ b') ∧ Leaves old new path status d' := by
  have hfailed : ∀ d' : Disk, d' path = old.map durable → ∀ status : Status,
      status.isError = true → Returned old new path status d' := by
    intro d' hd' status herror
    refine ⟨survives_of_path hd', fun hok => ?_, fun _ bytes hold => by rw [hd', hold]; rfl⟩
    rw [herror] at hok
    cases hok
  unfold writeAtomicBytes
  refine .bind (createParent_spec h parent) fun status d' b' hd' => ?_
  obtain ⟨rfl, hb'⟩ := hd'
  split
  · next herror =>
    refine .ret (fun _ => survives_of_path h) fun s hs => ?_
    rw [← Option.some.inj hs]
    exact ⟨iff_of_true (hfailed d' h status herror) (hb'.mpr trivial), .inr ⟨herror, .inl h⟩⟩
  · refine .bind (writeTemp_spec fuel h) fun written d'' b'' ⟨hd'', hb'', hw⟩ => ?_
    have hpath := hd''.trans h
    have hb : b'' := hb''.mpr (hb'.mpr trivial)
    cases written with
    | none => exact .ret (fun _ => survives_of_path hpath) (by simp)
    | some status =>
      simp only
      split
      · next herror =>
        refine .ret (fun _ => survives_of_path hpath) fun s hs => ?_
        rw [← Option.some.inj hs]
        exact ⟨iff_of_true (hfailed d'' hpath status herror) hb, .inr ⟨herror, .inl hpath⟩⟩
      · next hok =>
        obtain ⟨f, hf, rfl⟩ := hw status rfl (eq_false_of_ne_true hok)
        refine .bind (swapIn_spec hpath hf hb) fun swapped d b hreturned => ?_
        have hs : b → Survives old new path d := fun hb => (hreturned.1.mpr hb).survives
        refine .ret hs fun s hs => ?_
        rw [← Option.some.inj hs]
        exact hreturned

end Specs

/-- The files before the call. -/
def before (rest : Disk) (path : String) (old : Option (List Byte)) : Disk :=
  Function.update rest path (old.map durable)

/-- As long as no `ReplaceFileW` takes the replaced file from its name, the old
or the new contents are there between any two calls; and a call that returns
leaves what it should exactly if none did. -/
theorem replaced_iff (rest : Disk) (path parent : String) (old : Option (List Byte))
    (new : List Byte) (fuel : Nat) (ts : List fileEnv.Turn) :
    (Prog.Meets fileEnv KeepsName (writeAtomicBytes fuel path parent new) (before rest path old) ts →
      Survives old new path
        (Prog.exec fileEnv (writeAtomicBytes fuel path parent new) (before rest path old) ts).2) ∧
    ∀ status d', Prog.exec fileEnv (writeAtomicBytes fuel path parent new) (before rest path old) ts =
        (.ret (some status), d') →
      (Returned old new path status d' ↔
        Prog.Meets fileEnv KeepsName (writeAtomicBytes fuel path parent new) (before rest path old)
          ts) := by
  have h : before rest path old path = old.map durable := Function.update_self _ _ _
  have hspec := @writeAtomicBytes_spec old new path _ h fuel parent
  exact ⟨hspec.exec, fun status d' hr => (hspec.post hr status rfl).1⟩

/-- A call that returns has written the new contents, or has failed and left at
the path what was there or, if `ReplaceFileW` took it away, nothing. -/
theorem writeAtomicBytes_leaves {rest : Disk} {path parent : String} {old : Option (List Byte)}
    {new : List Byte} {fuel : Nat} {ts : List fileEnv.Turn} {status : Status} {d' : Disk}
    (hr : Prog.exec fileEnv (writeAtomicBytes fuel path parent new) (before rest path old) ts =
      (.ret (some status), d')) : Leaves old new path status d' := by
  have h : before rest path old path = old.map durable := Function.update_self _ _ _
  exact ((@writeAtomicBytes_spec old new path _ h fuel parent).post hr status rfl).2

/-- The turn at which every call succeeds but the swap, which loses the
replaced file. -/
def lostTurn : fileEnv.Turn
  | .createDirectories _ => false
  | .isDirectory _ => (true, "")
  | .writeFile _ bytes => (none, bytes.length)
  | .closeHandle _ => ()
  | .pathExists _ => true
  | .replaceFile _ _ => .removed
  | .createFile _ | .flushFileBuffers _ | .moveFile _ _ | .deleteFile _ => none

/-- One byte of a ledger is to be replaced, and neither version is left. -/
theorem both_lost : ∃ status d',
    Prog.exec fileEnv (writeAtomicBytes 2 "r" "" [2]) (before (fun _ => none) "r" (some [1]))
      (List.replicate 8 lostTurn) = (.ret (some status), d') ∧
    ¬ Survives (some [1]) [2] "r" d' := by
  refine ⟨_, _, rfl, ?_⟩
  rintro (h | h | ⟨_, _, h⟩ | h) <;> cases h

end NovaVpn.FileUtil
