import Mathlib.Logic.Function.Basic
import NovaVpn.Core.Numerals
import NovaVpn.Framework.Machine

/-!
# The file sink

`FileSink` of `Logs/Sink.cpp`. A line is what one record is formatted to, with
the line break after it, and the section of `write` under the mutex is
`append`. Every file operation may fail as it is documented to.

`write` returns at once while there is no file handle, and only a rotation
would open a new one: once a `WriteFile` or the creation of a file has failed
nothing is ever written again (`append_closed`), so a run leaves a sink that
logs again exactly if none of them failed (`logsAgain_iff`).
-/

namespace NovaVpn.Logs

open NovaVpn.Framework

/-- The contents of the files, by their names in the directory of the logs. -/
abbrev LogFiles := List Char → Option (List Char)

/-- `FileSinkOptions`, without the directory and the minimum level. -/
structure FileSinkOptions where
  baseName : List Char := "novavpn".toList
  maxBytes : Nat := 16 * 1024 * 1024
  maxFiles : Int := 8
  retentionDays : Int := 14
  jsonLines : Bool := false

/-- The bounds that `makeFileSink` sets. -/
def FileSinkOptions.bounded (options : FileSinkOptions) : FileSinkOptions :=
  { options with
    maxFiles := if options.maxFiles < 1 then 1 else options.maxFiles
    maxBytes := if options.maxBytes < 64 * 1024 then 64 * 1024 else options.maxBytes }

/-- How the file operations of one `write` come out. -/
structure FileOutcome where
  /-- The oldest file could be removed. -/
  removed : Bool := true
  /-- `exists` could tell that the file is there. -/
  found : Nat → Bool := fun _ => true
  renamed : Nat → Bool := fun _ => true
  /-- The file is too old, and could be removed. -/
  expired : Nat → Bool := fun _ => false
  created : Bool := true
  /-- `WriteFile` failed, after so many bytes. -/
  failed : Option Nat := none

/-- Every operation succeeds, and no file expires. -/
def FileOutcome.good : FileOutcome := {}

structure FileSink where
  options : FileSinkOptions
  files : LogFiles
  /-- There is a handle, and it is one of the current file. -/
  handle : Bool
  bytesWritten : Nat

namespace FileSink

/-- How many files there are to be. -/
def count (options : FileSinkOptions) : Nat := options.maxFiles.toNat

/-- `pathForIndex`, in the directory of the logs. -/
def pathForIndex (options : FileSinkOptions) (index : Nat) : List Char :=
  options.baseName ++ (if index > 0 then '.' :: Nat.toDigits 10 index else []) ++ ".log".toList

/-- `openCurrent`, where the file could be opened; `sized` says that its size
could be read. -/
def openCurrent (options : FileSinkOptions) (files : LogFiles) (sized : Bool) : FileSink :=
  let path := pathForIndex options 0
  let contents := (files path).getD []
  { options
    files := Function.update files path (some contents)
    handle := true
    bytesWritten := if sized then contents.length else 0 }

/-- `makeFileSink`, where the file could be opened. -/
def make (options : FileSinkOptions) (files : LogFiles) (sized : Bool) : FileSink :=
  openCurrent options.bounded files sized

/-- The body of the loop that shifts the files. -/
def renameIndex (options : FileSinkOptions) (o : FileOutcome) (files : LogFiles) (index : Nat) :
    LogFiles :=
  match files (pathForIndex options index) with
  | none => files
  | some contents =>
    if o.found index && o.renamed index then
      Function.update (Function.update files (pathForIndex options (index + 1)) (some contents))
        (pathForIndex options index) none
    else files

/-- The loop that shifts the files, from the highest index down. -/
def shift (options : FileSinkOptions) (o : FileOutcome) : LogFiles → Nat → LogFiles
  | files, 0 => files
  | files, index + 1 => shift options o (renameIndex options o files index) index

/-- `purgeExpiredLocked`. -/
def purgeExpired (options : FileSinkOptions) (o : FileOutcome) (files : LogFiles) : LogFiles :=
  if options.retentionDays ≤ 0 then files
  else
    (List.range (count options - 1)).foldl (fun files i =>
      if (files (pathForIndex options (i + 1))).isSome && o.expired (i + 1) then
        Function.update files (pathForIndex options (i + 1)) none
      else files) files

/-- `rotateLocked`. -/
def rotateLocked (s : FileSink) (o : FileOutcome) : FileSink :=
  let oldest := pathForIndex s.options (count s.options - 1)
  let files := if o.removed then Function.update s.files oldest none else s.files
  let files := shift s.options o files (count s.options - 1)
  let files := purgeExpired s.options o files
  if o.created then
    { s with
      files := Function.update files (pathForIndex s.options 0) (some [])
      handle := true
      bytesWritten := 0 }
  else { s with files, handle := false }

/-- The files when bytes were added to the current one. -/
def extended (s : FileSink) (bytes : List Char) : LogFiles :=
  let path := pathForIndex s.options 0
  Function.update s.files path (some ((s.files path).getD [] ++ bytes))

/-- `WriteFile` takes the low 32 bits of the length. -/
def writeSize (line : List Char) : Nat := line.length % 2 ^ 32

/-- The call of `WriteFile` and what follows it. Without a handle it fails. -/
def writeFile (s : FileSink) (o : FileOutcome) (line : List Char) : FileSink :=
  if s.handle then
    match o.failed with
    | none =>
      { s with
        files := s.extended (line.take (writeSize line))
        bytesWritten := s.bytesWritten + writeSize line }
    | some n => { s with files := s.extended ((line.take (writeSize line)).take n), handle := false }
  else { s with handle := false }

/-- The line does not fit into the current file. -/
def Overflows (s : FileSink) (line : List Char) : Prop :=
  s.bytesWritten + line.length > s.options.maxBytes

instance (s : FileSink) (line : List Char) : Decidable (s.Overflows line) :=
  inferInstanceAs (Decidable (_ > _))

/-- The section of `write` under the mutex. -/
def append (s : FileSink) (o : FileOutcome) (line : List Char) : FileSink :=
  if !s.handle then s
  else if s.Overflows line then (s.rotateLocked o).writeFile o line
  else s.writeFile o line

/-- The sink after lines for which every operation succeeds. -/
def afterLines (s : FileSink) (lines : List (List Char)) : FileSink :=
  lines.foldl (fun s line => s.append .good line) s

variable {s : FileSink} {options : FileSinkOptions} {o : FileOutcome} {line : List Char}

/-! ## Names -/

/-- Files of different index have different names. -/
theorem pathForIndex_inj {i j : Nat} :
    pathForIndex options i = pathForIndex options j ↔ i = j := by
  refine ⟨fun h => ?_, fun h => h ▸ rfl⟩
  rw [pathForIndex, pathForIndex, List.append_cancel_right_eq, List.append_cancel_left_eq] at h
  split at h
  next hi =>
    split at h
    next hj =>
      have heq := (List.cons.inj h).2
      have hval := Str.decimal_toDigits i
      rw [heq] at hval
      exact hval.functional (Str.decimal_toDigits j)
    next => cases h
  next hi =>
    split at h
    next => cases h
    next hj => omega

theorem pathForIndex_ne {i j : Nat} (h : i ≠ j) : pathForIndex options i ≠ pathForIndex options j :=
  fun heq => h (pathForIndex_inj.mp heq)

/-! ## One line -/

theorem handle_rotateLocked (s : FileSink) (o : FileOutcome) :
    (s.rotateLocked o).handle = o.created := by
  unfold rotateLocked
  cases h : o.created <;> rfl

theorem options_rotateLocked (s : FileSink) (o : FileOutcome) :
    (s.rotateLocked o).options = s.options := by
  unfold rotateLocked
  cases h : o.created <;> rfl

theorem handle_writeFile (s : FileSink) (o : FileOutcome) (line : List Char) :
    (s.writeFile o line).handle = (s.handle && o.failed.isNone) := by
  unfold writeFile
  cases hs : s.handle with
  | false => rfl
  | true =>
    cases o.failed with
    | none => rfl
    | some n => rfl

theorem options_writeFile (s : FileSink) (o : FileOutcome) (line : List Char) :
    (s.writeFile o line).options = s.options := by
  unfold writeFile
  split
  · cases o.failed <;> rfl
  · rfl

theorem options_append (s : FileSink) (o : FileOutcome) (line : List Char) :
    (s.append o line).options = s.options := by
  unfold append
  split
  · rfl
  · split
    · rw [options_writeFile, options_rotateLocked]
    · exact options_writeFile s o line

/-- Without a handle nothing is written, and none is opened. -/
theorem append_closed (h : s.handle = false) (o : FileOutcome) (line : List Char) :
    s.append o line = s := by
  rw [append, h]
  rfl

/-- Neither `WriteFile` nor, where the file has to be created anew, that
fails. -/
def Succeeds (s : FileSink) (o : FileOutcome) (line : List Char) : Prop :=
  o.failed = none ∧ (s.Overflows line → o.created = true)

theorem handle_append : (s.append o line).handle = true ↔ s.handle = true ∧ s.Succeeds o line := by
  cases h : s.handle with
  | false =>
    rw [append_closed h, h]
    simp
  | true =>
    rw [append, h]
    unfold Succeeds
    by_cases hover : s.Overflows line
    · simp [hover, handle_writeFile, handle_rotateLocked, and_comm]
    · simp [hover, handle_writeFile, h]

theorem succeeds_good (s : FileSink) (line : List Char) : s.Succeeds .good line :=
  ⟨rfl, fun _ => rfl⟩

/-- A line that is written stands at the end of the current file. -/
theorem files_append (h : s.handle = true) (hok : s.Succeeds o line) (hsize : line.length < 2 ^ 32) :
    ∃ kept, (s.append o line).files (pathForIndex s.options 0) = some (kept ++ line) := by
  have hwrite : ∀ t : FileSink, t.handle = true → t.options = s.options →
      ∃ kept, (t.writeFile o line).files (pathForIndex s.options 0) = some (kept ++ line) := by
    intro t ht hoptions
    refine ⟨(t.files (pathForIndex s.options 0)).getD [], ?_⟩
    have htake : line.take (writeSize line) = line :=
      List.take_of_length_le (Nat.le_of_eq (Nat.mod_eq_of_lt hsize).symm)
    rw [writeFile, if_pos ht, hok.1]
    show t.extended _ _ = _
    rw [htake, extended, hoptions, Function.update_self]
  rw [append, h]
  by_cases hover : s.Overflows line
  · rw [if_neg (by decide), if_pos hover]
    refine hwrite _ ?_ (options_rotateLocked s o)
    rw [handle_rotateLocked, hok.2 hover]
  · rw [if_neg (by decide), if_neg hover]
    exact hwrite s h rfl

/-! ## Runs -/

/-- One `write`, as a step of a machine. -/
def step (s : FileSink) (write : FileOutcome × List Char) : Option FileSink :=
  some (s.append write.1 write.2)

/-- Every write of the run succeeds where it has to. -/
def NoneFails (s : FileSink) (writes : List (FileOutcome × List Char)) : Prop :=
  RunMeets step (fun s write => s.Succeeds write.1 write.2) s writes

/-- The handle is there exactly as long as nothing has failed. -/
theorem handle_run {s s' : FileSink} {writes : List (FileOutcome × List Char)}
    (hr : run step s writes = some s') :
    s'.handle = true ↔ s.handle = true ∧ s.NoneFails writes := by
  refine run_iff_meets (I := fun _ => True) (P := fun s => s.handle = true) ?_ trivial hr
  intro s write s' _ hstep
  cases hstep
  exact ⟨trivial, handle_append⟩

theorem afterLines_closed (h : s.handle = false) (lines : List (List Char)) :
    s.afterLines lines = s := by
  induction lines with
  | nil => rfl
  | cons line lines ih =>
    rw [afterLines, List.foldl_cons, append_closed h]
    exact ih

theorem handle_afterLines (h : s.handle = true) (lines : List (List Char)) :
    (s.afterLines lines).handle = true := by
  induction lines generalizing s with
  | nil => exact h
  | cons line lines ih => exact ih (handle_append.mpr ⟨h, succeeds_good s line⟩)

theorem options_afterLines (s : FileSink) (lines : List (List Char)) :
    (s.afterLines lines).options = s.options := by
  induction lines generalizing s with
  | nil => rfl
  | cons line lines ih => exact (ih _).trans (options_append s .good line)

/-- The line of a formatted record. -/
def lineOf (text : List Char) : List Char := text ++ "\r\n".toList

/-- From here on every operation succeeds: once more than `maxBytes` were
written, every line that `WriteFile` can take at once is at the end of the
current file. -/
def LogsAgain (s : FileSink) : Prop :=
  ∀ (texts : List (List Char)) (text : List Char),
    s.options.maxBytes < (texts.map lineOf).flatten.length → (lineOf text).length < 2 ^ 32 →
      ∃ kept, ((s.afterLines (texts.map lineOf)).append .good (lineOf text)).files
        (pathForIndex s.options 0) = some (kept ++ lineOf text)

theorem logsAgain_of_handle (h : s.handle = true) : s.LogsAgain := by
  intro texts text _ hsize
  have hopen := handle_afterLines h (texts.map lineOf)
  have hoptions := options_afterLines s (texts.map lineOf)
  rw [← hoptions]
  exact files_append hopen (succeeds_good _ _) hsize

/-- A sink without a handle does not log again: what stands at the end of the
current file cannot be each of two different lines. -/
theorem not_logsAgain (h : s.handle = false) : ¬ s.LogsAgain := by
  intro hagain
  have hlong : s.options.maxBytes <
      ((List.replicate (s.options.maxBytes + 1) ([] : List Char)).map lineOf).flatten.length := by
    have htwo : (lineOf []).length = 2 := rfl
    rw [List.map_replicate, List.length_flatten, List.map_replicate, List.sum_replicate_nat, htwo]
    omega
  obtain ⟨kept, hkept⟩ := hagain _ ['a'] hlong (by decide)
  obtain ⟨kept', hkept'⟩ := hagain _ ['b'] hlong (by decide)
  rw [afterLines_closed h, append_closed h] at hkept hkept'
  rw [hkept, Option.some.injEq] at hkept'
  have hlast := List.append_inj_right' hkept' rfl
  cases hlast

/-- After any writes the sink logs again exactly if no `WriteFile` and no
creation of the file has failed in them. -/
theorem logsAgain_iff (options : FileSinkOptions) (files : LogFiles) (sized : Bool)
    (writes : List (FileOutcome × List Char)) :
    (∀ s, run step (make options files sized) writes = some s → s.LogsAgain) ↔
      (make options files sized).NoneFails writes := by
  obtain ⟨s, hr⟩ : ∃ s, run step (make options files sized) writes = some s := by
    generalize make options files sized = t
    induction writes generalizing t with
    | nil => exact ⟨t, rfl⟩
    | cons write writes ih => exact ih (t.append write.1 write.2)
  have hopen := handle_run hr
  constructor
  · intro hagain
    refine (hopen.mp ?_).2
    cases hs : s.handle with
    | true => rfl
    | false => exact absurd (hagain s hr) (not_logsAgain hs)
  · intro hok t ht
    cases hr.symm.trans ht
    exact logsAgain_of_handle (hopen.mpr ⟨rfl, hok⟩)

/-- The first line cannot be written. -/
theorem never_logs_again : ¬ ∀ (options : FileSinkOptions) (files : LogFiles) (sized : Bool)
    (writes : List (FileOutcome × List Char)) (s : FileSink),
      run step (make options files sized) writes = some s → s.LogsAgain := by
  intro h
  refine not_logsAgain ?_ (h {} (fun _ => none) true [({ failed := some 0 }, lineOf ['a'])] _ rfl)
  rfl

end FileSink

end NovaVpn.Logs
