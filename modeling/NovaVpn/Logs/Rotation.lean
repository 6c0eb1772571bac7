import NovaVpn.Logs.FileSink

/-!
# Log rotation

With every file operation succeeding, the files of a `FileSink` are a stack of
which the first `maxFiles` are kept: a rotation puts an empty file on it
(`slots_rotateLocked`), a line is added to the one on top (`slots_extended`).
`Stacked` relates the sink to the lines that were written, by the file they
were written to, and every line of less than 2^32 bytes keeps it
(`Stacked.append`). So the files hold the newest lines in order
(`keptLines_afterLines`).
-/

namespace NovaVpn.Logs.FileSink

open NovaVpn.Framework

variable {s : FileSink} {options : FileSinkOptions} {files init : LogFiles} {line : List Char}

/-- What is under each index. -/
def slots (options : FileSinkOptions) (files : LogFiles) : List (Option (List Char)) :=
  (List.range (count options)).map fun i => files (pathForIndex options i)

/-- The contents of the files, from the highest index down. -/
def contents (options : FileSinkOptions) (files : LogFiles) : List (List Char) :=
  (slots options files).reverse.filterMap id

/-! ## One rotation -/

theorem update_none_self {name : List Char} (h : files name = none) :
    Function.update files name none = files := by
  have hself := Function.update_eq_self name files
  rwa [h] at hself

theorem renameIndex_good {i : Nat} (h : files (pathForIndex options (i + 1)) = none) :
    renameIndex options .good files i =
      Function.update (Function.update files (pathForIndex options (i + 1))
        (files (pathForIndex options i))) (pathForIndex options i) none := by
  unfold renameIndex
  cases hi : files (pathForIndex options i) with
  | none => rw [update_none_self h, update_none_self hi]
  | some contents => rfl

/-- Where nothing has the index `n`, each file below gets the index after its
own. -/
theorem shift_good (n : Nat) (h : files (pathForIndex options n) = none) :
    (∀ i < n, shift options .good files n (pathForIndex options (i + 1)) =
      files (pathForIndex options i)) ∧
    shift options .good files n (pathForIndex options 0) = none ∧
    ∀ name, (∀ i ≤ n, name ≠ pathForIndex options i) → shift options .good files n name = files name := by
  induction n generalizing files with
  | zero => exact ⟨fun i hi => by omega, h, fun _ _ => rfl⟩
  | succ n ih =>
    have hrename := renameIndex_good h
    have hnone : renameIndex options .good files n (pathForIndex options n) = none := by
      rw [hrename, Function.update_self]
    obtain ⟨hshift, hzero, hother⟩ := ih hnone
    refine ⟨fun i hi => ?_, hzero, fun name hname => ?_⟩
    · show shift options .good (renameIndex options .good files n) n _ = _
      by_cases hlast : i = n
      · subst hlast
        have hne : ∀ j ≤ i, pathForIndex options (i + 1) ≠ pathForIndex options j :=
          fun j hj => pathForIndex_ne (by omega)
        rw [hother _ hne, hrename, Function.update_of_ne (hne i (Nat.le_refl i)),
          Function.update_self]
      · have hne : pathForIndex options i ≠ pathForIndex options n := pathForIndex_ne hlast
        have hne' : pathForIndex options i ≠ pathForIndex options (n + 1) :=
          pathForIndex_ne (by omega)
        rw [hshift i (by omega), hrename, Function.update_of_ne hne, Function.update_of_ne hne']
    · show shift options .good (renameIndex options .good files n) n _ = _
      rw [hother name fun i hi => hname i (by omega), hrename,
        Function.update_of_ne (hname n (by omega)),
        Function.update_of_ne (hname (n + 1) (Nat.le_refl _))]

theorem purgeExpired_good (options : FileSinkOptions) (files : LogFiles) :
    purgeExpired options .good files = files := by
  have hfold : ∀ indices : List Nat, indices.foldl (fun files i =>
      if (files (pathForIndex options (i + 1))).isSome && FileOutcome.good.expired (i + 1) then
        Function.update files (pathForIndex options (i + 1)) none
      else files) files = files := by
    intro indices
    induction indices with
    | nil => rfl
    | cons i indices ih =>
      have hkeep : ((files (pathForIndex options (i + 1))).isSome &&
          FileOutcome.good.expired (i + 1)) = false := Bool.and_false _
      rw [List.foldl_cons, hkeep]
      exact ih
  unfold purgeExpired
  split
  · rfl
  · exact hfold _

/-- What a rotation does to each file. -/
theorem files_rotateLocked (s : FileSink) :
    (s.rotateLocked .good).files (pathForIndex s.options 0) = some [] ∧
    (∀ i, i + 1 < count s.options → (s.rotateLocked .good).files (pathForIndex s.options (i + 1)) =
      s.files (pathForIndex s.options i)) ∧
    ∀ name, (∀ i < count s.options, name ≠ pathForIndex s.options i) →
      name ≠ pathForIndex s.options 0 → name ≠ pathForIndex s.options (count s.options - 1) →
        (s.rotateLocked .good).files name = s.files name := by
  have hfiles : (s.rotateLocked .good).files = Function.update
      (shift s.options .good
        (Function.update s.files (pathForIndex s.options (count s.options - 1)) none)
        (count s.options - 1)) (pathForIndex s.options 0) (some []) := by
    show Function.update (purgeExpired _ _ _) _ _ = _
    rw [purgeExpired_good]
    rfl
  obtain ⟨hshift, -, hother⟩ := @shift_good s.options
    (Function.update s.files (pathForIndex s.options (count s.options - 1)) none)
    (count s.options - 1) (Function.update_self ..)
  rw [hfiles]
  refine ⟨Function.update_self .., fun i hi => ?_, fun name hname hzero hlast => ?_⟩
  · have hne : pathForIndex s.options (i + 1) ≠ pathForIndex s.options 0 :=
      pathForIndex_ne (by omega)
    have hne' : pathForIndex s.options i ≠ pathForIndex s.options (count s.options - 1) :=
      pathForIndex_ne (by omega)
    rw [Function.update_of_ne hne, hshift i (by omega), Function.update_of_ne hne']
  · rw [Function.update_of_ne hzero, hother name ?_, Function.update_of_ne hlast]
    intro i hi
    by_cases hcount : i < count s.options
    · exact hname i hcount
    · rw [show i = count s.options - 1 by omega]
      exact hlast

/-! ## The stack of files -/

theorem slots_eq_cons (h : 0 < count options) (files : LogFiles) :
    slots options files = files (pathForIndex options 0) ::
      (List.range (count options - 1)).map fun i => files (pathForIndex options (i + 1)) := by
  have hcount : count options = count options - 1 + 1 := by omega
  rw [slots, hcount, List.range_succ_eq_map, List.map_cons, List.map_map]
  rfl

/-- A rotation puts an empty file on the stack. -/
theorem slots_rotateLocked (s : FileSink) (h : 0 < count s.options) :
    slots s.options (s.rotateLocked .good).files =
      (some [] :: slots s.options s.files).take (count s.options) := by
  obtain ⟨hzero, hshift, -⟩ := files_rotateLocked s
  rw [slots_eq_cons h, hzero, List.take_cons h, slots, ← List.map_take, List.take_range,
    Nat.min_eq_left (Nat.sub_le ..)]
  refine congrArg _ (List.map_congr_left fun i hi => hshift i ?_)
  have := List.mem_range.mp hi
  omega

/-- A line is added to the file on top. -/
theorem slots_extended (h : 0 < count s.options) (bytes : List Char) :
    slots s.options (s.extended bytes) =
      some ((s.files (pathForIndex s.options 0)).getD [] ++ bytes) :: (slots s.options s.files).tail := by
  rw [slots_eq_cons h, slots_eq_cons h, List.tail_cons, extended, Function.update_self]
  exact congrArg _ (List.map_congr_left fun i _ =>
    Function.update_of_ne (pathForIndex_ne (Nat.succ_ne_zero i)) ..)

/-! ## The lines in the files -/

/-- What is in a file that these lines were written to: the oldest of them had
`start` in it. -/
def fileText (start : List Char) (group : List (List Char)) (older : List (List (List Char))) :
    List Char :=
  (if older.isEmpty then start else []) ++ group.flatten

/-- The files that were written to, the newest first. -/
def texts (start : List Char) : List (List (List Char)) → List (List Char)
  | [] => []
  | group :: older => fileText start group older :: texts start older

/-- A file has at most `maxBytes` bytes, or one line only; the first may also
be as it was found. -/
def WithinLimit (maxBytes : Nat) (start : List Char) : List (List (List Char)) → Prop
  | [] => True
  | group :: older =>
    ((fileText start group older).length ≤ maxBytes ∨ (older ≠ [] ∧ ∃ line, group = [line]) ∨
      (older = [] ∧ group = [])) ∧ WithinLimit maxBytes start older

/-- The contents of the current file when the sink was opened. -/
def startOf (options : FileSinkOptions) (init : LogFiles) : List Char :=
  (init (pathForIndex options 0)).getD []

/-- What the files would be if none were ever removed, the newest first. -/
def stack (options : FileSinkOptions) (init : LogFiles) (groups : List (List (List Char))) :
    List (Option (List Char)) :=
  (texts (startOf options init) groups).map some ++ (slots options init).tail

/-- The sink, after lines that were written in these groups, the newest first. -/
structure Stacked (options : FileSinkOptions) (init : LogFiles)
    (groups : List (List (List Char))) (s : FileSink) : Prop where
  options_eq : s.options = options
  handle : s.handle = true
  ne_nil : groups ≠ []
  slots_eq : slots options s.files = (stack options init groups).take (count options)
  bytes_eq : some s.bytesWritten = (texts (startOf options init) groups).head?.map List.length
  limit : WithinLimit options.maxBytes (startOf options init) groups
  frame : ∀ name, (∀ i < count options, name ≠ pathForIndex options i) → s.files name = init name

theorem stacked_openCurrent (h : 0 < count options) (init : LogFiles) :
    Stacked options init [[]] (openCurrent options init true) where
  options_eq := rfl
  handle := rfl
  ne_nil := List.cons_ne_nil _ _
  slots_eq := by
    have hext := @slots_extended ⟨options, init, true, 0⟩ h []
    have hfiles : (openCurrent options init true).files =
        FileSink.extended ⟨options, init, true, 0⟩ [] := by
      show Function.update _ _ _ = Function.update _ _ _
      rw [List.append_nil]
    have hlen : (slots options init).length = count options := by
      rw [slots, List.length_map, List.length_range]
    have hstack : stack options init [[]] = some (startOf options init) :: (slots options init).tail := by
      show [some (startOf options init ++ [])] ++ _ = _
      rw [List.append_nil]
      rfl
    rw [hfiles, hext, List.append_nil, hstack, List.take_of_length_le]
    · rfl
    · rw [List.length_cons, List.length_tail, hlen]
      omega
  bytes_eq := by
    show some (startOf options init).length = some (startOf options init ++ []).length
    rw [List.append_nil]
  limit := ⟨.inr (.inr ⟨rfl, rfl⟩), trivial⟩
  frame name hname := Function.update_of_ne (hname 0 h) ..

theorem stack_cons (options : FileSinkOptions) (init : LogFiles) (group : List (List Char))
    (older : List (List (List Char))) : stack options init (group :: older) =
      some (fileText (startOf options init) group older) ::
        ((texts (startOf options init) older).map some ++ (slots options init).tail) := rfl

theorem fileText_concat (start : List Char) (group : List (List Char))
    (older : List (List (List Char))) (line : List Char) :
    fileText start (group ++ [line]) older = fileText start group older ++ line := by
  rw [fileText, fileText, List.flatten_append, List.flatten_singleton, List.append_assoc]

theorem writeFile_good (hs : s.handle = true) (hsize : line.length < 2 ^ 32) :
    s.writeFile .good line =
      { s with files := s.extended line, bytesWritten := s.bytesWritten + line.length } := by
  have hmod : writeSize line = line.length := Nat.mod_eq_of_lt hsize
  rw [writeFile, if_pos hs]
  show ({ s with
    files := s.extended (line.take (writeSize line))
    bytesWritten := s.bytesWritten + writeSize line } : FileSink) = _
  rw [hmod, List.take_length]

/-- The current file holds the newest group. -/
theorem Stacked.current {group : List (List Char)} {older : List (List (List Char))}
    (h : Stacked options init (group :: older) s) (hcount : 0 < count options) :
    s.files (pathForIndex options 0) = some (fileText (startOf options init) group older) ∧
      s.bytesWritten = (fileText (startOf options init) group older).length := by
  have hslots := h.slots_eq
  rw [slots_eq_cons hcount, stack_cons, List.take_cons hcount] at hslots
  exact ⟨(List.cons.inj hslots).1, Option.some.inj h.bytes_eq⟩

/-- The line fits into the current file. -/
theorem Stacked.append_fits {group : List (List Char)} {older : List (List (List Char))}
    (h : Stacked options init (group :: older) s) (hcount : 0 < count options)
    (hsize : line.length < 2 ^ 32) (hfits : ¬ s.Overflows line) :
    Stacked options init ((group ++ [line]) :: older) (s.append .good line) := by
  obtain ⟨hcurrent, hbytes⟩ := h.current hcount
  have happend : s.append .good line =
      { s with files := s.extended line, bytesWritten := s.bytesWritten + line.length } := by
    rw [append, if_neg (by simp [h.handle]), if_neg hfits, writeFile_good h.handle hsize]
  have hopt := h.options_eq
  subst hopt
  rw [happend]
  refine ⟨rfl, h.handle, List.cons_ne_nil _ _, ?_, ?_, ⟨?_, h.limit.2⟩, fun name hname => ?_⟩
  · show slots s.options (s.extended line) = _
    rw [slots_extended hcount, hcurrent, h.slots_eq, stack_cons, stack_cons, fileText_concat,
      List.take_cons hcount, List.take_cons hcount]
    rfl
  · show some (s.bytesWritten + line.length) = some (fileText _ (group ++ [line]) older).length
    rw [fileText_concat, List.length_append, hbytes]
  · refine .inl ?_
    rw [fileText_concat, List.length_append, ← hbytes]
    exact Nat.le_of_not_gt hfits
  · show s.extended line name = init name
    rw [extended, Function.update_of_ne (hname 0 hcount)]
    exact h.frame name hname

/-- The line does not fit, and is the first one of a new file. -/
theorem Stacked.append_overflows {groups : List (List (List Char))}
    (h : Stacked options init groups s) (hcount : 0 < count options)
    (hsize : line.length < 2 ^ 32) (hover : s.Overflows line) :
    Stacked options init ([line] :: groups) (s.append .good line) := by
  have hrotated : (s.rotateLocked .good).handle = true := handle_rotateLocked s .good
  have happend : s.append .good line =
      { s.rotateLocked .good with
        files := (s.rotateLocked .good).extended line
        bytesWritten := line.length } := by
    rw [append, h.handle, if_neg (by decide), if_pos hover, writeFile_good hrotated hsize]
    congr 1
    exact Nat.zero_add line.length
  have hoptions : (s.rotateLocked .good).options = s.options := options_rotateLocked s .good
  have hopt := h.options_eq
  subst hopt
  have hgroups : groups.isEmpty = false := List.isEmpty_eq_false_iff.mpr h.ne_nil
  have htext : fileText (startOf s.options init) [line] groups = line := by
    rw [fileText, hgroups, List.flatten_singleton]
    rfl
  obtain ⟨hzero, -, hother⟩ := files_rotateLocked s
  rw [happend]
  refine ⟨hoptions, hrotated, List.cons_ne_nil _ _, ?_, ?_, ⟨?_, h.limit⟩, fun name hname => ?_⟩
  · show slots s.options ((s.rotateLocked .good).extended line) = _
    have hext := @slots_extended (s.rotateLocked .good) (by rw [hoptions]; exact hcount) line
    rw [hoptions, hzero, slots_rotateLocked s hcount, h.slots_eq] at hext
    rw [hext, stack_cons, htext, List.take_cons hcount, List.take_cons hcount, List.tail_cons,
      List.take_take, Nat.min_eq_left (Nat.sub_le ..)]
    rfl
  · show some line.length = some (fileText _ [line] groups).length
    rw [htext]
  · exact .inr (.inl ⟨h.ne_nil, line, rfl⟩)
  · show (s.rotateLocked .good).extended line name = init name
    rw [extended, hoptions, Function.update_of_ne (hname 0 hcount),
      hother name hname (hname 0 hcount) (hname _ (by omega))]
    exact h.frame name hname

/-- A line is added to the newest group, or starts one. -/
theorem Stacked.append {groups : List (List (List Char))} (h : Stacked options init groups s)
    (hcount : 0 < count options) (hsize : line.length < 2 ^ 32) :
    ∃ groups', groups'.reverse.flatten = groups.reverse.flatten ++ [line] ∧
      Stacked options init groups' (s.append .good line) := by
  by_cases hover : s.Overflows line
  · exact ⟨[line] :: groups, by simp, h.append_overflows hcount hsize hover⟩
  · cases groups with
    | nil => exact absurd rfl h.ne_nil
    | cons group older =>
      exact ⟨(group ++ [line]) :: older, by simp, h.append_fits hcount hsize hover⟩

theorem Stacked.afterLines {groups : List (List (List Char))} (h : Stacked options init groups s)
    (hcount : 0 < count options) {lines : List (List Char)}
    (hsize : ∀ line ∈ lines, line.length < 2 ^ 32) :
    ∃ groups', groups'.reverse.flatten = groups.reverse.flatten ++ lines ∧
      Stacked options init groups' (s.afterLines lines) := by
  induction lines generalizing s groups with
  | nil => exact ⟨groups, (List.append_nil _).symm, h⟩
  | cons line lines ih =>
    rw [List.forall_mem_cons] at hsize
    obtain ⟨groups₁, hlines₁, h₁⟩ := h.append hcount hsize.1
    obtain ⟨groups₂, hlines₂, h₂⟩ := ih h₁ hsize.2
    refine ⟨groups₂, ?_, h₂⟩
    rw [hlines₂, hlines₁, List.append_assoc]
    rfl

/-! ## What the files hold -/

/-- The contents the files had, and what the groups were written to, from the
oldest to the newest. -/
def segments (options : FileSinkOptions) (init : LogFiles) (groups : List (List (List Char))) :
    List (List Char) :=
  (slots options init).tail.reverse.filterMap id ++ (texts (startOf options init) groups).reverse

theorem filterMap_stack (options : FileSinkOptions) (init : LogFiles)
    (groups : List (List (List Char))) :
    (stack options init groups).reverse.filterMap id = segments options init groups := by
  rw [stack, List.reverse_append, List.filterMap_append, segments, ← List.map_reverse,
    List.filterMap_map]
  congr 1
  exact List.filterMap_some

theorem flatten_texts (start : List Char) {groups : List (List (List Char))} (h : groups ≠ []) :
    (texts start groups).reverse.flatten = start ++ groups.reverse.flatten.flatten := by
  induction groups with
  | nil => exact absurd rfl h
  | cons group older ih =>
    rw [texts, List.reverse_cons, List.reverse_cons, List.flatten_append, List.flatten_append,
      List.flatten_append, List.flatten_singleton, List.flatten_singleton]
    by_cases hnil : older = []
    · rw [hnil]
      rfl
    · have hempty : older.isEmpty = false := List.isEmpty_eq_false_iff.mpr hnil
      rw [ih hnil, fileText, hempty, List.append_assoc]
      rfl

/-- The files hold the newest lines, in order: `groups` are the lines by the
file they were written to, the newest first. -/
structure KeptLines (options : FileSinkOptions) (init : LogFiles) (lines : List (List Char))
    (groups : List (List (List Char))) (s : FileSink) : Prop where
  lines_eq : groups.reverse.flatten = lines
  /-- From the highest index down, the files are the end of what there ever was,
  whole files being gone. -/
  suffix : contents options s.files <:+ segments options init groups
  /-- All of it is what the files had at the start, and the lines. -/
  flatten_eq : (segments options init groups).flatten =
    (contents options init).flatten ++ lines.flatten
  /-- Nothing is gone that fits into the number of files, counting the indices
  that were free. -/
  slots_eq : slots options s.files = (stack options init groups).take (count options)
  /-- No other file is touched. -/
  frame : ∀ name, (∀ i < count options, name ≠ pathForIndex options i) → s.files name = init name
  /-- There are at most `maxFiles` files, if there were no others. -/
  index_lt : (∀ i, count options ≤ i → init (pathForIndex options i) = none) →
    ∀ i, s.files (pathForIndex options i) ≠ none → i < count options
  /-- A file that was written to has at most `maxBytes` bytes, or one line. -/
  limit : WithinLimit options.maxBytes (startOf options init) groups

theorem Stacked.keptLines {groups : List (List (List Char))} (h : Stacked options init groups s)
    (hcount : 0 < count options) : KeptLines options init groups.reverse.flatten groups s where
  lines_eq := rfl
  suffix := by
    rw [contents, h.slots_eq, ← filterMap_stack]
    exact (List.reverse_suffix.mpr (List.take_prefix ..)).filterMap id
  flatten_eq := by
    rw [segments, List.flatten_append, flatten_texts _ h.ne_nil, contents, slots_eq_cons hcount,
      List.tail_cons, List.reverse_cons, List.filterMap_append, List.flatten_append, startOf]
    cases init (pathForIndex options 0) <;> simp
  slots_eq := h.slots_eq
  frame := h.frame
  index_lt hinit i hi := by
    refine Nat.lt_of_not_le fun hle => hi ?_
    rw [h.frame _ fun j hj => pathForIndex_ne (by omega)]
    exact hinit i hle
  limit := h.limit

theorem count_bounded (options : FileSinkOptions) : 0 < count options.bounded := by
  show 0 < (if options.maxFiles < 1 then (1 : Int) else options.maxFiles).toNat
  split
  · decide
  · omega

/-- While every file operation succeeds, no file expires and each line has less
than 2^32 bytes, the files hold the newest lines in order. -/
theorem keptLines_afterLines (options : FileSinkOptions) (init : LogFiles)
    {lines : List (List Char)} (hsize : ∀ line ∈ lines, line.length < 2 ^ 32) :
    ∃ groups, KeptLines options.bounded init lines groups
      ((make options init true).afterLines lines) := by
  have hcount := count_bounded options
  obtain ⟨groups, hlines, h⟩ := (stacked_openCurrent hcount init).afterLines hcount hsize
  have hlines' : groups.reverse.flatten = lines := hlines
  exact ⟨groups, hlines' ▸ h.keptLines hcount⟩

/-- Two files, which one line of more than 64 KiB fills each. -/
def twoFiles : FileSinkOptions := { maxBytes := 64 * 1024, maxFiles := 2 }

/-- A wide line goes to a file of its own, and the line after it removes the one before. -/
theorem contents_twoFiles (hwide : 64 * 1024 < line.length) (hsize : line.length < 2 ^ 32) :
    contents twoFiles.bounded ((make twoFiles (fun _ => none) true).afterLines
      [lineOf ['a'], line, lineOf ['c']]).files = [line, lineOf ['c']] := by
  have hcount := count_bounded twoFiles
  have hfirst : Stacked twoFiles.bounded (fun _ => none) [[lineOf ['a']]]
      ((make twoFiles (fun _ => none) true).append .good (lineOf ['a'])) :=
    (stacked_openCurrent hcount _).append_fits hcount (by decide) (by decide)
  have hover : ((make twoFiles (fun _ => none) true).append .good (lineOf ['a'])).Overflows line := by
    rw [Overflows, hfirst.options_eq, (hfirst.current hcount).2]
    exact Nat.lt_add_left _ hwide
  have hsecond := hfirst.append_overflows hcount hsize hover
  have hlen : (fileText (startOf twoFiles.bounded fun _ => none) [line] [[lineOf ['a']]]).length =
      line.length := by
    rw [fileText, List.flatten_singleton]
    rfl
  have hthird : Stacked twoFiles.bounded (fun _ => none) [[lineOf ['c']], [line], [lineOf ['a']]]
      ((make twoFiles (fun _ => none) true).afterLines [lineOf ['a'], line, lineOf ['c']]) := by
    refine hsecond.append_overflows hcount (by decide) ?_
    rw [Overflows, hsecond.options_eq, (hsecond.current hcount).2, hlen]
    exact Nat.lt_add_right _ hwide
  rw [contents, hthird.slots_eq]
  show [some (line ++ []), some (lineOf ['c'])].filterMap id = _
  rw [List.append_nil]
  rfl

def wideLine : List Char := lineOf (List.replicate (64 * 1024) 'b')

theorem length_wideLine : wideLine.length = 65538 := by
  rw [wideLine, lineOf, List.length_append, List.length_replicate]
  rfl

theorem keptLines_rotated : (∃ groups, KeptLines twoFiles.bounded (fun _ => none)
      [lineOf ['a'], wideLine, lineOf ['c']] groups
      ((make twoFiles (fun _ => none) true).afterLines [lineOf ['a'], wideLine, lineOf ['c']])) ∧
    contents twoFiles.bounded ((make twoFiles (fun _ => none) true).afterLines
      [lineOf ['a'], wideLine, lineOf ['c']]).files = [wideLine, lineOf ['c']] := by
  have hsize : ∀ line ∈ [lineOf ['a'], wideLine, lineOf ['c']], line.length < 2 ^ 32 := by
    simp only [List.forall_mem_cons, length_wideLine]
    decide
  refine ⟨keptLines_afterLines twoFiles (fun _ => none) hsize, ?_⟩
  exact contents_twoFiles (by rw [length_wideLine]; decide) (by rw [length_wideLine]; decide)

/-! ## Longer lines -/

/-- One file that takes a line of 2^32 + 1 bytes. -/
def largeOptions : FileSinkOptions := { maxBytes := 2 ^ 33, maxFiles := 1 }

/-- Of a line of 2^32 + 1 bytes `WriteFile` takes the first. -/
theorem contents_cut (hlen : line.length = 2 ^ 32 + 1) :
    contents largeOptions.bounded ((make largeOptions (fun _ => none) true).afterLines [line]).files =
      [line.take 1] := by
  have hsize : writeSize line = 1 := by
    rw [writeSize, hlen]
    rfl
  have hfits : ¬ (make largeOptions (fun _ => none) true).Overflows line := by
    show ¬ 0 + line.length > 2 ^ 33
    rw [hlen]
    decide
  have hext := @slots_extended (make largeOptions (fun _ => none) true) (by decide) (line.take 1)
  have happend : ((make largeOptions (fun _ => none) true).append .good line).files =
      (make largeOptions (fun _ => none) true).extended (line.take 1) := by
    rw [append, if_neg (by decide), if_neg hfits, ← hsize]
    rfl
  have hempty : (make largeOptions (fun _ => none) true).files (pathForIndex largeOptions.bounded 0) =
      some [] := by
    show Function.update (fun _ => none) (pathForIndex largeOptions.bounded 0) (some [])
      (pathForIndex largeOptions.bounded 0) = _
    exact Function.update_self ..
  show contents largeOptions.bounded
    ((make largeOptions (fun _ => none) true).append .good line).files = _
  rw [happend, contents]
  show (slots (make largeOptions (fun _ => none) true).options _).reverse.filterMap id = _
  rw [hext]
  show ([some (((make largeOptions (fun _ => none) true).files
    (pathForIndex largeOptions.bounded 0)).getD [] ++ line.take 1)] : List _).filterMap id = _
  rw [hempty]
  rfl

theorem not_suffix_lineOf {c : Char} (hc : c ≠ '\n') (front text : List Char) :
    ¬ [c] <:+ front ++ [lineOf text].flatten := by
  rintro ⟨rest, heq⟩
  have hline : [lineOf text].flatten = (text ++ ['\r']) ++ ['\n'] := by
    rw [List.flatten_singleton, List.append_assoc]
    rfl
  rw [hline, ← List.append_assoc] at heq
  exact hc (List.cons.inj (List.append_inj_right' heq rfl)).1

/-- Not even the end of such a line is in the files. -/
theorem long_line_cut : ¬ ∀ (options : FileSinkOptions) (init : LogFiles)
    (lines : List (List Char)),
      (contents options.bounded ((make options init true).afterLines lines).files).flatten <:+
        (contents options.bounded init).flatten ++ lines.flatten := by
  intro h
  have hsuffix := h largeOptions (fun _ => none) [lineOf ('a' :: List.replicate (2 ^ 32 - 2) 'b')]
  have hlen : (lineOf ('a' :: List.replicate (2 ^ 32 - 2) 'b')).length = 2 ^ 32 + 1 := by
    rw [lineOf, List.length_append, List.length_cons, List.length_replicate]
    rfl
  have htake : (lineOf ('a' :: List.replicate (2 ^ 32 - 2) 'b')).take 1 = ['a'] := by
    rw [lineOf, List.cons_append, List.take_succ_cons, List.take_zero]
  rw [contents_cut hlen, htake] at hsuffix
  exact not_suffix_lineOf (by decide) _ _ hsuffix

end NovaVpn.Logs.FileSink
