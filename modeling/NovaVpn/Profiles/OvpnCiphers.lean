import NovaVpn.Profiles.OvpnSteps

/-!
# Weak ciphers

What the report of an import says of the ciphers that the configuration offers.
An argument of `cipher` or `data-ciphers` is looked up as a whole, so that a
weak cipher is reported exactly if it is an argument of its own
(`mem_warnings_iff`); in a list with colons it goes unnoticed
(`weak_in_list_unnoticed`).
-/

namespace NovaVpn.Profiles

open NovaVpn.Framework

/-- The arguments of all directives that offer ciphers, at top level. -/
def cipherArgs (text : List Char) : List String :=
  (items (Str.split '\n' text)).flatMap Item.cipherArgs

/-- The ciphers that a configuration offers: the elements of its lists. -/
def offeredCiphers (text : List Char) : List String :=
  (cipherArgs text).flatMap fun arg => (Str.split ':' arg.toList).map String.ofList

def weakPrefix : String := "configuration selects a weak cipher: "

def weakWarning (cipher : String) : String := weakPrefix ++ cipher

/-- The weak ciphers that are offered are reported, and no others. -/
structure WeakReported (text : List Char) (warnings : List String) : Prop where
  flagged : ∀ cipher ∈ offeredCiphers text, isWeakCipher cipher = true →
    weakWarning cipher ∈ warnings
  weak : ∀ cipher, weakWarning cipher ∈ warnings → isWeakCipher cipher = true

theorem weakWarning_inj {a b : String} : weakWarning a = weakWarning b ↔ a = b := by
  refine ⟨fun h => ?_, congrArg _⟩
  have hlist := congrArg String.toList h
  rw [weakWarning, weakWarning, String.toList_append, String.toList_append] at hlist
  exact String.toList_inj.mp (List.append_cancel_left hlist)

/-! ## What an item adds to the warnings -/

/-- A warning that begins in another way is none of this kind. -/
theorem weakWarning_ne {front warning : String} (hmem : front ∈ warningFronts)
    (hfront : front.toList <+: warning.toList) (cipher : String) : weakWarning cipher ≠ warning := by
  rintro rfl
  have hweak : weakPrefix.toList <+: (weakWarning cipher).toList := by
    rw [weakWarning, String.toList_append]
    exact List.prefix_append _ _
  have hapart : ∀ front ∈ warningFronts, ¬ front.toList <+: weakPrefix.toList ∧
      ¬ weakPrefix.toList <+: front.toList := by
    decide +kernel
  rcases List.prefix_or_prefix_of_prefix hfront hweak with hpre | hpre
  · exact (hapart front hmem).1 hpre
  · exact (hapart front hmem).2 hpre

theorem Aside.mem_warnings {s t : ParseState} (h : Aside s t) (cipher : String) :
    weakWarning cipher ∈ t.report.warnings ↔ weakWarning cipher ∈ s.report.warnings := by
  obtain ⟨added, hadded, hfronts⟩ := h.warnings
  rw [hadded, List.mem_append]
  refine or_iff_left fun hmem => ?_
  obtain ⟨front, hfront, hpre⟩ := hfronts _ hmem
  exact weakWarning_ne hfront hpre cipher rfl

/-- The weak ciphers among the arguments are reported, each as it is written. -/
theorem mem_warnings_ciphers (s : ParseState) (args : List String) (cipher : String) :
    weakWarning cipher ∈ (s.applyCiphers args).report.warnings ↔
      weakWarning cipher ∈ s.report.warnings ∨ cipher ∈ args ∧ isWeakCipher cipher = true := by
  have hfold : ∀ (l : List String) (s : ParseState),
      weakWarning cipher ∈ (l.foldl (fun s cipher => s.warn (weakWarning cipher)) s).report.warnings ↔
        weakWarning cipher ∈ s.report.warnings ∨ cipher ∈ l := by
    intro l
    induction l with
    | nil => simp
    | cons c l ih =>
      intro s
      have hwarn : weakWarning cipher ∈ (s.warn (weakWarning c)).report.warnings ↔
          weakWarning cipher ∈ s.report.warnings ∨ cipher = c := by
        rw [ParseState.warn, List.mem_append, List.mem_singleton, weakWarning_inj]
      rw [List.foldl_cons, ih, hwarn, List.mem_cons, or_assoc]
  cases args with
  | nil => simp [ParseState.applyCiphers]
  | cons first rest =>
    refine (hfold ((first :: rest).filter isWeakCipher) _).trans ?_
    rw [List.mem_filter]
    rfl

/-- What one item adds. -/
theorem Effect.mem_warnings {s t : ParseState} {item : Item} (h : Effect s item t) (cipher : String) :
    weakWarning cipher ∈ t.report.warnings ↔
      weakWarning cipher ∈ s.report.warnings ∨
        cipher ∈ item.cipherArgs ∧ isWeakCipher cipher = true := by
  have hnone (hwarnings : weakWarning cipher ∈ t.report.warnings ↔
      weakWarning cipher ∈ s.report.warnings) (hargs : item.cipherArgs = []) :
      weakWarning cipher ∈ t.report.warnings ↔ weakWarning cipher ∈ s.report.warnings ∨
        cipher ∈ item.cipherArgs ∧ isWeakCipher cipher = true := by
    rw [hwarnings, hargs]
    simp
  cases h with
  | remote host rest => exact hnone Iff.rfl rfl
  | proto proto rest => exact hnone Iff.rfl rfl
  | port hkey port rest =>
    refine hnone Iff.rfl ?_
    rcases hkey with rfl | rfl <;> rfl
  | ciphers hkey args => rw [mem_warnings_ciphers, Item.cipherArgs, if_pos hkey]
  | aside h _ _ _ hciphers => exact hnone (h.mem_warnings cipher) hciphers

/-- What the items add, one after the other. -/
theorem mem_warnings_items {files : SideFiles} {options : OvpnParseOptions} {l : List Item}
    {s t : ParseState} (h : l.foldlM (ParseState.applyItem files options) s = .ok t)
    (cipher : String) :
    weakWarning cipher ∈ t.report.warnings ↔
      weakWarning cipher ∈ s.report.warnings ∨
        cipher ∈ l.flatMap Item.cipherArgs ∧ isWeakCipher cipher = true := by
  induction l generalizing s with
  | nil =>
    cases h
    simp
  | cons item l ih =>
    obtain ⟨s', hitem, hl⟩ := foldlM_cons_ok.mp h
    rw [ih hl, (effect_of_apply hitem).mem_warnings, List.flatMap_cons, List.mem_append, or_and_right,
      or_assoc]

theorem mem_warnings_finish {s : ParseState} {r : ImportReport} (h : s.finish = .ok r)
    (cipher : String) :
    weakWarning cipher ∈ r.warnings ↔ weakWarning cipher ∈ s.report.warnings := by
  unfold ParseState.finish at h
  split at h
  · cases h
  · cases h
    dsimp only
    split
    · refine List.mem_append.trans (or_iff_left fun hmem => ?_)
      have hfront : "configuration has no CA" ∈ warningFronts := by decide
      exact weakWarning_ne hfront (by decide +kernel) cipher (List.mem_singleton.mp hmem)
    · exact Iff.rfl

section

variable {files : SideFiles} {options : OvpnParseOptions} {text : List Char} {report : ImportReport}

/-- A weak cipher is reported exactly if it is an argument of its own. -/
theorem mem_warnings_iff (h : parseOvpn files options text = .ok report) (cipher : String) :
    weakWarning cipher ∈ report.warnings ↔ cipher ∈ cipherArgs text ∧ isWeakCipher cipher = true := by
  rw [parseOvpn_eq] at h
  obtain ⟨s, hs, hfinish⟩ := Result.bind_eq_ok_iff.mp h
  have hnone : weakWarning cipher ∉ (ParseState.initial options text).report.warnings :=
    List.not_mem_nil
  rw [mem_warnings_finish hfinish, mem_warnings_items hs, or_iff_right hnone]
  rfl

/-- The weak ciphers of a configuration are reported exactly if each of them
stands for itself somewhere. -/
theorem weakReported_iff (h : parseOvpn files options text = .ok report) :
    WeakReported text report.warnings ↔
      ∀ cipher ∈ offeredCiphers text, isWeakCipher cipher = true → cipher ∈ cipherArgs text := by
  refine ⟨fun hreported cipher hoffered hweak => ?_, fun hstand => ⟨fun cipher hoffered hweak => ?_, ?_⟩⟩
  · exact ((mem_warnings_iff h cipher).mp (hreported.flagged cipher hoffered hweak)).1
  · exact (mem_warnings_iff h cipher).mpr ⟨hstand cipher hoffered hweak, hweak⟩
  · exact fun cipher hmem => ((mem_warnings_iff h cipher).mp hmem).2

end

/-- A server, and the ciphers offered to it. -/
def offering (ciphers : String) : List Char :=
  ("remote vpn.example.net\ndata-ciphers " ++ ciphers).toList

/-- The warnings of the import. -/
def warningsFor (ciphers : String) : Option (List String) :=
  (parseOvpn noFiles {} (offering ciphers)).toOption.map fun r => r.warnings

theorem exists_of_warnings {ciphers : String} {warnings : List String}
    (h : warningsFor ciphers = some warnings) :
    ∃ r, parseOvpn noFiles {} (offering ciphers) = .ok r ∧ r.warnings = warnings := by
  obtain ⟨r, hr, hwarnings⟩ := Option.map_eq_some_iff.mp h
  exact ⟨r, Result.eq_ok_of_toOption hr, hwarnings⟩

def noCaWarning : String :=
  "configuration has no CA certificate; the server cannot be authenticated until one is provided"

theorem weak_alone_is_reported : ∃ r, parseOvpn noFiles {} (offering "BF-CBC") = .ok r ∧
    WeakReported (offering "BF-CBC") r.warnings := by
  have hrun : warningsFor "BF-CBC" = some [weakWarning "BF-CBC", noCaWarning] := by decide +kernel
  obtain ⟨r, hr, -⟩ := exists_of_warnings hrun
  exact ⟨r, hr, (weakReported_iff hr).mpr (by decide +kernel)⟩

/-- A weak cipher in a list. -/
theorem weak_in_list_unnoticed : ¬ ∀ files options text r, parseOvpn files options text = .ok r →
    WeakReported text r.warnings := by
  intro h
  have hrun : warningsFor "AES-256-GCM:BF-CBC" = some [noCaWarning] := by decide +kernel
  obtain ⟨r, hr, hwarnings⟩ := exists_of_warnings hrun
  have hflagged := (h _ _ _ r hr).flagged "BF-CBC" (by decide +kernel) (by decide +kernel)
  rw [hwarnings] at hflagged
  revert hflagged
  decide +kernel

end NovaVpn.Profiles
