import Mathlib.Logic.Relation
import NovaVpn.Profiles.OvpnForms

/-!
# The defaults of the remotes

A remote takes the port and the protocol that it does not name from the lines
before it, when it is met (`remotes_of_parse`). What a file states for all its
remotes is taken by them exactly if the `port` and `proto` lines stand before
the remotes that need them, or state what holds without them (`remotes_follow_iff`);
so the remotes change when such a line is moved (`port_behind_is_missed`).
-/

namespace NovaVpn.Profiles

open NovaVpn.Framework

/-! ## What a file states -/

/-- The port that the file states for its remotes. -/
def filePort (l : List Item) : UInt16 := ((l.filterMap Item.portLine).head?.map readPort).getD 1194

def fileProto (l : List Item) : String := (l.filterMap Item.protoLine).head?.getD ""

/-- The remotes, with what the file states for those that do not name it. -/
def statedRemotes (l : List Item) : List RemoteEntry :=
  l.flatMap fun item => remoteOf (fileProto l) (filePort l) item.remoteArgs

/-- At most one `port` and one `proto` line. -/
structure StatedOnce (l : List Item) : Prop where
  port : (l.filterMap Item.portLine).length ≤ 1
  proto : (l.filterMap Item.protoLine).length ≤ 1

/-- The `port` line stands before every remote without a port, unless it states
1194, and the `proto` line before every remote without a protocol, unless it
states UDP. -/
structure DefaultsFirst (l : List Item) : Prop where
  port : filePort l = 1194 ∨
    ∀ a item b, l = a ++ item :: b → item.UsesPort → a.filterMap Item.portLine ≠ []
  proto : protoOf (fileProto l) = .udp ∨
    ∀ a item b, l = a ++ item :: b → item.UsesProto → a.filterMap Item.protoLine ≠ []

/-! ## What the remotes take -/

/-- The defaults behind some items. -/
def portAfter (port : UInt16) (l : List Item) : UInt16 :=
  ((l.filterMap Item.portLine).getLast?.map readPort).getD port

def protoAfter (proto : String) (l : List Item) : String :=
  (l.filterMap Item.protoLine).getLast?.getD proto

/-- The remotes as they are met. -/
def taken (proto : String) (port : UInt16) : List Item → List RemoteEntry
  | [] => []
  | item :: l =>
    remoteOf proto port item.remoteArgs ++
      taken (item.protoLine.getD proto) ((item.portLine.map readPort).getD port) l

theorem portAfter_cons (port : UInt16) (item : Item) (l : List Item) :
    portAfter port (item :: l) = portAfter ((item.portLine.map readPort).getD port) l := by
  cases hline : item.portLine with
  | none => simp [portAfter, hline]
  | some text =>
    cases hl : (l.filterMap Item.portLine).getLast? with
    | none => simp [portAfter, hline, List.getLast?_cons, hl]
    | some last => simp [portAfter, hline, List.getLast?_cons, hl]

theorem protoAfter_cons (proto : String) (item : Item) (l : List Item) :
    protoAfter proto (item :: l) = protoAfter (item.protoLine.getD proto) l := by
  cases hline : item.protoLine with
  | none => simp [protoAfter, hline]
  | some text =>
    cases hl : (l.filterMap Item.protoLine).getLast? with
    | none => simp [protoAfter, hline, List.getLast?_cons, hl]
    | some last => simp [protoAfter, hline, List.getLast?_cons, hl]

section Run

variable {files : SideFiles} {options : OvpnParseOptions} {l : List Item} {s t : ParseState}

theorem remotes_of_run (h : l.foldlM (ParseState.applyItem files options) s = .ok t) :
    t.profile.remotes = s.profile.remotes ++ taken s.protoDefault s.portDefault l := by
  induction l generalizing s with
  | nil =>
    cases h
    exact (List.append_nil _).symm
  | cons item l ih =>
    obtain ⟨s', hitem, hl⟩ := foldlM_cons_ok.mp h
    obtain ⟨hremotes, hproto, hport, -⟩ := (effect_of_apply hitem).defaults
    rw [ih hl, hremotes, hproto, hport, List.append_assoc]
    rfl

theorem sawRemote_of_run (h : l.foldlM (ParseState.applyItem files options) s = .ok t) :
    t.sawRemote = (s.sawRemote || l.any fun item => !item.remoteArgs.isEmpty) := by
  induction l generalizing s with
  | nil =>
    cases h
    exact (Bool.or_false _).symm
  | cons item l ih =>
    obtain ⟨s', hitem, hl⟩ := foldlM_cons_ok.mp h
    rw [ih hl, (effect_of_apply hitem).defaults.2.2.2, List.any_cons, Bool.or_assoc]

end Run

theorem remotes_finish {s : ParseState} {r : ImportReport} (h : s.finish = .ok r) :
    s.sawRemote = true ∧ r.profile.remotes = s.profile.remotes := by
  unfold ParseState.finish at h
  split at h
  · cases h
  next hsaw =>
    cases h
    refine ⟨by simpa using hsaw, ?_⟩
    dsimp only
    split <;> rfl

/-- What is imported: every remote with the defaults before it. -/
theorem remotes_of_parse {files : SideFiles} {options : OvpnParseOptions} {text : List Char}
    {r : ImportReport} (h : parseOvpn files options text = .ok r) :
    r.profile.remotes = taken "" 1194 (items (Str.split '\n' text)) := by
  rw [parseOvpn_eq] at h
  obtain ⟨s, hs, hfinish⟩ := Result.bind_eq_ok_iff.mp h
  rw [(remotes_finish hfinish).2, remotes_of_run hs]
  rfl

/-! ## Where the two agree -/

theorem length_remoteOf_eq (proto proto' : String) (port port' : UInt16) (args : List String) :
    (remoteOf proto port args).length = (remoteOf proto' port' args).length := by
  simp [remoteOf]

/-- A remote depends on the defaults that it does not name. -/
theorem remoteOf_eq_iff {item : Item} {proto proto' : String} {port port' : UInt16} :
    remoteOf proto port item.remoteArgs = remoteOf proto' port' item.remoteArgs ↔
      (item.UsesPort → port = port') ∧ (item.UsesProto → protoOf proto = protoOf proto') := by
  by_cases hremote : ∃ host rest, item = .directive "remote" (host :: rest)
  · obtain ⟨host, rest, rfl⟩ := hremote
    have hargs : (Item.directive "remote" (host :: rest)).remoteArgs = host :: rest := rfl
    rw [hargs]
    obtain _ | ⟨own, _ | ⟨transport, rest⟩⟩ := rest
    · simp [remoteOf, Item.UsesPort, Item.UsesProto, protoOf]
    · by_cases hzero : (Str.strtoul own.toList).toUInt16 = 0
      · simp [remoteOf, Item.UsesPort, Item.UsesProto, protoOf, hzero]
      · simp [remoteOf, Item.UsesPort, Item.UsesProto, protoOf, hzero]
    · by_cases hzero : (Str.strtoul own.toList).toUInt16 = 0
      · simp [remoteOf, Item.UsesPort, Item.UsesProto, hzero]
      · simp [remoteOf, Item.UsesPort, Item.UsesProto, hzero]
  · have hnone : item.remoteArgs = [] := by
      cases item with
      | directive keyword args =>
        refine ite_eq_right_iff.mpr fun hkey => ?_
        cases args with
        | nil => rfl
        | cons host rest => exact absurd ⟨host, rest, by rw [hkey]⟩ hremote
      | _ => rfl
    have hport : ¬ item.UsesPort := by
      rintro (⟨host, rfl⟩ | ⟨host, own, rest, rfl, -⟩)
      · exact hremote ⟨_, _, rfl⟩
      · exact hremote ⟨_, _, rfl⟩
    have hproto : ¬ item.UsesProto := by
      rintro ⟨args, rfl, hlength⟩
      cases args with
      | nil => simp at hlength
      | cons host rest => exact hremote ⟨_, _, rfl⟩
    rw [hnone]
    exact iff_of_true rfl ⟨fun h => absurd h hport, fun h => absurd h hproto⟩

/-- What is taken is what is given exactly if it is so for every item. -/
theorem taken_eq_iff {l : List Item} {proto proto' : String} {port port' : UInt16} :
    taken proto port l = l.flatMap (fun item => remoteOf proto' port' item.remoteArgs) ↔
      ∀ a item b, l = a ++ item :: b →
        remoteOf (protoAfter proto a) (portAfter port a) item.remoteArgs =
          remoteOf proto' port' item.remoteArgs := by
  induction l generalizing proto port with
  | nil => simp [taken]
  | cons item l ih =>
    rw [taken, List.flatMap_cons]
    refine ⟨fun h => ?_, fun h => ?_⟩
    · obtain ⟨hitem, hl⟩ := List.append_inj h (length_remoteOf_eq ..)
      intro a item' b heq
      cases a with
      | nil =>
        obtain ⟨rfl, rfl⟩ := List.cons.inj heq
        exact hitem
      | cons first a =>
        obtain ⟨rfl, hrest⟩ := List.cons.inj heq
        rw [protoAfter_cons, portAfter_cons]
        exact ih.mp hl a item' b hrest
    · have hitem := h [] item l rfl
      have hl := ih.mpr fun a item' b heq => by
        have hcons := h (item :: a) item' b (by rw [heq, List.cons_append])
        rwa [protoAfter_cons, portAfter_cons] at hcons
      rw [hl]
      exact congrArg (· ++ _) hitem

/-- Of lines that stand once, those before a place are none or all. -/
theorem nil_or_all {α β : Type} {f : α → Option β} {l a : List α} {x : α} {b : List α}
    (hone : (l.filterMap f).length ≤ 1) (hl : l = a ++ x :: b) :
    a.filterMap f = [] ∨ a.filterMap f = l.filterMap f := by
  rw [hl, List.filterMap_append, List.length_append] at hone
  cases ha : a.filterMap f with
  | nil => exact Or.inl rfl
  | cons first rest =>
    rw [ha, List.length_cons] at hone
    have hb : (x :: b).filterMap f = [] := List.eq_nil_of_length_eq_zero (by omega)
    rw [hl, List.filterMap_append, hb, List.append_nil, ha]
    exact Or.inr rfl

theorem StatedOnce.portAfter_eq {l a b : List Item} {item : Item} (hone : StatedOnce l)
    (hl : l = a ++ item :: b) :
    portAfter 1194 a = filePort l ↔ filePort l = 1194 ∨ a.filterMap Item.portLine ≠ [] := by
  rcases nil_or_all hone.port hl with hnil | hall
  · rw [portAfter, hnil]
    simp [eq_comm]
  · have hlast : portAfter 1194 a = filePort l := by
      rw [portAfter, filePort, hall]
      rcases hlines : l.filterMap Item.portLine with _ | ⟨line, _ | ⟨line', rest⟩⟩
      · rfl
      · rfl
      · exact absurd hone.port (by simp [hlines])
    by_cases hnil : a.filterMap Item.portLine = []
    · have hport : filePort l = 1194 := by
        rw [← hlast, portAfter, hnil]
        rfl
      simp [hlast, hport]
    · exact iff_of_true hlast (Or.inr hnil)

theorem StatedOnce.protoAfter_eq {l a b : List Item} {item : Item} (hone : StatedOnce l)
    (hl : l = a ++ item :: b) :
    protoOf (protoAfter "" a) = protoOf (fileProto l) ↔
      protoOf (fileProto l) = .udp ∨ a.filterMap Item.protoLine ≠ [] := by
  have hempty : protoOf "" = .udp := rfl
  rcases nil_or_all hone.proto hl with hnil | hall
  · rw [protoAfter, hnil]
    simp [hempty, eq_comm]
  · have hlast : protoAfter "" a = fileProto l := by
      rw [protoAfter, fileProto, hall]
      rcases hlines : l.filterMap Item.protoLine with _ | ⟨line, _ | ⟨line', rest⟩⟩
      · rfl
      · rfl
      · exact absurd hone.proto (by simp [hlines])
    by_cases hnil : a.filterMap Item.protoLine = []
    · have hproto : protoOf (fileProto l) = .udp := by
        rw [← hlast, protoAfter, hnil]
        rfl
      simp [hlast, hproto]
    · exact iff_of_true (congrArg protoOf hlast) (Or.inr hnil)

/-- The remotes are as the file states them exactly if its lines stand first. -/
theorem taken_eq_stated_iff {l : List Item} (hone : StatedOnce l) :
    taken "" 1194 l = statedRemotes l ↔ DefaultsFirst l := by
  rw [statedRemotes, taken_eq_iff]
  refine ⟨fun h => ⟨?_, ?_⟩, fun h a item b hl => ?_⟩
  · refine Decidable.or_iff_not_imp_left.mpr fun hport a item b hl huses => ?_
    have hitem := (remoteOf_eq_iff.mp (h a item b hl)).1 huses
    exact ((hone.portAfter_eq hl).mp hitem).resolve_left hport
  · refine Decidable.or_iff_not_imp_left.mpr fun hproto a item b hl huses => ?_
    have hitem := (remoteOf_eq_iff.mp (h a item b hl)).2 huses
    exact ((hone.protoAfter_eq hl).mp hitem).resolve_left hproto
  · refine remoteOf_eq_iff.mpr ⟨fun huses => ?_, fun huses => ?_⟩
    · exact (hone.portAfter_eq hl).mpr (h.port.imp_right fun hfirst => hfirst a item b hl huses)
    · exact (hone.protoAfter_eq hl).mpr (h.proto.imp_right fun hfirst => hfirst a item b hl huses)

/-! ## Moving the lines -/

def Item.isDefault (item : Item) : Bool := item.portLine.isSome || item.protoLine.isSome

/-- No block is open behind the lines. -/
def TopLevel (lines : List (List Char)) : Prop := ∀ tag, .unterminated tag ∉ items lines

/-- A `port` or `proto` line is moved down, from one place at top level to
another. -/
inductive LineMoved : List (List Char) → List (List Char) → Prop
  | down {a b c : List (List Char)} {line : List Char} {item : Item} (hline : items [line] = [item])
      (hdefault : item.isDefault = true) (ha : TopLevel a) (hb : TopLevel b) :
      LineMoved (a ++ line :: (b ++ c)) (a ++ (b ++ line :: c))

/-- The items are the same, and those that state no default are in the same
order. -/
structure Rearranged (l l' : List Item) : Prop where
  perm : l'.Perm l
  others : l'.filter (!·.isDefault) = l.filter (!·.isDefault)

namespace Rearranged

variable {l l' l'' : List Item}

protected theorem refl (l : List Item) : Rearranged l l := ⟨.refl l, rfl⟩

protected theorem symm (h : Rearranged l l') : Rearranged l' l := ⟨h.perm.symm, h.others.symm⟩

protected theorem trans (h : Rearranged l l') (h' : Rearranged l' l'') : Rearranged l l'' :=
  ⟨h'.perm.trans h.perm, h'.others.trans h.others⟩

/-- What stands at most once is found wherever it stands. -/
theorem filterMap_eq {β : Type} (h : Rearranged l l') {f : Item → Option β}
    (hone : (l.filterMap f).length ≤ 1) : l'.filterMap f = l.filterMap f := by
  have hperm := h.perm.filterMap f
  rcases hl : l.filterMap f with _ | ⟨x, _ | ⟨y, rest⟩⟩
  · rw [hl] at hperm
    exact List.perm_nil.mp hperm
  · rw [hl] at hperm
    exact List.perm_singleton.mp hperm
  · rw [hl] at hone
    simp at hone

theorem filePort_eq (h : Rearranged l l') (hone : StatedOnce l) : filePort l' = filePort l := by
  rw [filePort, h.filterMap_eq hone.port, filePort]

theorem fileProto_eq (h : Rearranged l l') (hone : StatedOnce l) : fileProto l' = fileProto l := by
  rw [fileProto, h.filterMap_eq hone.proto, fileProto]

theorem statedOnce (h : Rearranged l l') (hone : StatedOnce l) : StatedOnce l' where
  port := by
    rw [h.filterMap_eq hone.port]
    exact hone.port
  proto := by
    rw [h.filterMap_eq hone.proto]
    exact hone.proto

theorem remoteArgs_of_isDefault {item : Item} (h : item.isDefault = true) : item.remoteArgs = [] := by
  cases item with
  | directive keyword args =>
    refine ite_eq_right_iff.mpr fun hkey => ?_
    subst hkey
    exact absurd h (by simp [Item.isDefault, Item.portLine, Item.protoLine])
  | _ => rfl

/-- The lines themselves are no remotes. -/
theorem flatMap_others (proto : String) (port : UInt16) (l : List Item) :
    (l.filter (!·.isDefault)).flatMap (fun item => remoteOf proto port item.remoteArgs) =
      l.flatMap fun item => remoteOf proto port item.remoteArgs := by
  induction l with
  | nil => rfl
  | cons item l ih =>
    cases hdefault : item.isDefault with
    | false => rw [List.filter_cons_of_pos (by simp [hdefault]), List.flatMap_cons, List.flatMap_cons, ih]
    | true =>
      rw [List.filter_cons_of_neg (by simp [hdefault]), List.flatMap_cons,
        remoteArgs_of_isDefault hdefault, ih]
      rfl

/-- What the file states for its remotes does not depend on where it does. -/
theorem statedRemotes_eq (h : Rearranged l l') (hone : StatedOnce l) :
    statedRemotes l' = statedRemotes l := by
  rw [statedRemotes, statedRemotes, ← flatMap_others, ← flatMap_others _ _ l, h.others,
    h.fileProto_eq hone, h.filePort_eq hone]

end Rearranged

theorem LineMoved.rearranged {lines lines' : List (List Char)} (h : LineMoved lines lines') :
    Rearranged (items lines) (items lines') := by
  cases h with
  | @down a b c line item hline hdefault ha hb =>
    have htop : TopLevel [line] := by
      intro tag hmem
      rw [hline, List.mem_singleton] at hmem
      subst hmem
      cases hdefault
    have hitem (rest : List (List Char)) : items (line :: rest) = item :: items rest := by
      have happend := items_append htop rest
      rwa [hline] at happend
    rw [items_append ha, items_append ha, hitem, items_append hb, items_append hb, hitem]
    refine ⟨List.perm_middle.append_left _, ?_⟩
    simp [List.filter_append, hdefault]

theorem rearranged_of_moved {lines lines' : List (List Char)}
    (h : Relation.EqvGen LineMoved lines lines') : Rearranged (items lines) (items lines') := by
  induction h with
  | rel _ _ h => exact h.rearranged
  | refl lines => exact .refl _
  | symm _ _ _ ih => exact ih.symm
  | trans _ _ _ _ _ ih ih' => exact ih.trans ih'

section

variable {files : SideFiles} {options : OvpnParseOptions} {text text' : List Char} {r : ImportReport}

/-- What is accepted is accepted with its items in another order. -/
theorem parse_rearranged (h : parseOvpn files options text = .ok r)
    (hmoved : Rearranged (items (Str.split '\n' text)) (items (Str.split '\n' text'))) :
    ∃ r', parseOvpn files options text' = .ok r' := by
  rw [parseOvpn_eq] at h
  obtain ⟨s, hs, hfinish⟩ := Result.bind_eq_ok_iff.mp h
  obtain ⟨s', hs'⟩ := foldlM_total
    (fun item hitem => foldlM_ok_mem hs item (hmoved.perm.mem_iff.mp hitem)) (.initial options text')
  have hsaw : s'.sawRemote = true := by
    have hfirst := (remotes_finish hfinish).1
    rw [sawRemote_of_run hs] at hfirst
    rw [sawRemote_of_run hs', hmoved.perm.any_eq]
    exact hfirst
  obtain ⟨r', hr'⟩ := finish_ok hsaw
  refine ⟨r', ?_⟩
  rw [parseOvpn_eq, hs']
  exact hr'

/-- For a file with at most one `port` and one `proto` line, and every way to
move these: the remotes are what the file states, before and after, exactly if
the lines that matter stand first, before and after. -/
theorem remotes_follow_iff (h : parseOvpn files options text = .ok r)
    (hone : StatedOnce (items (Str.split '\n' text)))
    (hmoved : Relation.EqvGen LineMoved (Str.split '\n' text) (Str.split '\n' text')) :
    ∃ r', parseOvpn files options text' = .ok r' ∧
      (r.profile.remotes = statedRemotes (items (Str.split '\n' text)) ∧
          r'.profile.remotes = r.profile.remotes ↔
        DefaultsFirst (items (Str.split '\n' text)) ∧
          DefaultsFirst (items (Str.split '\n' text'))) := by
  have hrearranged := rearranged_of_moved hmoved
  obtain ⟨r', h'⟩ := parse_rearranged h hrearranged
  refine ⟨r', h', ?_⟩
  rw [← taken_eq_stated_iff hone, ← taken_eq_stated_iff (hrearranged.statedOnce hone),
    hrearranged.statedRemotes_eq hone, remotes_of_parse h, remotes_of_parse h']
  exact and_congr_right fun heq => by rw [heq]

end

/-- A server, with its port before it or behind it. -/
def portBefore (port : String) : List Char := ("port " ++ port ++ "\nremote vpn.example.net").toList

def portBehind (port : String) : List Char := ("remote vpn.example.net\nport " ++ port).toList

theorem moved_behind (port : String) (line : List Char)
    (hbefore : Str.split '\n' (portBefore port) = [line, "remote vpn.example.net".toList])
    (hbehind : Str.split '\n' (portBehind port) = ["remote vpn.example.net".toList, line])
    (hline : items [line] = [.directive "port" [port]]) :
    Relation.EqvGen LineMoved (Str.split '\n' (portBefore port)) (Str.split '\n' (portBehind port)) := by
  have hb : TopLevel ["remote vpn.example.net".toList] := by
    have hitems : items ["remote vpn.example.net".toList] =
        [.directive "remote" ["vpn.example.net"]] := by decide +kernel
    intro tag hmem
    rw [hitems, List.mem_singleton] at hmem
    cases hmem
  have hmoved : LineMoved ([] ++ line :: (["remote vpn.example.net".toList] ++ []))
      ([] ++ (["remote vpn.example.net".toList] ++ line :: [])) :=
    .down hline rfl (fun _ => List.not_mem_nil) hb
  rw [hbefore, hbehind]
  exact .rel _ _ hmoved

def remotesOf (text : List Char) : Option (List RemoteEntry) :=
  (parseOvpn noFiles {} text).toOption.map fun r => r.profile.remotes

theorem exists_of_remotesOf {text : List Char} {remotes : List RemoteEntry}
    (h : remotesOf text = some remotes) :
    ∃ r, parseOvpn noFiles {} text = .ok r ∧ r.profile.remotes = remotes := by
  obtain ⟨r, hr, hremotes⟩ := Option.map_eq_some_iff.mp h
  exact ⟨r, Result.eq_ok_of_toOption hr, hremotes⟩

theorem default_port_moves : ∃ r r', parseOvpn noFiles {} (portBefore "1194") = .ok r ∧
    parseOvpn noFiles {} (portBehind "1194") = .ok r' ∧ r'.profile.remotes = r.profile.remotes := by
  have hrun : remotesOf (portBefore "1194") = some [{ host := "vpn.example.net" }] := by decide +kernel
  obtain ⟨r, hr, -⟩ := exists_of_remotesOf hrun
  have hone : StatedOnce (items (Str.split '\n' (portBefore "1194"))) :=
    ⟨by decide +kernel, by decide +kernel⟩
  have hmoved := moved_behind "1194" "port 1194".toList (by decide +kernel)
    (by decide +kernel) (by decide +kernel)
  obtain ⟨r', hr', hiff⟩ := remotes_follow_iff hr hone hmoved
  refine ⟨r, r', hr, hr', (hiff.mpr ⟨?_, ?_⟩).2⟩ <;>
  exact ⟨Or.inl (by decide +kernel), Or.inl (by decide +kernel)⟩

/-- A remote does not get the port that is stated behind it. -/
theorem port_behind_is_missed : ¬ ∀ files options text text' r r',
    parseOvpn files options text = .ok r → parseOvpn files options text' = .ok r' →
      StatedOnce (items (Str.split '\n' text)) →
        Relation.EqvGen LineMoved (Str.split '\n' text) (Str.split '\n' text') →
          r.profile.remotes = statedRemotes (items (Str.split '\n' text)) ∧
            r'.profile.remotes = r.profile.remotes := by
  intro h
  have hbefore : remotesOf (portBefore "443") = some [{ host := "vpn.example.net", port := 443 }] := by
    decide +kernel
  have hbehind : remotesOf (portBehind "443") = some [{ host := "vpn.example.net", port := 1194 }] := by
    decide +kernel
  obtain ⟨r, hr, hremotes⟩ := exists_of_remotesOf hbefore
  obtain ⟨r', hr', hremotes'⟩ := exists_of_remotesOf hbehind
  have hmoved := moved_behind "443" "port 443".toList (by decide +kernel)
    (by decide +kernel) (by decide +kernel)
  have hsame := (h _ _ _ _ r r' hr hr' ⟨by decide +kernel, by decide +kernel⟩ hmoved).2
  rw [hremotes, hremotes'] at hsame
  revert hsame
  decide

end NovaVpn.Profiles
