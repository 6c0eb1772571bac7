import NovaVpn.Core.Persist
import NovaVpn.Core.Utf8
import NovaVpn.Logs.FileSink
import NovaVpn.Logs.Logger

/-!
# One record, one line

`formatText` and `formatJsonLine` of `Logs/LogRecord.cpp`, and what `write` of
the file sink makes of them. The strings of a record are bytes, each the
character of that code. The text format takes them as they are, so a line break
in one starts another line; the JSON format escapes them, but the library
throws on a text that is not UTF-8, and `write` does not catch it
(`one_line_iff`).
-/

namespace NovaVpn

namespace Json

/-- The texts of a value: its strings, and the keys of its objects. -/
inductive HasText : Json → String → Prop
  | str {text : String} : HasText (.str text) text
  | item {items : List Json} {j : Json} {text : String} (hj : j ∈ items) (h : HasText j text) :
    HasText (.arr items) text
  | key {fs : List (String × Json)} {f : String × Json} (hf : f ∈ fs) : HasText (.obj fs) f.1
  | value {fs : List (String × Json)} {f : String × Json} {text : String} (hf : f ∈ fs)
    (h : HasText f.2 text) : HasText (.obj fs) text

/-- Every text of a value has a property. -/
def AllTexts (P : String → Prop) (j : Json) : Prop := ∀ text, HasText j text → P text

variable {P : String → Prop}

theorem allTexts_str {text : String} : AllTexts P (.str text) ↔ P text :=
  ⟨fun h => h text .str, fun h t ht => by cases ht; exact h⟩

theorem allTexts_int (n : Int) : AllTexts P (.int n) := fun _ h => by cases h

theorem allTexts_obj {fs : List (String × Json)} :
    AllTexts P (.obj fs) ↔ ∀ f ∈ fs, P f.1 ∧ AllTexts P f.2 := by
  constructor
  · exact fun h f hf => ⟨h f.1 (.key hf), fun t ht => h t (.value hf ht)⟩
  · intro h t ht
    cases ht with
    | key hf => exact (h _ hf).1
    | value hf hv => exact (h _ hf).2 t hv

end Json

namespace Doc

variable {P : String → Prop}

/-- The texts of an object: its keys, and those of the last value of each. -/
theorem allTexts_ofFields (fields : List (String × Doc)) :
    (ofFields fields).value.AllTexts P ↔
      ∀ key d, fields.reverse.lookup key = some d → P key ∧ d.value.AllTexts P := by
  obtain ⟨fs, hfs⟩ : ∃ fs, (ofFields fields).value = .obj fs :=
    ⟨_, value_foldl_insert fields .object rfl⟩
  have hordered : Json.OrderedFields fs := by
    have := (ofFields fields).ordered.fields
    rwa [hfs] at this
  have hlookup : ∀ key, fs.lookup key = (fields.reverse.lookup key).map value := by
    intro key
    rw [← field_ofFields, field, hfs]
    rfl
  rw [hfs, Json.allTexts_obj]
  constructor
  · intro h key d hd
    have hkey : fs.lookup key = some d.value := by rw [hlookup, hd]; rfl
    obtain ⟨l, r, heq, -⟩ := List.lookup_eq_some_iff.mp hkey
    exact h (key, d.value) (by rw [heq]; exact List.mem_append_right _ List.mem_cons_self)
  · rintro h ⟨key, v⟩ hf
    have hkey := Json.lookup_of_mem hordered hf
    rw [hlookup] at hkey
    obtain ⟨d, hd, rfl⟩ := Option.map_eq_some_iff.mp hkey
    exact h key d hd

/-- The same where no key is given twice. -/
theorem allTexts_ofFields_nodup {fields : List (String × Doc)} (h : (fields.map (·.1)).Nodup) :
    (ofFields fields).value.AllTexts P ↔ ∀ f ∈ fields, P f.1 ∧ f.2.value.AllTexts P := by
  have hnodup : (fields.reverse.map (·.1)).Nodup := by
    rw [List.map_reverse]
    exact List.pairwise_reverse.mpr (h.imp Ne.symm)
  rw [allTexts_ofFields]
  constructor
  · rintro hall ⟨key, d⟩ hf
    obtain ⟨l, r, heq⟩ := List.append_of_mem (List.mem_reverse.mpr hf)
    refine hall key d (List.lookup_eq_some_iff.mpr ⟨l, r, heq, fun g hg => bne_iff_ne.mpr ?_⟩)
    rw [heq, List.map_append, List.map_cons] at hnodup
    rintro rfl
    exact (List.nodup_append.mp hnodup).2.2 _ (List.mem_map_of_mem hg) _ List.mem_cons_self rfl
  · intro hall key d hd
    obtain ⟨l, r, heq, -⟩ := List.lookup_eq_some_iff.mp hd
    have hmem : (key, d) ∈ fields.reverse := by
      rw [heq]
      exact List.mem_append_right _ List.mem_cons_self
    exact hall (key, d) (List.mem_reverse.mp hmem)

end Doc

namespace Logs

/-! ## The formats -/

/-- `paddedLevel`. -/
def paddedLevel : Level → List Char
  | .trace => "TRACE".toList
  | .debug => "DEBUG".toList
  | .info => "INFO ".toList
  | .warn => "WARN ".toList
  | .error => "ERROR".toList
  | .fatal => "FATAL".toList
  | .off => "OFF  ".toList

/-- `toString` of a level. -/
def Level.name : Level → String
  | .trace => "trace"
  | .debug => "debug"
  | .info => "info"
  | .warn => "warn"
  | .error => "error"
  | .fatal => "fatal"
  | .off => "off"

/-- `toString` of a channel. -/
def Channel.name : Channel → String
  | .core => "core"
  | .service => "service"
  | .ipc => "ipc"
  | .tunnel => "tunnel"
  | .engine => "engine"
  | .network => "network"
  | .dns => "dns"
  | .routing => "routing"
  | .firewall => "firewall"
  | .splitTunnel => "splittunnel"
  | .driver => "driver"
  | .database => "database"
  | .profile => "profile"
  | .updater => "updater"
  | .ui => "ui"
  | .plugin => "plugin"
  | .security => "security"

/-- `std::tm`, as far as it is read. -/
structure Tm where
  year : Int
  mon : Int
  mday : Int
  hour : Int
  min : Int
  sec : Int

/-- What the formats use of other libraries: `gmtime_s`, or none if it fails, and
`dump` of the JSON library, or none if it throws. -/
structure Formats where
  gmtime : Int → Option Tm
  dump : Doc → Option (List Char)

/-- An integer in decimal. -/
def decimal (n : Int) : List Char :=
  (if n < 0 then ['-'] else []) ++ Nat.toDigits 10 n.natAbs

/-- `%0*d`: at least `width` characters, filled with zeros after the sign. -/
def padded (width : Nat) (n : Int) : List Char :=
  (if n < 0 then ['-'] else []) ++
    List.replicate (width - (decimal n).length) '0' ++ Nat.toDigits 10 n.natAbs

namespace Formats

variable (f : Formats)

/-- `formatTimestamp`; the clock counts units of 100 ns. -/
def formatTimestamp (timestamp : Int) : List Char :=
  let secs := timestamp.tdiv 10000000
  let millis := (timestamp - secs * 10000000).tdiv 10000
  match f.gmtime secs with
  | none => "0000-00-00T00:00:00.000Z".toList
  | some utc =>
    -- `snprintf` into 40 bytes
    (padded 4 (utc.year + 1900) ++ ['-'] ++ padded 2 (utc.mon + 1) ++ ['-'] ++ padded 2 utc.mday ++
      ['T'] ++ padded 2 utc.hour ++ [':'] ++ padded 2 utc.min ++ [':'] ++ padded 2 utc.sec ++
      ['.'] ++ padded 3 millis ++ ['Z']).take 39

def formatField (field : Field) : List Char := field.key.toList ++ '=' :: field.value.toList

/-- `formatText`. -/
def formatText (r : LogRecord) : List Char :=
  f.formatTimestamp r.timestamp ++ [' '] ++ paddedLevel r.level ++ " [".toList ++
    r.channel.name.toList ++ "] ".toList ++ r.message.toList ++
    (if r.fields.isEmpty then []
      else " \x7b".toList ++ [' '].intercalate (r.fields.map formatField) ++ ['\x7d']) ++
    (if r.sessionId.isEmpty then [] else " session=".toList ++ r.sessionId.toList)

/-- The part of a path after its last slash of either kind. -/
def fileName (path : String) : List Char :=
  (path.toList.reverse.takeWhile fun c => !(c = '/' || c = '\\')).reverse

/-- The fields of the JSON object. -/
def jsonFields (r : LogRecord) : List (String × Doc) :=
  [("ts", .str (String.ofList (f.formatTimestamp r.timestamp))), ("level", .str r.level.name),
    ("channel", .str r.channel.name), ("msg", .str r.message), ("tid", .int r.threadId.toNat)] ++
  (if r.sessionId.isEmpty then [] else [("session", .str r.sessionId)]) ++
  (if r.fields.isEmpty then []
    else [("fields", .ofFields (r.fields.map fun field => (field.key, .str field.value)))]) ++
  match r.location.file with
  | none => []
  | some file =>
    [("src", .str (String.ofList (fileName file ++ ':' :: decimal r.location.line)))]

/-- `formatJsonLine`, or none if it throws. -/
def formatJsonLine (r : LogRecord) : Option (List Char) := f.dump (.ofFields (f.jsonFields r))

/-- The line that `write` composes, or none if that throws. -/
def line (jsonLines : Bool) (r : LogRecord) : Option (List Char) :=
  (if jsonLines then f.formatJsonLine r else some (f.formatText r)).map FileSink.lineOf

end Formats

/-- `FileSink::write`; none if an exception leaves it, which ends the process. -/
def FileSink.write (s : FileSink) (f : Formats) (o : FileOutcome) (r : LogRecord) : Option FileSink :=
  (f.line s.options.jsonLines r).map (s.append o)

/-! ## Line breaks -/

/-- No line break is in the text. -/
def NoBreak (text : List Char) : Prop := ∀ c ∈ text, c ≠ '\r' ∧ c ≠ '\n'

/-- A text with a line break at its end and nowhere else. -/
def OneLine (line : List Char) : Prop := ∃ text, line = FileSink.lineOf text ∧ NoBreak text

/-- Only what is printed of ASCII. -/
def Printable (text : List Char) : Prop := ∀ c ∈ text, 0x20 ≤ c.toNat ∧ c.toNat < 127

variable {a b text : List Char} {f : Formats} {r : LogRecord}

theorem noBreak_append : NoBreak (a ++ b) ↔ NoBreak a ∧ NoBreak b := List.forall_mem_append

theorem printable_of_all (h : (text.all fun c => 0x20 ≤ c.toNat && c.toNat < 127) = true) :
    Printable text := by
  intro c hc
  simpa using List.all_eq_true.mp h c hc

theorem Printable.noBreak (h : Printable text) : NoBreak text := by
  refine fun c hc => ⟨?_, ?_⟩
  · rintro rfl
    exact absurd (h _ hc).1 (by decide)
  · rintro rfl
    exact absurd (h _ hc).1 (by decide)

theorem Printable.ascii (h : Printable text) : ∀ c ∈ text, c.toNat < 128 :=
  fun c hc => Nat.lt_succ_of_lt (h c hc).2

theorem Printable.append (h : Printable a) (h' : Printable b) : Printable (a ++ b) :=
  List.forall_mem_append.mpr ⟨h, h'⟩

theorem printable_toDigits (n : Nat) : Printable (Nat.toDigits 10 n) := by
  have hdigit : ∀ d < 10, 0x20 ≤ d.digitChar.toNat ∧ d.digitChar.toNat < 127 := by decide
  intro c hc
  obtain ⟨d, hd, rfl⟩ := Str.digitChar_of_mem_toDigits (by decide) hc
  exact hdigit d hd

theorem printable_sign (n : Int) : Printable (if n < 0 then ['-'] else []) := by
  split
  · exact printable_of_all (by decide)
  · exact printable_of_all (by decide)

theorem printable_decimal (n : Int) : Printable (decimal n) :=
  (printable_sign n).append (printable_toDigits _)

theorem printable_padded (width : Nat) (n : Int) : Printable (padded width n) := by
  refine ((printable_sign n).append fun c hc => ?_).append (printable_toDigits _)
  rw [List.eq_of_mem_replicate hc]
  decide

theorem printable_formatTimestamp (f : Formats) (timestamp : Int) :
    Printable (f.formatTimestamp timestamp) := by
  have hdash : Printable ['-'] := printable_of_all (by decide)
  have hcolon : Printable [':'] := printable_of_all (by decide)
  unfold Formats.formatTimestamp
  dsimp only
  split
  next => exact printable_of_all (by decide)
  next utc _ =>
    intro c hc
    refine Printable.append ?_ (printable_of_all (by decide)) c (List.mem_of_mem_take hc)
    refine Printable.append ?_ (printable_padded 3 _)
    refine Printable.append ?_ (printable_of_all (by decide))
    refine Printable.append ?_ (printable_padded 2 _)
    refine Printable.append ?_ hcolon
    refine Printable.append ?_ (printable_padded 2 _)
    refine Printable.append ?_ hcolon
    refine Printable.append ?_ (printable_padded 2 _)
    refine Printable.append ?_ (printable_of_all (by decide))
    refine Printable.append ?_ (printable_padded 2 _)
    refine Printable.append ?_ hdash
    refine Printable.append ?_ (printable_padded 2 _)
    exact (printable_padded 4 _).append hdash

theorem printable_paddedLevel (level : Level) : Printable (paddedLevel level) :=
  printable_of_all (by cases level <;> decide)

theorem printable_levelName (level : Level) : Printable level.name.toList :=
  printable_of_all (by cases level <;> decide)

theorem printable_channelName (channel : Channel) : Printable channel.name.toList :=
  printable_of_all (by cases channel <;> decide)

theorem noBreak_intercalate {pieces : List (List Char)} :
    NoBreak ([' '].intercalate pieces) ↔ ∀ piece ∈ pieces, NoBreak piece := by
  have hblank : NoBreak [' '] := (printable_of_all (by decide)).noBreak
  induction pieces with
  | nil => exact iff_of_true (fun c hc => by cases hc) fun _ h => by cases h
  | cons piece pieces ih =>
    rw [List.forall_mem_cons]
    by_cases hnil : pieces = []
    · rw [hnil, List.intercalate_singleton]
      exact (and_iff_left fun _ h => by cases h).symm
    · rw [List.intercalate_cons_of_ne_nil hnil, noBreak_append, noBreak_append,
        and_iff_left hblank]
      exact and_congr_right' ih

theorem lineOf_inj : FileSink.lineOf a = FileSink.lineOf b ↔ a = b := List.append_cancel_right_eq _ _ _ |>.to_iff

/-! ## The text format -/

/-- No string of the record that is not fixed has a line break in it. -/
structure NoBreaks (r : LogRecord) : Prop where
  message : NoBreak r.message.toList
  fields : ∀ field ∈ r.fields, NoBreak field.key.toList ∧ NoBreak field.value.toList
  sessionId : NoBreak r.sessionId.toList

theorem noBreak_formatField (field : Field) : NoBreak (Formats.formatField field) ↔
    NoBreak field.key.toList ∧ NoBreak field.value.toList := by
  have heq : Formats.formatField field = field.key.toList ++ (['='] ++ field.value.toList) := rfl
  have hsep : NoBreak ['='] := (printable_of_all (by decide)).noBreak
  rw [heq, noBreak_append, noBreak_append, and_iff_right hsep]

theorem noBreak_formatText (f : Formats) (r : LogRecord) :
    NoBreak (f.formatText r) ↔ NoBreaks r := by
  have hblank : NoBreak [' '] := (printable_of_all (by decide)).noBreak
  have hopen : NoBreak " [".toList := (printable_of_all (by decide)).noBreak
  have hclose : NoBreak "] ".toList := (printable_of_all (by decide)).noBreak
  have hbrace : NoBreak " \x7b".toList := (printable_of_all (by decide)).noBreak
  have hbrace' : NoBreak ['\x7d'] := (printable_of_all (by decide)).noBreak
  have hsession : NoBreak " session=".toList := (printable_of_all (by decide)).noBreak
  have htimestamp := (printable_formatTimestamp f r.timestamp).noBreak
  have hlevel := (printable_paddedLevel r.level).noBreak
  have hchannel := (printable_channelName r.channel).noBreak
  have hfields : NoBreak (if r.fields.isEmpty then []
      else " \x7b".toList ++ [' '].intercalate (r.fields.map Formats.formatField) ++ ['\x7d']) ↔
        ∀ field ∈ r.fields, NoBreak field.key.toList ∧ NoBreak field.value.toList := by
    split
    next h =>
      rw [List.isEmpty_iff.mp h]
      exact iff_of_true (fun c hc => by cases hc) fun _ hf => by cases hf
    next =>
      rw [noBreak_append, noBreak_append, and_iff_right hbrace, and_iff_left hbrace',
        noBreak_intercalate, List.forall_mem_map]
      exact forall₂_congr fun field _ => noBreak_formatField field
  have hid : NoBreak (if r.sessionId.isEmpty then [] else " session=".toList ++ r.sessionId.toList) ↔
      NoBreak r.sessionId.toList := by
    split
    next h =>
      rw [String.isEmpty_iff.mp h]
      rfl
    next => rw [noBreak_append, and_iff_right hsession]
  rw [Formats.formatText]
  simp only [noBreak_append, hfields, hid, htimestamp, hlevel, hchannel, hblank, hopen, hclose,
    true_and]
  exact ⟨fun ⟨⟨hm, hf⟩, hs⟩ => ⟨hm, hf, hs⟩, fun h => ⟨⟨h.message, h.fields⟩, h.sessionId⟩⟩

/-! ## The JSON format -/

/-- What the JSON library documents of `dump` without an indentation: it throws
on a text that is not UTF-8, and gives one line, in which control characters
are escaped. -/
structure Formats.Documented (f : Formats) : Prop where
  throws_iff : ∀ d : Doc, f.dump d = none ↔ ∃ text, d.value.HasText text ∧ ¬ Str.IsUtf8 text.toList
  noBreak : ∀ d text, f.dump d = some text → NoBreak text

/-- The strings of the record that are written are UTF-8: of the fields the keys,
and the last value of each. -/
structure AllUtf8 (r : LogRecord) : Prop where
  message : Str.IsUtf8 r.message.toList
  fields : ∀ key value, (r.fields.reverse.map fun field => (field.key, field.value)).lookup key =
    some value → Str.IsUtf8 key.toList ∧ Str.IsUtf8 value.toList
  sessionId : Str.IsUtf8 r.sessionId.toList
  file : ∀ file ∈ r.location.file, Str.IsUtf8 (Formats.fileName file)

/-- A text that is UTF-8, byte by byte. -/
def Utf8Text (text : String) : Prop := Str.IsUtf8 text.toList

theorem utf8Text_of_ascii {text : String} (h : ∀ c ∈ text.toList, c.toNat < 128) : Utf8Text text :=
  Str.isUtf8_of_ascii h

theorem allTexts_text {text : String} : (Doc.str text).value.AllTexts Utf8Text ↔ Utf8Text text :=
  Json.allTexts_str

theorem nodup_jsonFields (f : Formats) (r : LogRecord) : ((f.jsonFields r).map (·.1)).Nodup := by
  have hkeys : (f.jsonFields r).map (·.1) = ["ts", "level", "channel", "msg", "tid"] ++
      (if r.sessionId.isEmpty then [] else ["session"]) ++
      (if r.fields.isEmpty then [] else ["fields"]) ++
      (if r.location.file.isNone then [] else ["src"]) := by
    unfold Formats.jsonFields
    cases r.sessionId.isEmpty <;> cases r.fields.isEmpty <;> cases r.location.file <;> rfl
  have hnodup : ∀ a b c : Bool, (["ts", "level", "channel", "msg", "tid"] ++
      (if a then [] else ["session"]) ++ (if b then [] else ["fields"]) ++
      (if c then [] else ["src"])).Nodup := by decide
  rw [hkeys]
  exact hnodup ..

theorem allTexts_fields (fields : List Field) :
    (Doc.ofFields (fields.map fun field => (field.key, Doc.str field.value))).value.AllTexts
        Utf8Text ↔
      ∀ key value, (fields.reverse.map fun field => (field.key, field.value)).lookup key =
        some value → Utf8Text key ∧ Utf8Text value := by
  have hlookup : ∀ key, (fields.map fun field => (field.key, Doc.str field.value)).reverse.lookup key =
      ((fields.reverse.map fun field => (field.key, field.value)).lookup key).map Doc.str := by
    intro key
    rw [← List.map_reverse]
    induction fields.reverse with
    | nil => rfl
    | cons field rest ih =>
      rw [List.map_cons, List.map_cons, List.lookup_cons, List.lookup_cons, ih]
      cases key == field.key <;> rfl
  rw [Doc.allTexts_ofFields]
  simp only [hlookup, Option.map_eq_some_iff]
  constructor
  · intro h key value hvalue
    have hd := h key (.str value) ⟨value, hvalue, rfl⟩
    exact ⟨hd.1, allTexts_text.mp hd.2⟩
  · rintro h key d ⟨value, hvalue, rfl⟩
    exact ⟨(h key value hvalue).1, allTexts_text.mpr (h key value hvalue).2⟩

theorem utf8Text_key {key : String}
    (h : key ∈ ["ts", "level", "channel", "msg", "tid", "session", "fields", "src"]) :
    Utf8Text key := by
  have hascii : ["ts", "level", "channel", "msg", "tid", "session", "fields", "src"].all
      (fun key => key.toList.all fun c => c.toNat < 128) = true := by decide
  refine utf8Text_of_ascii fun c hc => ?_
  exact of_decide_eq_true (List.all_eq_true.mp (List.all_eq_true.mp hascii key h) c hc)

/-- The name of the file, with the number of the line. -/
theorem utf8Text_src (file : String) (line : Int) :
    Utf8Text (String.ofList (Formats.fileName file ++ ':' :: decimal line)) ↔
      Str.IsUtf8 (Formats.fileName file) := by
  rw [Utf8Text, String.toList_ofList, Str.isUtf8_append_ascii]
  refine List.forall_mem_cons.mpr ⟨by decide, (printable_decimal line).ascii⟩

theorem allTexts_jsonFields (f : Formats) (r : LogRecord) :
    (Doc.ofFields (f.jsonFields r)).value.AllTexts Utf8Text ↔ AllUtf8 r := by
  have hts : Utf8Text (String.ofList (f.formatTimestamp r.timestamp)) := by
    refine utf8Text_of_ascii ?_
    rw [String.toList_ofList]
    exact (printable_formatTimestamp f r.timestamp).ascii
  have hlevel := utf8Text_of_ascii (printable_levelName r.level).ascii
  have hchannel := utf8Text_of_ascii (printable_channelName r.channel).ascii
  have hid : (∀ e ∈ if r.sessionId.isEmpty then [] else [("session", Doc.str r.sessionId)],
      Utf8Text e.1 ∧ e.2.value.AllTexts Utf8Text) ↔ Utf8Text r.sessionId := by
    split
    next h =>
      rw [String.isEmpty_iff.mp h]
      exact iff_of_true (fun _ he => by cases he) Str.isUtf8_nil
    next =>
      rw [List.forall_mem_singleton, and_iff_right (@utf8Text_key "session" (by decide)),
        allTexts_text]
  have hfields : (∀ e ∈ if r.fields.isEmpty then []
      else [("fields", Doc.ofFields (r.fields.map fun field => (field.key, Doc.str field.value)))],
      Utf8Text e.1 ∧ e.2.value.AllTexts Utf8Text) ↔
        ∀ key value, (r.fields.reverse.map fun field => (field.key, field.value)).lookup key =
          some value → Utf8Text key ∧ Utf8Text value := by
    split
    next h =>
      rw [List.isEmpty_iff.mp h]
      exact iff_of_true (fun _ he => by cases he) fun _ _ hl => by cases hl
    next =>
      rw [List.forall_mem_singleton, and_iff_right (@utf8Text_key "fields" (by decide)),
        allTexts_fields]
  have hsrc : (∀ e ∈ (match r.location.file with
      | none => []
      | some file =>
        [("src", Doc.str (String.ofList (Formats.fileName file ++ ':' :: decimal r.location.line)))]),
      Utf8Text e.1 ∧ e.2.value.AllTexts Utf8Text) ↔
        ∀ file ∈ r.location.file, Str.IsUtf8 (Formats.fileName file) := by
    cases r.location.file with
    | none => exact iff_of_true (fun _ he => by cases he) fun _ hfile => by cases hfile
    | some file =>
      rw [List.forall_mem_singleton, and_iff_right (@utf8Text_key "src" (by decide)), allTexts_text,
        utf8Text_src]
      exact ⟨fun h _ hfile => by cases hfile; exact h, fun h => h file rfl⟩
  rw [Doc.allTexts_ofFields_nodup (nodup_jsonFields f r), Formats.jsonFields,
    List.forall_mem_append, List.forall_mem_append, List.forall_mem_append, hid, hfields, hsrc]
  constructor
  · rintro ⟨⟨⟨hfirst, hs⟩, hf⟩, hfile⟩
    exact ⟨allTexts_text.mp (hfirst ("msg", .str r.message) (by simp)).2, hf, hs, hfile⟩
  · intro h
    refine ⟨⟨⟨?_, h.sessionId⟩, h.fields⟩, h.file⟩
    simp only [List.forall_mem_cons]
    exact ⟨⟨utf8Text_key (by decide), allTexts_text.mpr hts⟩,
      ⟨utf8Text_key (by decide), allTexts_text.mpr hlevel⟩,
      ⟨utf8Text_key (by decide), allTexts_text.mpr hchannel⟩,
      ⟨utf8Text_key (by decide), allTexts_text.mpr h.message⟩,
      ⟨utf8Text_key (by decide), Json.allTexts_int _⟩, fun _ he => by cases he⟩

/-- `dump` gives a text exactly if every string is UTF-8. -/
theorem formatJsonLine_eq_some_iff (hf : f.Documented) :
    (∃ text, f.formatJsonLine r = some text) ↔ AllUtf8 r := by
  rw [← allTexts_jsonFields f r, ← Option.ne_none_iff_exists', Formats.formatJsonLine, ne_eq,
    hf.throws_iff, not_exists]
  exact forall_congr' fun text => by rw [not_and, not_not]; rfl

/-! ## One line -/

theorem oneLine_lineOf : OneLine (FileSink.lineOf text) ↔ NoBreak text := by
  constructor
  · rintro ⟨text', heq, h⟩
    rwa [lineOf_inj.mp heq]
  · exact fun h => ⟨text, rfl, h⟩

/-- `write` composes exactly one line. -/
def Formats.WritesOneLine (f : Formats) (jsonLines : Bool) (r : LogRecord) : Prop :=
  ∃ line, f.line jsonLines r = some line ∧ OneLine line

theorem writesOneLine_text : f.WritesOneLine false r ↔ NoBreaks r := by
  rw [← noBreak_formatText f r, ← oneLine_lineOf]
  exact ⟨fun ⟨line, hline, h⟩ => by cases hline; exact h, fun h => ⟨_, rfl, h⟩⟩

theorem writesOneLine_json (hf : f.Documented) : f.WritesOneLine true r ↔ AllUtf8 r := by
  rw [← formatJsonLine_eq_some_iff hf]
  constructor
  · rintro ⟨line, hline, -⟩
    obtain ⟨text, htext, -⟩ := Option.map_eq_some_iff.mp hline
    exact ⟨text, htext⟩
  · rintro ⟨text, htext⟩
    exact ⟨_, congrArg (Option.map FileSink.lineOf) htext, oneLine_lineOf.mpr (hf.noBreak _ _ htext)⟩

/-- `write` ends the process where no line was composed, and adds the line to
the current file. -/
theorem FileSink.write_line (s : FileSink) (o : FileOutcome) {line : List Char}
    (hline : f.line s.options.jsonLines r = some line) (hopen : s.handle = true)
    (hok : s.Succeeds o line) (hsize : line.length < 2 ^ 32) :
    ∃ s' kept, s.write f o r = some s' ∧
      s'.files (FileSink.pathForIndex s.options 0) = some (kept ++ line) := by
  obtain ⟨kept, hkept⟩ := FileSink.files_append hopen hok hsize
  exact ⟨s.append o line, kept, by rw [FileSink.write, hline]; rfl, hkept⟩

/-- A record is written as one line exactly if, in the text format, none of its
strings has a line break and, in the JSON format, all of them are UTF-8. -/
theorem one_line_iff (hf : f.Documented) (jsonLines : Bool) (r : LogRecord) :
    (f.WritesOneLine jsonLines r ↔ if jsonLines then AllUtf8 r else NoBreaks r) ∧
      ∀ (s : FileSink) (o : FileOutcome), s.options.jsonLines = jsonLines →
        (s.write f o r = none ↔ f.line jsonLines r = none) ∧
        ∀ line, f.line jsonLines r = some line → s.handle = true → s.Succeeds o line →
          line.length < 2 ^ 32 → ∃ s' kept, s.write f o r = some s' ∧
            s'.files (FileSink.pathForIndex s.options 0) = some (kept ++ line) := by
  refine ⟨?_, ?_⟩
  · cases jsonLines with
    | false => exact writesOneLine_text
    | true => exact writesOneLine_json hf
  · rintro s o rfl
    refine ⟨?_, fun line hline hopen hok hsize => s.write_line o hline hopen hok hsize⟩
    rw [FileSink.write, Option.map_eq_none_iff]

/-! ## At the epoch -/

def connectedRecord : LogRecord where
  channel := .tunnel
  message := "connected"
  fields := [⟨"profile", "office"⟩, ⟨"server", "vpn.example.org"⟩]

/-- The text of the JSON object for that record. -/
def connectedJson : List Char :=
  "\x7b\"channel\":\"tunnel\",\"fields\":\x7b\"profile\":\"office\",\"server\":\"vpn.example.org\"\x7d,".toList ++
    "\"level\":\"info\",\"msg\":\"connected\",\"tid\":0,\"ts\":\"1970-01-01T00:00:00.000Z\"\x7d".toList

/-- The libraries as they are for a record of that time. -/
noncomputable def epochFormats : Formats where
  gmtime _ := some { year := 70, mon := 0, mday := 1, hour := 0, min := 0, sec := 0 }
  dump d := open Classical in
    if ∃ text, d.value.HasText text ∧ ¬ Str.IsUtf8 text.toList then none else some connectedJson

theorem documented_epochFormats : epochFormats.Documented where
  throws_iff d := by
    unfold epochFormats
    dsimp only
    split
    next h => exact iff_of_true rfl h
    next h => exact iff_of_false (Option.some_ne_none _) h
  noBreak d text h := by
    unfold epochFormats at h
    dsimp only at h
    split at h
    · cases h
    · cases h
      exact (printable_of_all (by decide)).noBreak

theorem allUtf8_connectedRecord : AllUtf8 connectedRecord where
  message := Str.isUtf8_of_ascii (printable_of_all (by decide)).ascii
  fields key value h := by
    rw [show connectedRecord.fields.reverse.map (fun field => (field.key, field.value)) =
      [("server", "vpn.example.org"), ("profile", "office")] from rfl] at h
    obtain ⟨front, back, heq, -⟩ := List.lookup_eq_some_iff.mp h
    have hmem : (key, value) ∈ [("server", "vpn.example.org"), ("profile", "office")] :=
      heq ▸ List.mem_append_right _ List.mem_cons_self
    simp only [List.mem_cons, List.not_mem_nil, or_false, Prod.mk.injEq] at hmem
    obtain ⟨rfl, rfl⟩ | ⟨rfl, rfl⟩ := hmem
    · exact ⟨Str.isUtf8_of_ascii (printable_of_all (by decide)).ascii,
        Str.isUtf8_of_ascii (printable_of_all (by decide)).ascii⟩
    · exact ⟨Str.isUtf8_of_ascii (printable_of_all (by decide)).ascii,
        Str.isUtf8_of_ascii (printable_of_all (by decide)).ascii⟩
  sessionId := Str.isUtf8_of_ascii (printable_of_all (by decide)).ascii
  file _ h := by cases h

theorem one_line_connected :
    epochFormats.WritesOneLine true connectedRecord ∧
      epochFormats.line true connectedRecord = some (FileSink.lineOf connectedJson) ∧
      ∀ (s : FileSink) (o : FileOutcome), s.options.jsonLines = true → s.handle = true →
        s.Succeeds o (FileSink.lineOf connectedJson) → ∃ s' kept,
          s.write epochFormats o connectedRecord = some s' ∧
            s'.files (FileSink.pathForIndex s.options 0) =
              some (kept ++ FileSink.lineOf connectedJson) := by
  obtain ⟨hone, hfile⟩ := one_line_iff documented_epochFormats true connectedRecord
  have hline := hone.mpr allUtf8_connectedRecord
  have htext : epochFormats.line true connectedRecord = some (FileSink.lineOf connectedJson) := by
    obtain ⟨line, hline, -⟩ := hline
    obtain ⟨text, hdump, rfl⟩ := Option.map_eq_some_iff.mp hline
    have hjson : some connectedJson = some text := (Option.ite_none_left_eq_some.mp hdump).2
    rw [hline, Option.some.inj hjson]
  exact ⟨hline, htext, fun s o hjson hopen hok =>
    (hfile s o hjson).2 _ htext hopen hok (by decide +kernel)⟩

/-- A line break in a message starts another line, and a byte that is not UTF-8
ends the process. -/
theorem breaks_and_throws :
    (¬ ∀ (f : Formats), f.Documented → ∀ r, f.WritesOneLine false r) ∧
      ¬ ∀ (f : Formats), f.Documented → ∀ r, f.WritesOneLine true r := by
  refine ⟨fun h => ?_, fun h => ?_⟩
  · have hone := h epochFormats documented_epochFormats
      { message := "reconnecting\r\n1970-01-01T00:00:00.000Z FATAL [security] forged" }
    have hno := (writesOneLine_text.mp hone).message '\n' (by decide)
    exact hno.2 rfl
  · have hone := h epochFormats documented_epochFormats { message := String.ofList ['\xff'] }
    have hutf8 := ((writesOneLine_json documented_epochFormats).mp hone).message
    rw [String.toList_ofList] at hutf8
    exact Str.not_isUtf8_byte (by decide) hutf8

end Logs

end NovaVpn
