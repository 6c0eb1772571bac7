import NovaVpn.Core.Numerals
import NovaVpn.Services.ImportedText
import NovaVpn.Updater.Updater

/-!
# The source hash

`persistImported` stores the first 32 bytes of the source, in hexadecimal, as
its hash. Two profiles have one hash exactly if their texts begin with the same
32 bytes, a short text has a short hash, and every hash shows the beginning of
its text (`hash_is_beginning`). A text that changes behind that keeps its hash
(`late_change_keeps_hash`).
-/

namespace NovaVpn.ServiceApi

open NovaVpn.Framework NovaVpn.Profiles

def textBytes (text : List Char) : List UInt8 := (String.ofList text).toUTF8.toList

/-- The hash is that of some bytes of the text, in hexadecimal. -/
def Reveals (hash : String) (text : List Char) : Prop :=
  ∃ part, Str.fromHex hash.toList = some part ∧ part ≠ [] ∧ part <:+: textBytes text

/-- What the hash of a text is for. -/
structure DetectsChange (text text' : List Char) (hash hash' : String) : Prop where
  detects : hash = hash' ↔ text = text'
  fixedLength : hash.length = hash'.length
  hides : ¬ Reveals hash text ∧ ¬ Reveals hash' text'

/-! ## Hexadecimal digits -/

theorem toList_toHex (bytes : List UInt8) : (toHex bytes).toList =
    bytes.flatMap fun b => [Nat.digitChar (b.toNat / 16), Nat.digitChar (b.toNat % 16)] :=
  String.toList_ofList

/-- The two digits of a byte are read as that byte. -/
theorem fromHex_toHex (bytes : List UInt8) : Str.fromHex (toHex bytes).toList = some bytes := by
  rw [toList_toHex]
  induction bytes with
  | nil => rfl
  | cons b bytes ih =>
    have hb := b.toNat_lt
    have hhi := Str.hexDigit_digitChar (b.toNat / 16) (by omega)
    have hlo := Str.hexDigit_digitChar (b.toNat % 16) (by omega)
    have hbyte : UInt8.ofNat (b.toNat / 16 * 16 + b.toNat % 16) = b := by
      rw [Nat.div_add_mod']
      exact UInt8.ofNat_toNat
    rw [List.flatMap_cons, List.cons_append, List.cons_append, List.nil_append, Str.fromHex, hhi, hlo,
      ih, Option.bind_some, Option.bind_some, Option.map_some, hbyte]

theorem toHex_inj {bytes bytes' : List UInt8} : toHex bytes = toHex bytes' ↔ bytes = bytes' := by
  refine ⟨fun h => Option.some.inj ?_, congrArg toHex⟩
  rw [← fromHex_toHex bytes, h, fromHex_toHex]

theorem length_toHex (bytes : List UInt8) : (toHex bytes).length = 2 * bytes.length := by
  rw [← String.length_toList, toList_toHex]
  induction bytes with
  | nil => rfl
  | cons b bytes ih =>
    rw [List.flatMap_cons, List.length_append, ih, List.length_cons, List.length_cons,
      List.length_cons, List.length_nil]
    omega

/-! ## The hash that is stored -/

/-- `persistImported`'s hash of a text. -/
def storedHash (text : List Char) : String := toHex ((textBytes text).take 32)

theorem storedHash_inj {text text' : List Char} : storedHash text = storedHash text' ↔
    (textBytes text).take 32 = (textBytes text').take 32 :=
  toHex_inj

theorem length_storedHash (text : List Char) :
    (storedHash text).length = 2 * min 32 (textBytes text).length := by
  rw [storedHash, length_toHex, List.length_take]

theorem length_toList_loop (bytes : ByteArray) (i : Nat) (acc : List UInt8) :
    (ByteArray.toList.loop bytes i acc).length = bytes.size - i + acc.length := by
  fun_induction ByteArray.toList.loop bytes i acc with
  | case1 i acc hlt ih =>
    rw [ih, List.length_cons]
    omega
  | case2 i acc hge =>
    rw [List.length_reverse]
    omega

theorem length_textBytes (text : List Char) :
    (textBytes text).length = (String.ofList text).utf8ByteSize :=
  (length_toList_loop (String.ofList text).toUTF8 0 []).trans (Nat.add_zero _)

theorem textBytes_ne_nil {text : List Char} (h : text ≠ []) : textBytes text ≠ [] := by
  intro hnil
  have hsize : (String.ofList text).utf8ByteSize = 0 := by
    rw [← length_textBytes, hnil, List.length_nil]
  have hempty := String.utf8ByteSize_eq_zero_iff.mp hsize
  exact h (by simpa using congrArg String.toList hempty)

/-- The hash of a text shows its beginning. -/
theorem reveals_storedHash {text : List Char} (h : text ≠ []) : Reveals (storedHash text) text := by
  refine ⟨(textBytes text).take 32, fromHex_toHex _, fun hnil => ?_, (List.take_prefix _ _).isInfix⟩
  rcases List.take_eq_nil_iff.mp hnil with h32 | hbytes
  · cases h32
  · exact textBytes_ne_nil h hbytes

/-- Every row has the hash of the text that its id was imported from. -/
def HashInv (s : TextStores) : Prop :=
  ∀ id row, s.stores.tables.contents.row id = some row →
    ∃ record, s.imports.lookup id = some record ∧ row.sourceHash = storedHash record.text

namespace HashInv

variable {s s' : TextStores} {p : Profile}

theorem of_get {id : String} (h : HashInv s)
    (hget : SqliteProfileStore.get s.stores.tables id = .ok p) :
    ∃ record, s.imports.lookup id = some record ∧ p.sourceHash = storedHash record.text := by
  obtain ⟨row, hrow, rfl⟩ := SqliteProfileStore.get_eq_ok hget
  exact h id row hrow

theorem written {record : Import} (h : HashInv s)
    (hcontents : s'.stores.tables.contents = s.stores.tables.contents.write p)
    (hrecord : s'.imports.lookup p.id = some record)
    (hothers : ∀ id, id ≠ p.id → s'.imports.lookup id = s.imports.lookup id)
    (hhash : p.sourceHash = storedHash record.text) : HashInv s' := by
  intro id row hrow
  rw [hcontents] at hrow
  by_cases hid : id = p.id
  · subst hid
    rw [Contents.row_write_self] at hrow
    cases hrow
    exact ⟨record, hrecord, hhash⟩
  · rw [Contents.row_write_of_ne _ _ hid] at hrow
    rw [hothers id hid]
    exact h id row hrow

theorem moves (h : HashInv s) (hm : s.Moves s') : HashInv s' := by
  cases hm with
  | none hcontents himports =>
    rw [HashInv, hcontents, himports]
    exact h
  | imported text p hne hsource hhash hcontents himports =>
    have hrecord : s'.imports.lookup p.id =
        some { text, rejected := dangerousKeywords Option.none (Str.split '\n' text) } := by
      rw [himports]
      exact AList.lookup_insert _
    refine h.written hcontents hrecord (fun id hid => ?_) hhash
    rw [himports]
    exact AList.lookup_insert_ne hid
  | edited id edit now p hget hcontents himports =>
    -- no edit changes the hash
    obtain ⟨record, hrecord, hhash⟩ := h.of_get hget
    have hid : ((edit.apply id p).modified now).id = id :=
      (edit.id_apply id p).trans (SqliteProfileStore.id_of_get hget)
    have hwritten : s'.imports.lookup ((edit.apply id p).modified now).id = some record := by
      rw [hid, himports]
      exact hrecord
    exact h.written hcontents hwritten (fun _ _ => by rw [himports])
      ((edit.sourceHash_apply id p).trans hhash)
  | removed id hcontents himports =>
    intro id' row hrow
    rw [hcontents] at hrow
    rw [himports]
    exact h id' row (Contents.row_remove_eq_some.mp hrow).2

end HashInv

theorem hashInv_of_run {files : SideFiles} {requests : List TextRequest} {s : TextStores}
    (hr : run (TextStores.step files) {} requests = some s) : HashInv s := by
  refine run_invariant' (fun _ _ _ h hs => h.moves (TextStores.moves_of_step hs))
    (fun id row h => ?_) hr
  cases h

/-- After every run, for every two profiles that were imported: the hashes
never do what they are for. They are equal exactly if the texts begin with the
same 32 bytes, and as long as what they show of these. -/
theorem hash_is_beginning {files : SideFiles} {requests : List TextRequest} {s : TextStores}
    (hr : run (TextStores.step files) {} requests = some s) {id id' : String}
    {record record' : Import} (himport : s.imports.lookup id = some record)
    (himport' : s.imports.lookup id' = some record') {p p' : Profile}
    (hget : SqliteProfileStore.get s.stores.tables id = .ok p)
    (hget' : SqliteProfileStore.get s.stores.tables id' = .ok p') :
    ¬ DetectsChange record.text record'.text p.sourceHash p'.sourceHash ∧
      (p.sourceHash = p'.sourceHash ↔
        (textBytes record.text).take 32 = (textBytes record'.text).take 32) ∧
      p.sourceHash.length = 2 * min 32 (textBytes record.text).length ∧
      Reveals p.sourceHash record.text := by
  have hstored : ∀ {id : String} {record : Import} {p : Profile},
      s.imports.lookup id = some record → SqliteProfileStore.get s.stores.tables id = .ok p →
        p.sourceHash = storedHash record.text := by
    intro id record p himport hget
    obtain ⟨record', hrecord, hhash⟩ := (hashInv_of_run hr).of_get hget
    cases himport.symm.trans hrecord
    exact hhash
  have hne := ((textInv_of_run hr).reported id record himport).1
  rw [hstored himport hget, hstored himport' hget']
  exact ⟨fun h => h.hides.1 (reveals_storedHash hne), storedHash_inj,
    length_storedHash record.text, reveals_storedHash hne⟩

/-- A text whose 33rd byte is the first that differs. -/
def configWith (ca : String) : List Char :=
  ("remote a.example\nauth-user-pass\n<ca>\n" ++ ca ++ "\n</ca>\n").toList

/-- Two texts are imported, each under an id of its own. -/
def importTwice (ca ca' : String) : List TextRequest :=
  [.importOvpn (configWith ca) "Office" "a" 1 .ok, .importOvpn (configWith ca') "Home" "b" 2 .ok]

/-- What is kept of the two: their texts and their hashes. -/
def hashesOf (requests : List TextRequest) : Option ((List Char × String) × (List Char × String)) :=
  (run (TextStores.step noFiles) {} requests).bind fun s =>
    let kept (id : String) := (s.imports.lookup id).bind fun record =>
      (SqliteProfileStore.get s.stores.tables id).toOption.map fun p => (record.text, p.sourceHash)
    (kept "a").bind fun a => (kept "b").map fun b => (a, b)

theorem exists_of_hashesOf {requests : List TextRequest} {text text' : List Char}
    {hash hash' : String} (h : hashesOf requests = some ((text, hash), (text', hash'))) :
    ∃ s record record' p p', run (TextStores.step noFiles) {} requests = some s ∧
      s.imports.lookup "a" = some record ∧ s.imports.lookup "b" = some record' ∧
      SqliteProfileStore.get s.stores.tables "a" = .ok p ∧
      SqliteProfileStore.get s.stores.tables "b" = .ok p' ∧
      (record.text = text ∧ p.sourceHash = hash) ∧ record'.text = text' ∧ p'.sourceHash = hash' := by
  obtain ⟨s, hs, h⟩ := Option.bind_eq_some_iff.mp h
  obtain ⟨a, ha, h⟩ := Option.bind_eq_some_iff.mp h
  obtain ⟨b, hb, h⟩ := Option.map_eq_some_iff.mp h
  obtain ⟨record, hrecord, ha⟩ := Option.bind_eq_some_iff.mp ha
  obtain ⟨record', hrecord', hb⟩ := Option.bind_eq_some_iff.mp hb
  obtain ⟨p, hp, rfl⟩ := Option.map_eq_some_iff.mp ha
  obtain ⟨p', hp', rfl⟩ := Option.map_eq_some_iff.mp hb
  simp only [Prod.mk.injEq] at h
  exact ⟨s, record, record', p, p', hs, hrecord, hrecord', Result.eq_ok_of_toOption hp,
    Result.eq_ok_of_toOption hp', h⟩

theorem hashesOf_one_two : hashesOf (importTwice "one" "two") = some
    ((configWith "one", "72656d6f746520612e6578616d706c650a617574682d757365722d706173730a"),
      (configWith "two", "72656d6f746520612e6578616d706c650a617574682d757365722d706173730a")) := by
  decide +kernel

theorem hash_is_beginning_one : ∃ s record record' p p',
    run (TextStores.step noFiles) {} (importTwice "one" "two") = some s ∧
      s.imports.lookup "a" = some record ∧ s.imports.lookup "b" = some record' ∧
      SqliteProfileStore.get s.stores.tables "a" = .ok p ∧
      SqliteProfileStore.get s.stores.tables "b" = .ok p' ∧
      ¬ DetectsChange record.text record'.text p.sourceHash p'.sourceHash := by
  obtain ⟨s, record, record', p, p', hs, hrecord, hrecord', hp, hp', -⟩ :=
    exists_of_hashesOf hashesOf_one_two
  exact ⟨s, record, record', p, p', hs, hrecord, hrecord', hp, hp',
    (hash_is_beginning hs hrecord hrecord' hp hp').1⟩

/-- Two texts with other certificates have one hash. -/
theorem late_change_keeps_hash : ¬ ∀ files requests s,
    run (TextStores.step files) {} requests = some s → ∀ id id' record record' p p',
      s.imports.lookup id = some record → s.imports.lookup id' = some record' →
        SqliteProfileStore.get s.stores.tables id = .ok p →
          SqliteProfileStore.get s.stores.tables id' = .ok p' →
            DetectsChange record.text record'.text p.sourceHash p'.sourceHash := by
  intro h
  obtain ⟨s, record, record', p, p', hs, hrecord, hrecord', hp, hp', ⟨htext, hhash⟩, htext', hhash'⟩ :=
    exists_of_hashesOf hashesOf_one_two
  have hdetects := (h _ _ s hs "a" "b" record record' p p' hrecord hrecord' hp hp').detects
  have hsame := hdetects.mp (hhash.trans hhash'.symm)
  rw [htext, htext'] at hsame
  revert hsame
  decide

end NovaVpn.ServiceApi
