import NovaVpn.Services.IpcServer
import NovaVpn.Services.Wire

/-!
# Reading a pipe

`readExact` and `readFrame` of `Services/IpcServer.cpp`, on a pipe that gives
its bytes in chunks of any size: they read what `readFrame` reads of the bytes
in one piece (`readFrameFrom_ok`, `readFrameFrom_error`). `round_trip` puts the frames and the JSON
forms together.
-/

namespace NovaVpn.Ipc

open NovaVpn.Framework Json

/-- What the text form of the JSON library promises: parsing undoes dumping,
and there is no value in the empty text. -/
structure JsonText.Lawful (text : JsonText) : Prop where
  parse_dump : ∀ (value : Doc) (body : List Byte), text.dump value.value = some body →
    text.parse body = .ok value
  parse_nil : ∃ status, text.parse [] = .error status

/-- `readExact`: the bytes asked for and what the pipe holds after them. -/
def readExact (size : Nat) (pipe : List (List Byte)) : Result (List Byte × List (List Byte)) :=
  match takeExact size pipe with
  | some read => .ok read
  | none => .error (Err.make .connectionReset "pipe closed by peer")

/-- `readFrame`, on a pipe. -/
def readFrameFrom (text : JsonText) (pipe : List (List Byte)) :
    Result (Doc × List (List Byte)) := do
  let (lengthBytes, pipe) ← readExact 4 pipe
  let length ← readFrameLength lengthBytes
  let (body, pipe) ← readExact length pipe
  let json ← text.parse body
  .ok (json, pipe)

/-- The loop that reads frames until a read fails, for at most `n` of them. -/
def readFrames (text : JsonText) : Nat → List (List Byte) → List Doc
  | 0, _ => []
  | n + 1, pipe =>
    match readFrameFrom text pipe with
    | .error _ => []
    | .ok (json, pipe) => json :: readFrames text n pipe

section Pipe

variable {text : JsonText} {stream : List Byte} {pipe : List (List Byte)}

theorem readExact_eq {n : Nat} (h : Chunked stream pipe) (hn : n ≤ stream.length) :
    ∃ rest, readExact n pipe = .ok (stream.take n, rest) ∧ Chunked (stream.drop n) rest := by
  obtain ⟨rest, hr, hrest⟩ := h.takeExact_eq hn
  exact ⟨rest, by rw [readExact, hr], hrest⟩

theorem readExact_eq_error {n : Nat} (h : Chunked stream pipe) (hn : stream.length < n) :
    readExact n pipe = .error (Err.make .connectionReset "pipe closed by peer") := by
  rw [readExact, h.takeExact_eq_none hn]

/-- A frame read from a pipe is the frame read from its bytes. -/
theorem readFrameFrom_ok (h : Chunked stream pipe) {json : Doc} {rest : List Byte}
    (hr : readFrame text stream = .ok (json, rest)) :
    ∃ pipe', readFrameFrom text pipe = .ok (json, pipe') ∧ Chunked rest pipe' := by
  unfold readFrame at hr
  split at hr
  · cases hr
  next h4 =>
  obtain ⟨pipe₁, hread, hc₁⟩ := readExact_eq h (Nat.le_of_not_lt h4)
  cases hl : readFrameLength (stream.take 4) with
  | error e =>
    rw [hl] at hr
    cases hr
  | ok length =>
    rw [hl] at hr
    change (if (stream.drop 4).length < length then _ else _) = _ at hr
    split at hr
    · cases hr
    next hlen =>
    obtain ⟨pipe₂, hread₂, hc₂⟩ := readExact_eq hc₁ (Nat.le_of_not_lt hlen)
    cases hp : text.parse ((stream.drop 4).take length) with
    | error e =>
      rw [hp] at hr
      cases hr
    | ok value =>
      rw [hp] at hr
      cases hr
      refine ⟨pipe₂, ?_, hc₂⟩
      simp only [readFrameFrom, hread, hl, hread₂, hp, Bind.bind, Except.bind]

theorem readFrameFrom_error (h : Chunked stream pipe) {status : Status}
    (hr : readFrame text stream = .error status) : readFrameFrom text pipe = .error status := by
  unfold readFrame at hr
  split at hr
  · next h4 =>
    cases hr
    simp only [readFrameFrom, readExact_eq_error h h4, Bind.bind, Except.bind]
  next h4 =>
  obtain ⟨pipe₁, hread, hc₁⟩ := readExact_eq h (Nat.le_of_not_lt h4)
  cases hl : readFrameLength (stream.take 4) with
  | error e =>
    rw [hl] at hr
    cases hr
    simp only [readFrameFrom, hread, hl, Bind.bind, Except.bind]
  | ok length =>
    rw [hl] at hr
    change (if (stream.drop 4).length < length then _ else _) = _ at hr
    split at hr
    · next hlen =>
      cases hr
      simp only [readFrameFrom, hread, hl, readExact_eq_error hc₁ hlen, Bind.bind, Except.bind]
    next hlen =>
    obtain ⟨pipe₂, hread₂, hc₂⟩ := readExact_eq hc₁ (Nat.le_of_not_lt hlen)
    cases hp : text.parse ((stream.drop 4).take length) with
    | error e =>
      rw [hp] at hr
      cases hr
      simp only [readFrameFrom, hread, hl, hread₂, hp, Bind.bind, Except.bind]
    | ok value =>
      rw [hp] at hr
      cases hr

end Pipe

/-! ## Frames -/

theorem length_lengthPrefix (n : Nat) : (lengthPrefix n).length = 4 := rfl

/-- A byte put in front of what lies below it. -/
theorem or_shiftLeft {a b k : Nat} (h : a < 2 ^ k) : a ||| b <<< k = b * 2 ^ k + a := by
  rw [Nat.or_comm, ← Nat.shiftLeft_add_eq_or_of_lt h, Nat.shiftLeft_eq]

/-- The bytes of a length are put together to it. -/
theorem or_bytes {n : Nat} (h : n < 2 ^ 32) :
    n % 256 ||| (n >>> 8 % 256) <<< 8 ||| (n >>> 16 % 256) <<< 16 ||| (n >>> 24 % 256) <<< 24 = n := by
  simp only [Nat.shiftRight_eq_div_pow]
  rw [or_shiftLeft (k := 8) (by omega), or_shiftLeft (k := 16) (by omega),
    or_shiftLeft (k := 24) (by omega)]
  omega

theorem readFrameLength_lengthPrefix {n : Nat} (h0 : n ≠ 0) (hmax : n ≤ maxFrameBytes) :
    readFrameLength (lengthPrefix n) = .ok n := by
  have hn : n < 2 ^ 32 := by unfold maxFrameBytes at hmax; omega
  have h : (BitVec.ofNat 8 n).toNat ||| (BitVec.ofNat 8 (n >>> 8)).toNat <<< 8 |||
      (BitVec.ofNat 8 (n >>> 16)).toNat <<< 16 ||| (BitVec.ofNat 8 (n >>> 24)).toNat <<< 24 = n := by
    simp only [BitVec.toNat_ofNat]
    exact or_bytes hn
  rw [lengthPrefix, readFrameLength, h, if_neg h0, if_neg (Nat.not_lt.mpr hmax)]

/-- What `frame` gives: the length and the text, which is neither empty nor too
long. -/
theorem frame_eq_ok {text : JsonText} (hl : text.Lawful) {value : Doc} {bytes : List Byte}
    (h : frame text value.value = .ok bytes) :
    ∃ body, bytes = lengthPrefix body.length ++ body ∧ text.parse body = .ok value ∧
      readFrameLength (lengthPrefix body.length) = .ok body.length := by
  unfold frame at h
  split at h
  · cases h
  next body hd =>
  split at h
  · cases h
  next hmax =>
  cases h
  have hparse := hl.parse_dump value body hd
  refine ⟨body, rfl, hparse, readFrameLength_lengthPrefix (fun h0 => ?_) (Nat.le_of_not_lt hmax)⟩
  obtain ⟨status, hs⟩ := hl.parse_nil
  rw [List.length_eq_zero_iff.mp h0, hs] at hparse
  cases hparse

/-- A frame is read from the front of a stream. -/
theorem readFrame_frame {text : JsonText} (hl : text.Lawful) {value : Doc} {bytes : List Byte}
    (h : frame text value.value = .ok bytes) (rest : List Byte) :
    readFrame text (bytes ++ rest) = .ok (value, rest) := by
  obtain ⟨body, rfl, hparse, hlen⟩ := frame_eq_ok hl h
  have htake : (lengthPrefix body.length ++ body ++ rest).take 4 = lengthPrefix body.length := by
    rw [List.append_assoc, List.take_left' (length_lengthPrefix _)]
  have hdrop : (lengthPrefix body.length ++ body ++ rest).drop 4 = body ++ rest := by
    rw [List.append_assoc, List.drop_left' (length_lengthPrefix _)]
  have h4 : ¬ (lengthPrefix body.length ++ body ++ rest).length < 4 := by
    rw [List.append_assoc, List.length_append, length_lengthPrefix]
    omega
  have hbody : ¬ (body ++ rest).length < body.length := by
    rw [List.length_append]
    omega
  rw [readFrame, if_neg h4, htake, hlen, hdrop]
  change (if (body ++ rest).length < body.length then _ else _) = _
  rw [if_neg hbody, List.take_left, List.drop_left, hparse]
  rfl

/-- A part of a frame is not read as a frame. -/
theorem readFrame_part {text : JsonText} (hl : text.Lawful) {value : Doc} {bytes : List Byte}
    (h : frame text value.value = .ok bytes) {part : List Byte} (hp : part <+: bytes)
    (hne : part.length < bytes.length) : ∃ status, readFrame text part = .error status := by
  obtain ⟨body, rfl, -, hlen⟩ := frame_eq_ok hl h
  rw [readFrame]
  by_cases h4 : part.length < 4
  · exact ⟨_, if_pos h4⟩
  · have htake : part.take 4 = lengthPrefix body.length := by
      obtain ⟨more, hmore⟩ := hp
      have hwhole : (lengthPrefix body.length ++ body).take 4 = lengthPrefix body.length :=
        List.take_left' (length_lengthPrefix _)
      rwa [← hmore, List.take_append_of_le_length (Nat.le_of_not_lt h4)] at hwhole
    have hshort : (part.drop 4).length < body.length := by
      rw [List.length_append, length_lengthPrefix] at hne
      rw [List.length_drop]
      omega
    rw [if_neg h4, htake, hlen]
    exact ⟨_, if_pos hshort⟩

/-! ## The round trip -/

/-- Reading a stream of frames that may break off: the frames in front that are
whole give their values. -/
theorem readFrames_prefix {text : JsonText} (hl : text.Lawful) {values : List Doc}
    {frames : List (List Byte)}
    (hf : List.Forall₂ (fun value bytes => frame text value.value = .ok bytes) values frames)
    {stream : List Byte} (hs : stream <+: frames.flatten) {pipe : List (List Byte)}
    (hc : Chunked stream pipe) (n : Nat) : readFrames text n pipe <+: values := by
  induction n generalizing values frames stream pipe with
  | zero => exact List.nil_prefix
  | succ n ih =>
    rw [readFrames]
    cases hf with
    | nil =>
      rw [List.flatten_nil, List.prefix_nil] at hs
      subst hs
      rw [List.prefix_nil, readFrameFrom_error hc rfl]
    | @cons value bytes values frames hframe hrest =>
      rw [List.flatten_cons] at hs
      by_cases hlen : stream.length < bytes.length
      · have hpart : stream <+: bytes :=
          List.prefix_of_prefix_length_le hs (List.prefix_append _ _) hlen.le
        obtain ⟨status, herror⟩ := readFrame_part hl hframe hpart hlen
        rw [readFrameFrom_error hc herror]
        exact List.nil_prefix
      · have hwhole : bytes <+: stream :=
          List.prefix_of_prefix_length_le (List.prefix_append _ _) hs (Nat.le_of_not_lt hlen)
        obtain ⟨rest, rfl⟩ := hwhole
        obtain ⟨pipe', hread, hc'⟩ := readFrameFrom_ok hc (readFrame_frame hl hframe rest)
        rw [hread]
        exact (List.prefix_cons_inj value).mpr
          (ih hrest ((List.prefix_append_right_inj bytes).mp hs) hc')

/-- Reading a whole stream of frames gives all their values. -/
theorem readFrames_all {text : JsonText} (hl : text.Lawful) {values : List Doc}
    {frames : List (List Byte)}
    (hf : List.Forall₂ (fun value bytes => frame text value.value = .ok bytes) values frames)
    {pipe : List (List Byte)} (hc : Chunked frames.flatten pipe) {n : Nat}
    (hn : values.length ≤ n) : readFrames text n pipe = values := by
  induction hf generalizing pipe n with
  | nil =>
    cases n with
    | zero => rfl
    | succ n =>
      rw [readFrames, readFrameFrom_error hc rfl]
  | @cons value bytes values frames hframe hrest ih =>
    obtain ⟨n, rfl⟩ : ∃ m, n = m + 1 := ⟨n - 1, by rw [List.length_cons] at hn; omega⟩
    rw [List.flatten_cons] at hc
    obtain ⟨pipe', hread, hc'⟩ := readFrameFrom_ok hc (readFrame_frame hl hframe _)
    rw [readFrames, hread]
    exact congrArg (value :: ·) (ih hc' (by rw [List.length_cons] at hn; omega))

/-- The encodings of valid messages, with their frames. -/
theorem exists_docs {text : JsonText} {messages : List Message} {frames : List (List Byte)}
    (hvalid : ∀ m ∈ messages, m.Valid)
    (hf : List.Forall₂ (fun m bytes => frame text m.encode = .ok bytes) messages frames) :
    ∃ values : List Doc,
      List.Forall₂ (fun value bytes => frame text value.value = .ok bytes) values frames ∧
      List.Forall₂ (fun value m => decodings value = [m]) values messages := by
  induction hf with
  | nil => exact ⟨[], .nil, .nil⟩
  | @cons m bytes messages frames hframe _ ih =>
    rw [List.forall_mem_cons] at hvalid
    obtain ⟨values, hframes, hdecode⟩ := ih hvalid.2
    exact ⟨⟨m.encode, hvalid.1.ordered⟩ :: values, .cons hframe hframes,
      .cons (decodings_encode hvalid.1 rfl) hdecode⟩

/-- The frames of messages, concatenated and delivered in chunks, read back as
these messages, and what breaks off as the first of them. -/
theorem round_trip {text : JsonText} (hl : text.Lawful) {messages : List Message}
    {frames : List (List Byte)} (hvalid : ∀ m ∈ messages, m.Valid)
    (hf : List.Forall₂ (fun m bytes => frame text m.encode = .ok bytes) messages frames) :
    (∀ pipe, Chunked frames.flatten pipe → ∀ n, messages.length ≤ n →
      List.Forall₂ (fun value m => decodings value = [m]) (readFrames text n pipe) messages) ∧
    ∀ stream, stream <+: frames.flatten → ∀ pipe, Chunked stream pipe → ∀ n,
      ∃ k, List.Forall₂ (fun value m => decodings value = [m]) (readFrames text n pipe)
        (messages.take k) := by
  obtain ⟨values, hframes, hdecode⟩ := exists_docs hvalid hf
  constructor
  · intro pipe hc n hn
    rwa [readFrames_all hl hframes hc (hdecode.length_eq ▸ hn)]
  · intro stream hs pipe hc n
    have hprefix := readFrames_prefix hl hframes hs hc n
    refine ⟨(readFrames text n pipe).length, ?_⟩
    have htake := List.forall₂_take (readFrames text n pipe).length hdecode
    rwa [← List.prefix_iff_eq_take.mp hprefix] at htake

/-- The text form of these values. -/
noncomputable def JsonText.table (entries : List (Doc × List Byte)) : JsonText where
  parse bytes :=
    match entries.find? (·.2 = bytes) with
    | some entry => .ok entry.1
    | none => .error (Err.make .parseError "malformed JSON")
  dump json := open Classical in (entries.find? (·.1.value = json)).map (·.2)

section Table

variable {entries front back : List (Doc × List Byte)} {value : Doc} {body : List Byte}

theorem JsonText.table_lawful (hnodup : (entries.map (·.2)).Nodup) (hne : [] ∉ entries.map (·.2)) :
    (JsonText.table entries).Lawful where
  parse_dump value body hd := by
    obtain ⟨entry, hfind, rfl⟩ := Option.map_eq_some_iff.mp hd
    have hvalue : entry.1.value = value.value := by simpa using List.find?_some hfind
    obtain ⟨v, hv⟩ := value
    cases hvalue
    -- the text of an entry is found under no other
    obtain ⟨front, back, rfl⟩ := List.append_of_mem (List.mem_of_find?_eq_some hfind)
    rw [List.map_append, List.nodup_append] at hnodup
    have hfront : ∀ e ∈ front, ¬ e.2 = entry.2 := fun e he =>
      hnodup.2.2 _ (List.mem_map_of_mem he) _ List.mem_cons_self
    have hparse : (front ++ entry :: back).find? (·.2 = entry.2) = some entry := by
      rw [List.find?_append, List.find?_eq_none.mpr (by simpa using hfront), Option.none_or,
        List.find?_cons_of_pos (by simp)]
    show (match (front ++ entry :: back).find? (·.2 = entry.2) with
      | some entry => .ok entry.1
      | none => .error (Err.make .parseError "malformed JSON")) = Except.ok entry.1
    rw [hparse]
  parse_nil := by
    refine ⟨Err.make .parseError "malformed JSON", ?_⟩
    have hnone : entries.find? (·.2 = []) = none := List.find?_eq_none.mpr fun e he heq =>
      hne (of_decide_eq_true heq ▸ List.mem_map_of_mem he)
    show (match entries.find? (·.2 = []) with
      | some entry => .ok entry.1
      | none => .error _) = Except.error _
    rw [hnone]

/-- An entry with a value that none before it has is written as its text. -/
theorem JsonText.frame_table (front : List (Doc × List Byte)) (value : Doc)
    (hfront : ∀ e ∈ front, e.1.value ≠ value.value)
    (hlen : ¬ body.length > maxFrameBytes) :
    frame (.table (front ++ (value, body) :: back)) value.value =
      .ok (lengthPrefix body.length ++ body) := by
  have hdump : (JsonText.table (front ++ (value, body) :: back)).dump value.value = some body := by
    classical
    show ((front ++ (value, body) :: back).find? (·.1.value = value.value)).map (·.2) = some body
    rw [List.find?_append, List.find?_eq_none.mpr (by simpa using hfront), Option.none_or,
      List.find?_cons_of_pos (by simp)]
    rfl
  rw [frame, hdump]
  exact if_neg hlen

end Table

/-- A Hello, and the text of its frame. -/
def hello : Request := { id := 1 }

def helloFrameText : List Byte := ascii
  ["\x7b\"id\":1,\"method\":1,\"methodName\":\"Hello\",", "\"params\":\x7b\x7d,",
    "\"protocol\":1,\"type\":\"request\"\x7d"]

theorem hello_valid : (Message.request hello).Valid := .request (by decide) rfl

noncomputable def helloJson : JsonText :=
  .table [(⟨encodeRequest hello, hello_valid.ordered⟩, helloFrameText)]

theorem frame_hello : frame helloJson (Message.request hello).encode =
    .ok (lengthPrefix helloFrameText.length ++ helloFrameText) :=
  JsonText.frame_table [] ⟨encodeRequest hello, hello_valid.ordered⟩ (by simp) (by decide +kernel)

/-- Two Hellos, the first byte of the first on its own. -/
theorem round_trip_two :
    helloJson.Lawful ∧
    List.Forall₂ (fun value m => decodings value = [m])
      (readFrames helloJson 5
        [(lengthPrefix helloFrameText.length ++ helloFrameText).take 1,
          (lengthPrefix helloFrameText.length ++ helloFrameText).drop 1,
          lengthPrefix helloFrameText.length ++ helloFrameText])
      [.request hello, .request hello] := by
  have hl : helloJson.Lawful := JsonText.table_lawful (by decide +kernel) (by decide +kernel)
  refine ⟨hl, (round_trip hl (by simp [hello_valid]) (.cons frame_hello (.cons frame_hello .nil))).1
    _ ⟨?_, ?_⟩ 5 (by decide)⟩
  · simp only [List.flatten_cons, List.flatten_nil, List.append_nil, ← List.append_assoc,
      List.take_append_drop]
  · decide +kernel

end NovaVpn.Ipc
