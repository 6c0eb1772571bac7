import NovaVpn.App.Protocol

/-!
# What the service reads of the app's requests

`app_requests_understood`: the service decodes the requests of the app to what they ask
for, for the app's frame is that of the service's own client (`Call.frame_eq`).
-/

namespace NovaVpn.App

open NovaVpn.Framework NovaVpn.Json

/-! ## The two libraries -/

/-- What the library of one side promises that of the other: a text that was written for
one of these values is read as that value, and there is no value in the empty text. -/
structure LawfulOn (text : Ipc.JsonText) (plain : Json → Prop) : Prop where
  parse_dump : ∀ (value : Doc) (body : List Byte), plain value.value →
    text.dump value.value = some body → text.parse body = .ok value
  parse_nil : ∃ status, text.parse [] = .error status

/-- The values the app's library writes as they are: integers of 64 bits and no doubles. -/
inductive Portable : Json → Prop where
  | null : Portable .null
  | bool (b : Bool) : Portable (.bool b)
  | int {n : Int} (h : -2 ^ 63 ≤ n ∧ n < 2 ^ 64) : Portable (.int n)
  | str (s : String) : Portable (.str s)
  | arr {items : List Json} (h : ∀ j ∈ items, Portable j) : Portable (.arr items)
  | obj {fields : List (String × Json)} (h : ∀ f ∈ fields, Portable f.2) : Portable (.obj fields)

/-- The values whose arrays and objects are nested at most so deep. -/
inductive Nested : Nat → Json → Prop where
  | null {n : Nat} : Nested n .null
  | bool {n : Nat} (b : Bool) : Nested n (.bool b)
  | int {n : Nat} (i : Int) : Nested n (.int i)
  | float {n : Nat} (q : Rat) : Nested n (.float q)
  | str {n : Nat} (s : String) : Nested n (.str s)
  | arr {n : Nat} {items : List Json} (h : ∀ j ∈ items, Nested n j) : Nested (n + 1) (.arr items)
  | obj {n : Nat} {fields : List (String × Json)} (h : ∀ f ∈ fields, Nested n f.2) :
      Nested (n + 1) (.obj fields)

/-- `JsonDocumentOptions.MaxDepth`, as it is by default. -/
def maxDepth : Nat := 64

/-- The text form for these values alone. -/
noncomputable def restricted (text : Ipc.JsonText) (plain : Json → Prop) : Ipc.JsonText where
  parse := text.parse
  dump value := open Classical in if plain value then text.dump value else none

section Laws

variable {text : Ipc.JsonText} {plain : Json → Prop}

theorem LawfulOn.restricted (h : LawfulOn text plain) : (restricted text plain).Lawful where
  parse_dump value body hd := by
    rw [App.restricted] at hd
    obtain ⟨hplain, hd⟩ := Option.ite_none_right_eq_some.mp hd
    exact h.parse_dump value body hplain hd
  parse_nil := h.parse_nil

theorem frame_restricted {value : Json} (h : plain value) :
    Ipc.frame (restricted text plain) value = Ipc.frame text value := by
  have hdump : (restricted text plain).dump value = text.dump value := if_pos h
  rw [Ipc.frame, hdump, Ipc.frame]

theorem readFrames_restricted (n : Nat) (pipe : List (List Byte)) :
    Ipc.readFrames (restricted text plain) n pipe = Ipc.readFrames text n pipe := by
  induction n generalizing pipe with
  | zero => rfl
  | succ n ih =>
    have hread : Ipc.readFrameFrom (restricted text plain) pipe = Ipc.readFrameFrom text pipe := rfl
    rw [Ipc.readFrames, Ipc.readFrames, hread]
    cases Ipc.readFrameFrom text pipe with
    | error status => rfl
    | ok read => exact congrArg (read.1 :: ·) (ih read.2)

theorem LawfulOn.of_lawful (h : text.Lawful) : LawfulOn text plain :=
  ⟨fun value body _ hd => h.parse_dump value body hd, h.parse_nil⟩

/-- What is read of the frames of such values: the values, and of a stream that breaks off
the first of them. -/
theorem readFrames_eq (hl : LawfulOn text plain) {values : List Doc} {frames : List (List Byte)}
    (hplain : ∀ value ∈ values, plain value.value)
    (hf : List.Forall₂ (fun value bytes => Ipc.frame text value.value = .ok bytes) values frames) :
    (∀ pipe, Chunked frames.flatten pipe → ∀ n, values.length ≤ n →
      Ipc.readFrames text n pipe = values) ∧
    ∀ stream, stream <+: frames.flatten → ∀ pipe, Chunked stream pipe → ∀ n,
      Ipc.readFrames text n pipe <+: values := by
  have hframes : List.Forall₂
      (fun value bytes => Ipc.frame (restricted text plain) value.value = .ok bytes) values frames := by
    induction hf with
    | nil => exact .nil
    | cons hframe _ ih =>
      rw [List.forall_mem_cons] at hplain
      exact .cons ((frame_restricted hplain.1).trans hframe) (ih hplain.2)
  constructor
  · intro pipe hc n hn
    rw [← @readFrames_restricted text plain]
    exact Ipc.readFrames_all hl.restricted hframes hc hn
  · intro stream hs pipe hc n
    rw [← @readFrames_restricted text plain]
    exact Ipc.readFrames_prefix hl.restricted hframes hs hc n

end Laws

/-! ## Requests -/

structure Call where
  id : UInt64
  method : Method
  parameters : Option JsonObject := none

namespace Call

/-- The frame of the call. -/
def frame (call : Call) : Json := request call.id call.method call.parameters

/-- What the call asks of the service. -/
def meant (call : Call) : Ipc.Request :=
  { id := call.id, method := call.method.meant, params := (call.parameters.getD .empty).doc }

/-- The app's frame is the one the service's own client would make. -/
theorem frame_eq (call : Call) : call.frame = Ipc.encodeRequest call.meant := by
  have hmethod : call.method.meant.toUInt16.toNat = call.method.value := call.method.mirrors.1
  have hname : call.method.meant.toString = call.method.toString := call.method.mirrors.2
  rw [frame, request, Ipc.encodeRequest, meant, ← hmethod, ← hname]
  rfl

/-- The frame as a value. -/
def doc (call : Call) : Doc := ⟨call.frame, call.frame_eq ▸ Ipc.ordered_encodeRequest call.meant⟩

theorem decodeRequest_doc {call : Call} (hid : call.id ≠ 0) :
    Ipc.decodeRequest call.doc = .ok call.meant :=
  Ipc.decodeRequest_encodeRequest hid (call.parameters.getD .empty).isObject call.frame_eq

end Call

theorem mem_ofFields {fields : List (String × Json)} {f : String × Json}
    (h : f ∈ (Ipc.ofFields fields).fields) : f ∈ fields := by
  have hfold : ∀ (fields init : List (String × Json)),
      f ∈ fields.foldl (fun fs f => insertField f.1 f.2 fs) init → f ∈ fields ∨ f ∈ init := by
    intro fields
    induction fields with
    | nil => exact fun init h => .inr h
    | cons g fields ih =>
      intro init h
      rcases ih _ h with h | h
      · exact .inl (List.mem_cons_of_mem _ h)
      · rcases mem_insertField h with rfl | h
        · exact .inl List.mem_cons_self
        · exact .inr h
  exact (hfold fields [] h).resolve_right List.not_mem_nil

theorem portable_ofFields {fields : List (String × Json)} (h : ∀ f ∈ fields, Portable f.2) :
    Portable (Ipc.ofFields fields) :=
  .obj fun f hf => h f (mem_ofFields hf)

theorem nested_ofFields {n : Nat} {fields : List (String × Json)} (h : ∀ f ∈ fields, Nested n f.2) :
    Nested (n + 1) (Ipc.ofFields fields) :=
  .obj fun f hf => h f (mem_ofFields hf)

theorem portable_frame {call : Call}
    (h : Portable (call.parameters.getD .empty).value) : Portable call.frame := by
  have hid := call.id.toNat_lt
  refine portable_ofFields fun f hf => ?_
  simp only [List.mem_cons, List.not_mem_nil, or_false] at hf
  obtain rfl | rfl | rfl | rfl | rfl | rfl := hf
  · exact .str _
  · exact .int (by decide)
  · exact .int (by omega)
  · refine .int ?_
    cases call.method <;> decide
  · exact .str _
  · exact h

theorem writeFrame_eq_ok {text : Ipc.JsonText} {value : Json} {bytes : List Byte}
    (h : writeFrame text value = .ok bytes) : Ipc.frame text value = .ok bytes := by
  unfold writeFrame at h
  split at h
  · cases h
  next body hdump =>
  split at h
  · cases h
  next hlen =>
  cases h
  rw [Ipc.frame, hdump]
  exact if_neg hlen

/-- However the pipe cuts the stream, the service decodes the frames that the app wrote to
what each call asks for, and of a stream that breaks off the first of them. The app's ids
count from 2, and its parameters are strings, flags and the version of the protocol. -/
theorem app_requests_understood {text : Ipc.JsonText} (hl : LawfulOn text Portable)
    {calls : List Call} {frames : List (List Byte)} (hid : ∀ call ∈ calls, call.id ≠ 0)
    (hp : ∀ call ∈ calls, Portable (call.parameters.getD .empty).value)
    (hf : List.Forall₂ (fun call bytes => writeFrame text call.frame = .ok bytes) calls frames) :
    (∀ pipe, Chunked frames.flatten pipe → ∀ n, calls.length ≤ n →
      (Ipc.readFrames text n pipe).map Ipc.decodeRequest = calls.map fun call => .ok call.meant) ∧
    ∀ stream, stream <+: frames.flatten → ∀ pipe, Chunked stream pipe → ∀ n,
      (Ipc.readFrames text n pipe).map Ipc.decodeRequest <+:
        calls.map fun call => .ok call.meant := by
  have hplain : ∀ value ∈ calls.map Call.doc, Portable value.value := by
    intro value hv
    obtain ⟨call, hcall, rfl⟩ := List.mem_map.mp hv
    exact portable_frame (hp call hcall)
  have hframes : List.Forall₂ (fun value bytes => Ipc.frame text value.value = .ok bytes)
      (calls.map Call.doc) frames :=
    List.forall₂_map_left_iff.mpr (hf.imp fun _ _ h => writeFrame_eq_ok h)
  have hdecoded : (calls.map Call.doc).map Ipc.decodeRequest = calls.map fun call => .ok call.meant := by
    rw [List.map_map]
    exact List.map_congr_left fun call hcall => Call.decodeRequest_doc (hid call hcall)
  obtain ⟨hall, hpart⟩ := readFrames_eq hl hplain hframes
  constructor
  · intro pipe hc n hn
    rw [hall pipe hc n (by rwa [List.length_map]), hdecoded]
  · intro stream hs pipe hc n
    rw [← hdecoded]
    exact (hpart stream hs pipe hc n).map _

/-- Two calls, and the texts of their frames. -/
def renameProfile : Call where
  id := 2
  method := .renameProfile
  parameters := some ⟨.ofFields [("id", .str "a"), ("name", .str "Home")], rfl⟩

def renameProfileText : List Byte := Ipc.ascii
  ["\x7b\"type\":\"request\",\"protocol\":1,\"id\":2,\"method\":109,",
    "\"methodName\":\"RenameProfile\",\"params\":\x7b\"id\":\"a\",\"name\":\"Home\"\x7d\x7d"]

def connect : Call where
  id := 3
  method := .connect
  parameters := some ⟨.ofFields [("profileId", .str "a")], rfl⟩

def connectText : List Byte := Ipc.ascii
  ["\x7b\"type\":\"request\",\"protocol\":1,\"id\":3,\"method\":200,",
    "\"methodName\":\"Connect\",\"params\":\x7b\"profileId\":\"a\"\x7d\x7d"]

noncomputable def callsJson : Ipc.JsonText :=
  .table [(renameProfile.doc, renameProfileText), (connect.doc, connectText)]

theorem writeFrame_of_frame {text : Ipc.JsonText} {value : Json} {bytes : List Byte}
    (h : Ipc.frame text value = .ok bytes) : writeFrame text value = .ok bytes := by
  unfold Ipc.frame at h
  split at h
  · cases h
  next body hdump =>
  split at h
  · cases h
  next hlen =>
  cases h
  rw [writeFrame, hdump]
  exact if_neg hlen

theorem writeFrame_renameProfile : writeFrame callsJson renameProfile.frame =
    .ok (Ipc.lengthPrefix renameProfileText.length ++ renameProfileText) :=
  writeFrame_of_frame (Ipc.JsonText.frame_table [] renameProfile.doc (by simp)
    (by decide +kernel))

theorem writeFrame_connect : writeFrame callsJson connect.frame =
    .ok (Ipc.lengthPrefix connectText.length ++ connectText) := by
  refine writeFrame_of_frame (Ipc.JsonText.frame_table [(renameProfile.doc, renameProfileText)]
    connect.doc (fun e he heq => ?_) (by decide +kernel))
  rw [List.mem_singleton.mp he] at heq
  exact absurd (congrArg (fun value => (value.field "methodName").bind Json.asString) heq)
    (by decide +kernel)

/-- The calls in three chunks. -/
theorem app_requests_understood_connect :
    LawfulOn callsJson Portable ∧
    (Ipc.readFrames callsJson 2
      [Ipc.lengthPrefix renameProfileText.length, renameProfileText ++
        Ipc.lengthPrefix connectText.length, connectText]).map Ipc.decodeRequest =
      [.ok renameProfile.meant, .ok connect.meant] := by
  have hl : LawfulOn callsJson Portable :=
    .of_lawful (Ipc.JsonText.table_lawful (by decide +kernel) (by decide +kernel))
  refine ⟨hl, (@app_requests_understood _ hl [renameProfile, connect] _ (by decide) (fun call hcall => ?_)
    (.cons writeFrame_renameProfile (.cons writeFrame_connect .nil))).1 _ ⟨?_, ?_⟩ 2 (by decide)⟩
  · simp only [List.mem_cons, List.not_mem_nil, or_false] at hcall
    rcases hcall with rfl | rfl
    · show Portable (Ipc.ofFields [("id", .str "a"), ("name", .str "Home")])
      refine portable_ofFields fun f hf => ?_
      simp only [List.mem_cons, List.not_mem_nil, or_false] at hf
      rcases hf with hf | hf <;> rw [hf] <;> exact .str _
    · show Portable (Ipc.ofFields [("profileId", .str "a")])
      refine portable_ofFields fun f hf => ?_
      rw [List.mem_singleton.mp hf]
      exact .str _
  · simp
  · decide +kernel

end NovaVpn.App
