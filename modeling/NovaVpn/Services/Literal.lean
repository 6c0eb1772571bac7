import NovaVpn.Services.Wire

/-!
# Numbers on the wire

The numbers of a request pass through the library's conversions before they
are checked: a wide integer is cut to its low bits, a double loses its
fraction, and a boolean counts as an `int`. `literal_iff` says for which
values what is decoded is still what the value says.
-/

namespace NovaVpn.Ipc

open Json

/-- What is decoded has the numbers of the value: JSON integers equal to
them. -/
structure Literal (value : Doc) : Prop where
  request : ∀ r, decodeRequest value = .ok r →
    value.field "protocol" = some (.int ipcProtocol) ∧
    value.field "method" = some (.int r.method.toUInt16.toNat) ∧
    value.field "id" = some (.int r.id.toNat) ∧ r.id ≠ 0
  event : ∀ e, decodeEvent value.value = .ok e →
    value.field "event" = some (.int e.kind.toUInt16.toNat)

/-- A JSON integer from `lo` up to `hi`. -/
def Within (lo hi : Int) (field : Option Json) : Prop := ∃ n, field = some (.int n) ∧ lo ≤ n ∧ n < hi

/-- A JSON integer an `int` can hold. -/
def IsInt (field : Option Json) : Prop := Within (-0x80000000) 0x80000000 field

/-- A JSON integer a `u64` can hold. -/
def IsU64 (field : Option Json) : Prop := Within 0 0x10000000000000000 field

/-- A request by its form, whose numbers convert to the protocol, a method and
an id. -/
structure RequestForm (value : Doc) : Prop where
  object : value.value.isObject = true
  type : (value.field "type").bind asString = some "request"
  params : ∀ params, value.field "params" = some params → params.isObject = true
  protocol : (value.field "protocol").bind asInt = some ipcProtocol
  method : ∃ method : Method, (value.field "method").bind asInt = some (method.toUInt16.toNat : Int)
  id : ∃ id, (value.field "id").bind asU64 = some id ∧ id ≠ 0

/-- An event by its form, whose number converts to a kind. -/
structure EventForm (value : Doc) : Prop where
  object : value.value.isObject = true
  type : (value.field "type").bind asString = some "event"
  kind : ∃ kind : EventKind, (value.field "event").bind asInt = some (kind.toUInt16.toNat : Int)

theorem IsInt.eq_of_asInt {field : Option Json} (h : IsInt field) {n : Int}
    (hn : field.bind asInt = some n) : field = some (.int n) := by
  obtain ⟨m, rfl, hlo, hhi⟩ := h
  have hm : (BitVec.ofInt 32 m).toInt = m := by
    rw [BitVec.toInt_ofInt, Int.bmod_eq_of_le (by omega) (by omega)]
  rw [Option.bind_some, asInt, hm] at hn
  cases hn
  rfl

theorem IsU64.eq_of_asU64 {field : Option Json} (h : IsU64 field) {id : UInt64}
    (hid : field.bind asU64 = some id) : field = some (.int id.toNat) := by
  obtain ⟨m, rfl, hlo, hhi⟩ := h
  rw [Option.bind_some, asU64] at hid
  cases hid
  have hm : ((UInt64.ofBitVec (BitVec.ofInt 64 m)).toNat : Int) = m := by
    show ((BitVec.ofInt 64 m).toNat : Int) = m
    rw [BitVec.toNat_ofInt]
    omega
  rw [hm]

theorem isInt_uInt16 (n : UInt16) : IsInt (some (.int n.toNat)) := by
  have := n.toNat_lt
  exact ⟨_, rfl, by omega, by omega⟩

theorem isU64_uInt64 (n : UInt64) : IsU64 (some (.int n.toNat)) := by
  have := n.toNat_lt
  exact ⟨_, rfl, by omega, by omega⟩

theorem RequestForm.exists_decoded {value : Doc} (h : RequestForm value) :
    ∃ r, decodeRequest value = .ok r := by
  obtain ⟨method, hmethod⟩ := h.method
  obtain ⟨id, hid, hne⟩ := h.id
  cases hp : value.field "params" with
  | none =>
    exact ⟨{ id, method }, decodeRequest_eq_ok_iff.mpr
      ⟨h.object, h.type, h.protocol, hmethod, hid, hne, by rw [hp]; rfl, h.params⟩⟩
  | some params =>
    have ho : Ordered params := value.ordered.fields.lookup hp
    exact ⟨{ id, method, params := ⟨params, ho⟩ }, decodeRequest_eq_ok_iff.mpr
      ⟨h.object, h.type, h.protocol, hmethod, hid, hne, by rw [hp]; rfl, h.params⟩⟩

theorem EventForm.exists_decoded {value : Doc} (h : EventForm value) :
    ∃ e, decodeEvent value.value = .ok e := by
  obtain ⟨kind, hkind⟩ := h.kind
  exact ⟨{ kind, payload := _ }, decodeEvent_eq_ok_iff.mpr ⟨h.object, h.type, hkind, rfl⟩⟩

theorem IsRequest.form {value : Doc} {r : Request} (h : IsRequest value r) : RequestForm value :=
  ⟨h.object, h.type, h.params_object, h.protocol, ⟨r.method, h.method⟩, r.id, h.id, h.id_ne⟩

/-- What is decoded is what the value says if, and only if, the numbers of a
value that has the form of a request or an event are integers of the types
they are converted to. -/
theorem literal_iff (value : Doc) :
    Literal value ↔
      (RequestForm value → IsInt (value.field "protocol") ∧ IsInt (value.field "method") ∧
        IsU64 (value.field "id")) ∧
      (EventForm value → IsInt (value.field "event")) := by
  constructor
  · intro h
    refine ⟨fun hform => ?_, fun hform => ?_⟩
    · obtain ⟨r, hr⟩ := hform.exists_decoded
      obtain ⟨hprotocol, hmethod, hid, -⟩ := h.request r hr
      rw [hprotocol, hmethod, hid]
      exact ⟨⟨_, rfl, by decide, by decide⟩, isInt_uInt16 _, isU64_uInt64 _⟩
    · obtain ⟨e, he⟩ := hform.exists_decoded
      rw [h.event e he]
      exact isInt_uInt16 _
  · rintro ⟨hrequest, hevent⟩
    refine ⟨fun r hr => ?_, fun e he => ?_⟩
    · have h := decodeRequest_eq_ok_iff.mp hr
      obtain ⟨hprotocol, hmethod, hid⟩ := hrequest h.form
      exact ⟨hprotocol.eq_of_asInt h.protocol, hmethod.eq_of_asInt h.method, hid.eq_of_asU64 h.id,
        h.id_ne⟩
    · have h := decodeEvent_eq_ok_iff.mp he
      exact (hevent ⟨h.object, h.type, e.kind, h.kind⟩).eq_of_asInt h.kind

/-- A method number of 2^32 + 602 is taken for InstallUpdate. -/
def wideInstall : Doc := .ofFields
  [("id", .int 1), ("method", .int 4294967898), ("protocol", .int 1), ("type", .str "request")]

theorem wide_method_accepted :
    (∃ r, decodeRequest wideInstall = .ok r ∧ r.method = .installUpdate) ∧ ¬ Literal wideInstall := by
  have hdecode : decodeRequest wideInstall = .ok { id := 1, method := .installUpdate } :=
    decodeRequest_eq_ok_iff.mpr ⟨rfl, rfl, rfl, rfl, rfl, by decide, rfl, fun p h => by cases h⟩
  refine ⟨⟨_, hdecode, rfl⟩, fun h => ?_⟩
  have hmethod := (h.request _ hdecode).2.1
  exact absurd (Json.int.inj (Option.some.inj hmethod)) (by decide)

end NovaVpn.Ipc
