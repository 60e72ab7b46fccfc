import Mathlib.Data.List.Forall2
import Deepspan.Codegen.Schema

/-!
# The fields of the generated messages and structs

Four templates write the request and the response of an operation down once more:
`device.proto.j2` as protobuf messages, `c_kernel.h.j2` and `cpp_hwmodel.hpp.j2` as structs,
`python_sdk.py.j2` as pydantic models. Each has its own `if` chain over the field types, and a
field whose type is not in the chain is left out without a word. `targets_agree_iff` says for
which operations all four targets have all the fields.

The protobuf messages also number their fields, from the position in the loop and the length
of the list. The numbers are pairwise distinct and the declared fields keep theirs when a
descriptor grows at the end, but `timeout_ms` comes behind the request fields and moves with
them (`proto_numbers_kept_iff`).
-/

namespace Deepspan

/-! ## Members -/

/-- What a generated member is there for: a fixed member of its message, the length that goes
with a `bytes` field, or the `i`-th field of the descriptor. -/
inductive Origin where
  | deviceId
  | timeoutMs
  | status
  | lengthOf (i : Nat)
  | declared (i : Nat)
deriving DecidableEq, Repr

/-- The scalar types of proto3 that the template uses. -/
inductive ProtoType where
  | int32
  | uint32
  | uint64
  | bytes
  | string
deriving DecidableEq, Repr

structure ProtoField where
  origin : Origin
  type : ProtoType
  name : String
  number : Nat
deriving DecidableEq, Repr

/-- A member of a C struct: `__u32 name;`, or `__u8 name[dim];`. -/
structure KernelMember where
  origin : Origin
  bits : RegSize
  name : String
  dim : Option Int := none
deriving DecidableEq, Repr

/-- A member of a C++ struct: `uint32_t name{};`, or `std::vector<uint8_t> name;`. -/
inductive CppType where
  | uint (bits : RegSize)
  | byteVector
deriving DecidableEq, Repr

structure CppMember where
  origin : Origin
  type : CppType
  name : String
deriving DecidableEq, Repr

/-- The annotation of a field of a pydantic model. -/
inductive PyType where
  | int
  | bytes
  | str
deriving DecidableEq, Repr

structure PyMember where
  origin : Origin
  type : PyType
  name : String
deriving DecidableEq, Repr

/-- `{% for f in fields %}`: what the body emits for every field, given its position. -/
def forFields {μ : Type} (emit : OpField → Nat → List μ) (fields : List OpField) : List μ :=
  fields.zipIdx.flatMap fun p => emit p.1 p.2

/-! ## `device.proto.j2` -/

/-- One turn of the request loop; `loop.index` is `i + 1`. -/
def protoRequestField (f : OpField) (i : Nat) : List ProtoField :=
  match f.type with
  | .u32 => [⟨.declared i, .uint32, f.name, (i + 1) + 1⟩]
  | .u64 => [⟨.declared i, .uint64, f.name, (i + 1) + 1⟩]
  | .bytes => [⟨.declared i, .bytes, f.name, (i + 1) + 1⟩]
  | .string => [⟨.declared i, .string, f.name, (i + 1) + 1⟩]
  | .u8 | .u16 => []

def OperationDef.protoRequest (op : OperationDef) : List ProtoField :=
  ⟨.deviceId, .string, "device_id", 1⟩ :: forFields protoRequestField op.request.fields ++
    [⟨.timeoutMs, .uint32, "timeout_ms", op.request.fields.length + 2⟩]

def protoResponseField (f : OpField) (i : Nat) : List ProtoField :=
  match f.type with
  | .u32 => [⟨.declared i, .uint32, f.name, (i + 1) + 1⟩]
  | .u64 => [⟨.declared i, .uint64, f.name, (i + 1) + 1⟩]
  | .bytes => [⟨.declared i, .bytes, f.name, (i + 1) + 1⟩]
  | .u8 | .u16 | .string => []

def OperationDef.protoResponse (op : OperationDef) : List ProtoField :=
  ⟨.status, .int32, "status", 1⟩ :: forFields protoResponseField op.response.fields

/-! ## `c_kernel.h.j2` -/

/-- `u8` to `u64`, as the size of a C integer. -/
def FieldType.regSize? : FieldType → Option RegSize
  | .u8 => some .s8
  | .u16 => some .s16
  | .u32 => some .s32
  | .u64 => some .s64
  | .bytes | .string => none

def kernelRequestMember (f : OpField) (i : Nat) : List KernelMember :=
  match f.type.regSize? with
  | some bits => [⟨.declared i, bits, f.name, none⟩]
  | none =>
    if f.type = .bytes then
      [⟨.declared i, .s8, f.name, some f.maxLength⟩, ⟨.lengthOf i, .s32, f.name ++ "_len", none⟩]
    else []

/-- `struct <ns>_<op>_req`, if the operation has request fields. -/
def OperationDef.kernelRequest (op : OperationDef) : Option (List KernelMember) :=
  if op.request.fields ≠ [] then some (forFields kernelRequestMember op.request.fields) else none

def kernelResponseMember (f : OpField) (i : Nat) : List KernelMember :=
  match f.type.regSize? with
  | some bits => [⟨.declared i, bits, f.name, none⟩]
  | none => []

def OperationDef.kernelResponse (op : OperationDef) : Option (List KernelMember) :=
  if op.response.fields ≠ [] then some (forFields kernelResponseMember op.response.fields) else none

/-! ## `cpp_hwmodel.hpp.j2` -/

def cppRequestMember (f : OpField) (i : Nat) : List CppMember :=
  match f.type with
  | .u32 => [⟨.declared i, .uint .s32, f.name⟩]
  | .u64 => [⟨.declared i, .uint .s64, f.name⟩]
  | .u16 => [⟨.declared i, .uint .s16, f.name⟩]
  | .u8 => [⟨.declared i, .uint .s8, f.name⟩]
  | .bytes => [⟨.declared i, .byteVector, f.name⟩]
  | .string => []

def OperationDef.cppRequest (op : OperationDef) : Option (List CppMember) :=
  if op.request.fields ≠ [] then some (forFields cppRequestMember op.request.fields) else none

def cppResponseMember (f : OpField) (i : Nat) : List CppMember :=
  match f.type with
  | .u32 => [⟨.declared i, .uint .s32, f.name⟩]
  | .u64 => [⟨.declared i, .uint .s64, f.name⟩]
  | .u16 => [⟨.declared i, .uint .s16, f.name⟩]
  | .u8 => [⟨.declared i, .uint .s8, f.name⟩]
  | .bytes | .string => []

def OperationDef.cppResponse (op : OperationDef) : Option (List CppMember) :=
  if op.response.fields ≠ [] then some (forFields cppResponseMember op.response.fields) else none

/-! ## `python_sdk.py.j2` -/

def pyRequestMember (f : OpField) (i : Nat) : List PyMember :=
  match f.type with
  | .u8 | .u16 | .u32 => [⟨.declared i, .int, f.name⟩]
  | .u64 => [⟨.declared i, .int, f.name⟩]
  | .bytes => [⟨.declared i, .bytes, f.name⟩]
  | .string => [⟨.declared i, .str, f.name⟩]

def OperationDef.pyRequest (op : OperationDef) : List PyMember :=
  forFields pyRequestMember op.request.fields

def pyResponseMember (f : OpField) (i : Nat) : List PyMember :=
  match f.type with
  | .u8 | .u16 | .u32 => [⟨.declared i, .int, f.name⟩]
  | .u64 => [⟨.declared i, .int, f.name⟩]
  | .bytes => [⟨.declared i, .bytes, f.name⟩]
  | .string => []

def OperationDef.pyResponse (op : OperationDef) : List PyMember :=
  ⟨.status, .int, "status"⟩ :: forFields pyResponseMember op.response.fields

/-! ## Which fields are there -/

/-- Of `n` declared fields, all and no others have a member. -/
def HasFields (origins : List Origin) (n : Nat) : Prop :=
  ∀ i, Origin.declared i ∈ origins ↔ i < n

/-- A loop body that emits a member for the field itself exactly when its type is kept. -/
def Emits {μ : Type} (origin : μ → Origin) (emit : OpField → Nat → List μ)
    (keeps : FieldType → Bool) : Prop :=
  ∀ f i j, Origin.declared j ∈ (emit f i).map origin ↔ j = i ∧ keeps f.type = true

theorem declared_mem_forFields {μ : Type} {origin : μ → Origin} {emit : OpField → Nat → List μ}
    {keeps : FieldType → Bool} (h : Emits origin emit keeps) (fields : List OpField) (j : Nat) :
    Origin.declared j ∈ (forFields emit fields).map origin ↔
      ∃ f, fields[j]? = some f ∧ keeps f.type = true := by
  rw [forFields, List.map_flatMap, List.mem_flatMap]
  constructor
  · rintro ⟨⟨f, i⟩, hmem, hj⟩
    obtain ⟨rfl, hkeeps⟩ := (h f i j).mp hj
    exact ⟨f, List.mem_zipIdx_iff_getElem?.mp hmem, hkeeps⟩
  · rintro ⟨f, hf, hkeeps⟩
    exact ⟨(f, j), List.mem_zipIdx_iff_getElem?.mpr hf, (h f j j).mpr ⟨rfl, hkeeps⟩⟩

/-- A loop has all the fields exactly when it keeps the type of each. -/
theorem hasFields_forFields_iff {μ : Type} {origin : μ → Origin}
    {emit : OpField → Nat → List μ} {keeps : FieldType → Bool} (h : Emits origin emit keeps)
    (fields : List OpField) :
    HasFields ((forFields emit fields).map origin) fields.length ↔
      ∀ f ∈ fields, keeps f.type = true := by
  simp only [HasFields, declared_mem_forFields h]
  constructor
  · intro hall f hf
    obtain ⟨i, hi⟩ := List.mem_iff_getElem?.mp hf
    obtain ⟨g, hg, hkeeps⟩ := (hall i).mpr (List.getElem?_eq_some_iff.mp hi).1
    rw [hi] at hg
    cases hg
    exact hkeeps
  · intro hall i
    constructor
    · rintro ⟨f, hf, _⟩
      exact (List.getElem?_eq_some_iff.mp hf).1
    · intro hi
      exact ⟨fields[i], List.getElem?_eq_getElem hi, hall _ (List.getElem_mem hi)⟩

/-- A fixed member more changes nothing. -/
theorem hasFields_cons {o : Origin} (ho : ∀ i, o ≠ .declared i) (origins : List Origin) (n : Nat) :
    HasFields (o :: origins) n ↔ HasFields origins n := by
  refine forall_congr' fun i => ?_
  rw [List.mem_cons, or_iff_right fun h => ho i h.symm]

theorem hasFields_concat {o : Origin} (ho : ∀ i, o ≠ .declared i) (origins : List Origin) (n : Nat) :
    HasFields (origins ++ [o]) n ↔ HasFields origins n := by
  refine forall_congr' fun i => ?_
  rw [List.mem_append, List.mem_singleton, or_iff_left fun h => ho i h.symm]

/-- An operation without fields has no struct, and none is missing. -/
theorem hasFields_ifAny_iff {μ : Type} {origin : μ → Origin} {emit : OpField → Nat → List μ}
    {keeps : FieldType → Bool} (h : Emits origin emit keeps) (fields : List OpField) :
    HasFields (((if fields ≠ [] then some (forFields emit fields) else none).getD []).map origin)
      fields.length ↔ ∀ f ∈ fields, keeps f.type = true := by
  by_cases hne : fields ≠ []
  · rw [if_pos hne, Option.getD_some, hasFields_forFields_iff h]
  · rw [not_not] at hne
    subst hne
    simp [HasFields]

theorem protoRequestField_emits :
    Emits ProtoField.origin protoRequestField fun t => t ∈ [.u32, .u64, .bytes, .string] := by
  intro f i j
  cases htype : f.type <;> simp [protoRequestField, htype]

theorem protoResponseField_emits :
    Emits ProtoField.origin protoResponseField fun t => t ∈ [.u32, .u64, .bytes] := by
  intro f i j
  cases htype : f.type <;> simp [protoResponseField, htype]

theorem kernelRequestMember_emits :
    Emits KernelMember.origin kernelRequestMember fun t => t ∈ [.u8, .u16, .u32, .u64, .bytes] := by
  intro f i j
  cases htype : f.type <;> simp [kernelRequestMember, FieldType.regSize?, htype]

theorem kernelResponseMember_emits :
    Emits KernelMember.origin kernelResponseMember fun t => t ∈ [.u8, .u16, .u32, .u64] := by
  intro f i j
  cases htype : f.type <;> simp [kernelResponseMember, FieldType.regSize?, htype]

theorem cppRequestMember_emits :
    Emits CppMember.origin cppRequestMember fun t => t ∈ [.u8, .u16, .u32, .u64, .bytes] := by
  intro f i j
  cases htype : f.type <;> simp [cppRequestMember, htype]

theorem cppResponseMember_emits :
    Emits CppMember.origin cppResponseMember fun t => t ∈ [.u8, .u16, .u32, .u64] := by
  intro f i j
  cases htype : f.type <;> simp [cppResponseMember, htype]

theorem pyRequestMember_emits : Emits PyMember.origin pyRequestMember fun _ => true := by
  intro f i j
  cases htype : f.type <;> simp [pyRequestMember, htype]

theorem pyResponseMember_emits :
    Emits PyMember.origin pyResponseMember fun t => t ∈ [.u8, .u16, .u32, .u64, .bytes] := by
  intro f i j
  cases htype : f.type <;> simp [pyResponseMember, htype]

/-- The four targets have the request fields of the descriptor, all of them and nothing else
but the fixed members; and so the response fields. -/
structure OperationDef.TargetsAgree (op : OperationDef) : Prop where
  protoRequest : HasFields (op.protoRequest.map (·.origin)) op.request.fields.length
  kernelRequest : HasFields ((op.kernelRequest.getD []).map (·.origin)) op.request.fields.length
  cppRequest : HasFields ((op.cppRequest.getD []).map (·.origin)) op.request.fields.length
  pyRequest : HasFields (op.pyRequest.map (·.origin)) op.request.fields.length
  protoResponse : HasFields (op.protoResponse.map (·.origin)) op.response.fields.length
  kernelResponse : HasFields ((op.kernelResponse.getD []).map (·.origin)) op.response.fields.length
  cppResponse : HasFields ((op.cppResponse.getD []).map (·.origin)) op.response.fields.length
  pyResponse : HasFields (op.pyResponse.map (·.origin)) op.response.fields.length

theorem protoRequest_hasFields_iff {op : OperationDef} :
    HasFields (op.protoRequest.map (·.origin)) op.request.fields.length ↔
      ∀ f ∈ op.request.fields, f.type ∈ [FieldType.u32, .u64, .bytes, .string] := by
  rw [OperationDef.protoRequest, List.map_append, List.map_cons, List.map_singleton,
    hasFields_concat (by simp), hasFields_cons (by simp),
    hasFields_forFields_iff protoRequestField_emits]
  simp only [decide_eq_true_eq]

theorem protoResponse_hasFields_iff {op : OperationDef} :
    HasFields (op.protoResponse.map (·.origin)) op.response.fields.length ↔
      ∀ f ∈ op.response.fields, f.type ∈ [FieldType.u32, .u64, .bytes] := by
  rw [OperationDef.protoResponse, List.map_cons, hasFields_cons (by simp),
    hasFields_forFields_iff protoResponseField_emits]
  simp only [decide_eq_true_eq]

theorem pyResponse_hasFields_iff {op : OperationDef} :
    HasFields (op.pyResponse.map (·.origin)) op.response.fields.length ↔
      ∀ f ∈ op.response.fields, f.type ∈ [FieldType.u8, .u16, .u32, .u64, .bytes] := by
  rw [OperationDef.pyResponse, List.map_cons, hasFields_cons (by simp),
    hasFields_forFields_iff pyResponseMember_emits]
  simp only [decide_eq_true_eq]

/-- For every operation of every descriptor, no target drops a field exactly when the request
fields are `u32`, `u64` and `bytes`, and the response fields `u32` and `u64`. -/
theorem targets_agree_iff {desc : HwipDescriptor} {op : OperationDef} (_ : op ∈ desc.operations) :
    op.TargetsAgree ↔
      (∀ f ∈ op.request.fields, f.type ∈ [FieldType.u32, .u64, .bytes]) ∧
      ∀ f ∈ op.response.fields, f.type ∈ [FieldType.u32, .u64] := by
  constructor
  · intro h
    have hproto := protoRequest_hasFields_iff.mp h.protoRequest
    have hkernel := (hasFields_ifAny_iff kernelRequestMember_emits _).mp h.kernelRequest
    have hproto' := protoResponse_hasFields_iff.mp h.protoResponse
    have hkernel' := (hasFields_ifAny_iff kernelResponseMember_emits _).mp h.kernelResponse
    constructor
    · intro f hf
      have h1 := hproto f hf
      have h2 := hkernel f hf
      cases htype : f.type <;> simp_all
    · intro f hf
      have h1 := hproto' f hf
      have h2 := hkernel' f hf
      cases htype : f.type <;> simp_all
  · rintro ⟨hreq, hresp⟩
    have hwider : ∀ (wider : List FieldType), [FieldType.u32, .u64, .bytes] ⊆ wider →
        ∀ f ∈ op.request.fields, decide (f.type ∈ wider) = true :=
      fun wider hsub f hf => decide_eq_true (hsub (hreq f hf))
    have hwider' : ∀ (wider : List FieldType), [FieldType.u32, .u64] ⊆ wider →
        ∀ f ∈ op.response.fields, decide (f.type ∈ wider) = true :=
      fun wider hsub f hf => decide_eq_true (hsub (hresp f hf))
    exact {
      protoRequest := protoRequest_hasFields_iff.mpr fun f hf =>
        of_decide_eq_true (hwider _ (by decide) f hf)
      kernelRequest := (hasFields_ifAny_iff kernelRequestMember_emits _).mpr
        (hwider _ (by decide))
      cppRequest := (hasFields_ifAny_iff cppRequestMember_emits _).mpr (hwider _ (by decide))
      pyRequest := (hasFields_forFields_iff pyRequestMember_emits _).mpr fun _ _ => rfl
      protoResponse := protoResponse_hasFields_iff.mpr fun f hf =>
        of_decide_eq_true (hwider' _ (by decide) f hf)
      kernelResponse := (hasFields_ifAny_iff kernelResponseMember_emits _).mpr
        (hwider' _ (by decide))
      cppResponse := (hasFields_ifAny_iff cppResponseMember_emits _).mpr (hwider' _ (by decide))
      pyResponse := pyResponse_hasFields_iff.mpr fun f hf =>
        of_decide_eq_true (hwider' _ (by decide) f hf) }

theorem targets_agree_echo : accelEcho.TargetsAgree := by
  have hmem : accelEcho ∈ accelDescriptor.operations := List.mem_cons_self ..
  refine (targets_agree_iff hmem).mpr ⟨?_, ?_⟩
  · exact List.forall_mem_cons.mpr ⟨by decide, List.forall_mem_singleton.mpr (by decide)⟩
  · exact List.forall_mem_cons.mpr ⟨by decide, List.forall_mem_singleton.mpr (by decide)⟩

/-- An operation with a `u8` request field and a `bytes` response field. -/
def readGaugeOp : OperationDef where
  name := "read_gauge"
  opcode := 0x0006
  protoEnumValue := 6
  request := ⟨.fixedArgs, [⟨"channel", .u8, none, none⟩]⟩
  response := ⟨[⟨"trace", .bytes, none, none⟩]⟩

def readGaugeDescriptor : HwipDescriptor where
  name := "gauges"
  name_ne := by decide
  operations := [readGaugeOp]

/-- The protobuf request has no channel and the C structs of the response have no trace, but
the Python models have both. -/
theorem targets_agree_gauge :
    readGaugeOp ∈ readGaugeDescriptor.operations ∧
    readGaugeOp.protoRequest.map (·.name) = ["device_id", "timeout_ms"] ∧
    readGaugeOp.pyRequest.map (·.name) = ["channel"] ∧
    readGaugeOp.kernelResponse = some [] ∧ readGaugeOp.cppResponse = some [] ∧
    readGaugeOp.pyResponse.map (·.name) = ["status", "trace"] ∧
    ¬readGaugeOp.TargetsAgree := by
  refine ⟨List.mem_cons_self .., rfl, rfl, rfl, rfl, rfl, ?_⟩
  intro h
  have hchannel := protoRequest_hasFields_iff.mp h.protoRequest _ (List.mem_cons_self ..)
  exact absurd hchannel (by decide)

/-! ## Field numbers -/

/-- An operation with fields appended to its request and its response. -/
structure OperationDef.Extends (op op' : OperationDef) : Prop where
  name : op'.name = op.name
  opcode : op'.opcode = op.opcode
  protoEnumValue : op'.protoEnumValue = op.protoEnumValue
  doc : op'.doc = op.doc
  encoding : op'.request.encoding = op.request.encoding
  request : op.request.fields <+: op'.request.fields
  response : op.response.fields <+: op'.response.fields

/-- A descriptor with fields appended to its operations, and operations appended to it. -/
structure HwipDescriptor.Extends (desc desc' : HwipDescriptor) : Prop where
  name : desc'.name = desc.name
  ns : desc'.ns = desc.ns
  platformRegisters : desc'.platformRegisters = desc.platformRegisters
  operations : ∃ grown more, desc'.operations = grown ++ more ∧
    List.Forall₂ OperationDef.Extends desc.operations grown

/-- A message on the wire: the values of its fields, each under its number. -/
def encodeMessage {ν : Type} (msg : List ProtoField) (vals : Origin → ν) : List (Nat × ν) :=
  msg.map fun field => (field.number, vals field.origin)

/-- What a receiver with the schema `msg` finds in a field; `none` is the default value. -/
def decodeField {ν : Type} (msg : List ProtoField) (wire : List (Nat × ν)) (o : Origin) : Option ν :=
  (msg.find? fun field => field.origin = o).bind fun field => wire.lookup field.number

/-- Every field of the old message has its number in the new one, the numbers in both are
pairwise distinct, and the new schema reads an old message as it was written. -/
structure NumbersKept (msg msg' : List ProtoField) : Prop where
  same : ∀ field ∈ msg, ∃ field' ∈ msg', field'.origin = field.origin ∧ field'.number = field.number
  distinct : (msg.map (·.number)).Nodup
  distinct' : (msg'.map (·.number)).Nodup
  decodes : ∀ {ν : Type} (vals : Origin → ν), ∀ field ∈ msg,
    decodeField msg' (encodeMessage msg vals) field.origin = some (vals field.origin)

/-- A loop body that emits at most one field, with the number of its position. -/
def EmitsNumbered (emit : OpField → Nat → List ProtoField) : Prop :=
  ∀ f i, emit f i = [] ∨ ∃ type, emit f i = [⟨.declared i, type, f.name, i + 2⟩]

theorem protoRequestField_numbered : EmitsNumbered protoRequestField := by
  intro f i
  cases htype : f.type <;> simp [protoRequestField, htype]

theorem protoResponseField_numbered : EmitsNumbered protoResponseField := by
  intro f i
  cases htype : f.type <;> simp [protoResponseField, htype]

theorem mem_forFields {μ : Type} {emit : OpField → Nat → List μ} {fields : List OpField} {m : μ} :
    m ∈ forFields emit fields ↔ ∃ i f, fields[i]? = some f ∧ m ∈ emit f i := by
  rw [forFields, List.mem_flatMap]
  constructor
  · rintro ⟨⟨f, i⟩, hmem, hm⟩
    exact ⟨i, f, List.mem_zipIdx_iff_getElem?.mp hmem, hm⟩
  · rintro ⟨i, f, hf, hm⟩
    exact ⟨(f, i), List.mem_zipIdx_iff_getElem?.mpr hf, hm⟩

/-- Appending fields leaves the ones before as they are. -/
theorem forFields_subset {μ : Type} {emit : OpField → Nat → List μ} {fields fields' : List OpField}
    (h : fields <+: fields') : forFields emit fields ⊆ forFields emit fields' := by
  obtain ⟨more, rfl⟩ := h
  intro m hm
  obtain ⟨i, f, hf, hm⟩ := mem_forFields.mp hm
  have hlt := (List.getElem?_eq_some_iff.mp hf).1
  exact mem_forFields.mpr ⟨i, f, by rw [List.getElem?_append_left hlt, hf], hm⟩

/-- The numbers that a loop gives, in order: those from 2 on, with gaps where it drops a
field. -/
theorem forFields_numbers {emit : OpField → Nat → List ProtoField} (h : EmitsNumbered emit)
    (fields : List OpField) :
    ((forFields emit fields).map (·.number)).Sublist (List.range' 2 fields.length) := by
  have hfrom : ∀ k, (((fields.zipIdx k).flatMap fun p => emit p.1 p.2).map (·.number)).Sublist
      (List.range' (k + 2) fields.length) := by
    induction fields with
    | nil => exact fun k => List.Sublist.refl []
    | cons f fields ih =>
      intro k
      rw [List.zipIdx_cons, List.flatMap_cons, List.map_append, List.length_cons, List.range'_succ]
      have htail := ih (k + 1)
      rw [show k + 1 + 2 = k + 2 + 1 by omega] at htail
      rcases h f k with hnone | ⟨type, hone⟩
      · rw [hnone]
        exact htail.cons _
      · rw [hone]
        exact htail.cons_cons _
  exact hfrom 0

theorem protoRequest_numbers (op : OperationDef) :
    (op.protoRequest.map (·.number)).Sublist (List.range' 1 (op.request.fields.length + 2)) := by
  have hrange : List.range' 1 (op.request.fields.length + 2) =
      1 :: List.range' 2 op.request.fields.length ++ [op.request.fields.length + 2] := by
    rw [List.range'_succ, List.range'_concat, List.cons_append, Nat.one_mul, Nat.add_comm 2]
  rw [hrange, OperationDef.protoRequest, List.map_append, List.map_cons]
  exact (((forFields_numbers protoRequestField_numbered _).cons_cons 1).append
    (List.Sublist.refl _))

theorem protoResponse_numbers (op : OperationDef) :
    (op.protoResponse.map (·.number)).Sublist (List.range' 1 (op.response.fields.length + 1)) := by
  rw [List.range'_succ, OperationDef.protoResponse, List.map_cons]
  exact (forFields_numbers protoResponseField_numbered _).cons_cons 1

/-- Within a message the numbers are pairwise distinct. -/
theorem protoRequest_nodup (op : OperationDef) : (op.protoRequest.map (·.number)).Nodup :=
  (protoRequest_numbers op).nodup (List.nodup_range' 1)

theorem protoResponse_nodup (op : OperationDef) : (op.protoResponse.map (·.number)).Nodup :=
  (protoResponse_numbers op).nodup (List.nodup_range' 1)

/-- The number of a field by what it is there for, in a message of `n` declared fields. -/
def numberOf (n : Nat) : Origin → Nat
  | .deviceId | .status => 1
  | .declared i => i + 2
  | .timeoutMs => n + 2
  | .lengthOf _ => 0

theorem forFields_numberOf {emit : OpField → Nat → List ProtoField} (h : EmitsNumbered emit)
    {fields : List OpField} (n : Nat) :
    ∀ field ∈ forFields emit fields, field.number = numberOf n field.origin := by
  intro field hfield
  obtain ⟨i, f, _, hmem⟩ := mem_forFields.mp hfield
  rcases h f i with hnone | ⟨type, hone⟩
  · rw [hnone] at hmem
    cases hmem
  · rw [hone, List.mem_singleton] at hmem
    subst hmem
    rfl

theorem protoRequest_numberOf (op : OperationDef) :
    ∀ field ∈ op.protoRequest, field.number = numberOf op.request.fields.length field.origin := by
  intro field hfield
  rcases List.mem_append.mp hfield with hfield | hlast
  · rcases List.mem_cons.mp hfield with rfl | hloop
    · rfl
    · exact forFields_numberOf protoRequestField_numbered _ field hloop
  · rw [List.mem_singleton] at hlast
    subst hlast
    rfl

theorem protoResponse_numberOf (op : OperationDef) :
    ∀ field ∈ op.protoResponse, field.number = numberOf 0 field.origin := by
  intro field hfield
  rcases List.mem_cons.mp hfield with rfl | hloop
  · rfl
  · exact forFields_numberOf protoResponseField_numbered _ field hloop

/-- A new message that has every field of the old one, where the number of a field follows
from what it is there for, keeps the numbers. -/
theorem numbersKept_of_subset {msg msg' : List ProtoField} {number : Origin → Nat}
    (hsub : msg ⊆ msg') (hdistinct : (msg.map (·.number)).Nodup)
    (hdistinct' : (msg'.map (·.number)).Nodup)
    (hnumber : ∀ field ∈ msg', field.number = number field.origin) : NumbersKept msg msg' where
  same field hfield := ⟨field, hsub hfield, rfl, rfl⟩
  distinct := hdistinct
  distinct' := hdistinct'
  decodes := by
    intro ν vals field hfield
    -- the receiver may find another member of the same origin, but none of another number
    have hfound : (msg'.find? fun field' => field'.origin = field.origin).isSome = true :=
      List.find?_isSome.mpr ⟨field, hsub hfield, decide_eq_true rfl⟩
    obtain ⟨field', hfield'⟩ := Option.isSome_iff_exists.mp hfound
    have horigin : field'.origin = field.origin := by
      simpa using List.find?_some hfield'
    have hsame : field'.number = field.number := by
      rw [hnumber field' (List.mem_of_find?_eq_some hfield'), horigin,
        hnumber field (hsub hfield)]
    rw [decodeField, hfield', Option.bind_some, hsame]
    refine lookup_of_mem_nodup ?_ (List.mem_map.mpr ⟨field, hfield, rfl⟩)
    rw [encodeMessage, List.map_map]
    exact hdistinct

/-- Whatever is appended, every request field but `timeout_ms` stays as it is. -/
theorem protoRequest_stable {op op' : OperationDef} (h : op.Extends op') {field : ProtoField}
    (hfield : field ∈ op.protoRequest) (hne : field.origin ≠ .timeoutMs) :
    field ∈ op'.protoRequest := by
  rcases List.mem_append.mp hfield with hfield | hlast
  · rcases List.mem_cons.mp hfield with rfl | hloop
    · exact List.mem_append_left _ (List.mem_cons_self ..)
    · exact List.mem_append_left _ (List.mem_cons_of_mem _ (forFields_subset h.request hloop))
  · rw [List.mem_singleton] at hlast
    subst hlast
    exact absurd rfl hne

theorem protoResponse_kept {op op' : OperationDef} (h : op.Extends op') :
    NumbersKept op.protoResponse op'.protoResponse :=
  numbersKept_of_subset (List.cons_subset_cons _ (forFields_subset h.response))
    (protoResponse_nodup op)
    (protoResponse_nodup op') (protoResponse_numberOf op')

/-- The request keeps its numbers exactly when nothing is appended to it. -/
theorem protoRequest_kept_iff {op op' : OperationDef} (h : op.Extends op') :
    NumbersKept op.protoRequest op'.protoRequest ↔ op'.request.fields = op.request.fields := by
  constructor
  · intro hkept
    obtain ⟨field', hfield', horigin, hnumber⟩ :=
      hkept.same _ (List.mem_append_right _ (List.mem_singleton.mpr rfl))
    rw [protoRequest_numberOf op' field' hfield', horigin] at hnumber
    have hlen : op'.request.fields.length = op.request.fields.length := Nat.add_right_cancel hnumber
    exact (h.request.eq_of_length hlen.symm).symm
  · intro hsame
    refine numbersKept_of_subset ?_ (protoRequest_nodup op)
      (protoRequest_nodup op') (protoRequest_numberOf op')
    intro field hfield
    by_cases htimeout : field.origin = .timeoutMs
    · rw [OperationDef.protoRequest, hsame]
      exact hfield
    · exact protoRequest_stable h hfield htimeout

/-- When a descriptor grows at the end, its messages keep all their field numbers, and are
read as they were written, exactly when no request of the old operations has grown. -/
theorem proto_numbers_kept_iff {desc desc' : HwipDescriptor} (h : desc.Extends desc') :
    (∀ (k : Nat) (op op' : OperationDef),
      desc.operations[k]? = some op → desc'.operations[k]? = some op' →
      NumbersKept op.protoRequest op'.protoRequest ∧
        NumbersKept op.protoResponse op'.protoResponse) ↔
    ∀ (k : Nat) (op op' : OperationDef),
      desc.operations[k]? = some op → desc'.operations[k]? = some op' →
      op'.request.fields = op.request.fields := by
  obtain ⟨grown, more, hops, hgrown⟩ := h.operations
  have hextends : ∀ {k : Nat} {op op' : OperationDef},
      desc.operations[k]? = some op → desc'.operations[k]? = some op' → op.Extends op' := by
    intro k op op' hop hop'
    obtain ⟨hlt, rfl⟩ := List.getElem?_eq_some_iff.mp hop
    have hlt' : k < grown.length := hgrown.length_eq ▸ hlt
    rw [hops, List.getElem?_append_left hlt', List.getElem?_eq_getElem hlt'] at hop'
    cases hop'
    exact hgrown.get hlt hlt'
  constructor
  · intro hkept k op op' hop hop'
    exact (protoRequest_kept_iff (hextends hop hop')).mp (hkept k op op' hop hop').1
  · intro hsame k op op' hop hop'
    exact ⟨(protoRequest_kept_iff (hextends hop hop')).mpr (hsame k op op' hop hop'),
      protoResponse_kept (hextends hop hop')⟩

/-- The gauge's response with a second field. -/
def readGaugeOpUnit : OperationDef :=
  { readGaugeOp with
    response := ⟨readGaugeOp.response.fields ++ [⟨"unit", .u32, none, none⟩]⟩ }

def readGaugeDescriptorUnit : HwipDescriptor :=
  { readGaugeDescriptor with operations := [readGaugeOpUnit, crc32GetPoly] }

/-- A response field and an operation more: all numbers are kept. -/
theorem proto_numbers_kept_gauge :
    NumbersKept readGaugeOp.protoRequest readGaugeOpUnit.protoRequest ∧
      NumbersKept readGaugeOp.protoResponse readGaugeOpUnit.protoResponse := by
  have hop : readGaugeOp.Extends readGaugeOpUnit :=
    ⟨rfl, rfl, rfl, rfl, rfl, List.prefix_refl _, List.prefix_append ..⟩
  have hextends : readGaugeDescriptor.Extends readGaugeDescriptorUnit :=
    ⟨rfl, rfl, rfl, [readGaugeOpUnit], [crc32GetPoly], rfl, .cons hop .nil⟩
  refine (proto_numbers_kept_iff hextends).mpr (fun k op op' hk hk' => ?_) 0 _ _ rfl rfl
  match k with
  | 0 =>
    cases hk
    cases hk'
    rfl
  | k + 1 => cases hk

/-- The gauge's request with a second field. -/
def readGaugeOpScale : OperationDef :=
  { readGaugeOp with
    request := ⟨.fixedArgs, readGaugeOp.request.fields ++ [⟨"scale", .u32, none, none⟩]⟩ }

def readGaugeDescriptorScale : HwipDescriptor :=
  { readGaugeDescriptor with operations := [readGaugeOpScale] }

/-- With a request field more, `timeout_ms` moves from 3 to 4, and 3 is the number of the new
field: a timeout of 250 that an old client sends arrives as the scale, and no timeout does. -/
theorem proto_numbers_shift :
    readGaugeDescriptor.Extends readGaugeDescriptorScale ∧
    (readGaugeOp.protoRequest.map fun field => (field.name, field.number)) =
      [("device_id", 1), ("timeout_ms", 3)] ∧
    (readGaugeOpScale.protoRequest.map fun field => (field.name, field.number)) =
      [("device_id", 1), ("scale", 3), ("timeout_ms", 4)] ∧
    decodeField readGaugeOpScale.protoRequest (encodeMessage readGaugeOp.protoRequest
      fun _ => 250) (.declared 1) = some 250 ∧
    decodeField readGaugeOpScale.protoRequest (encodeMessage readGaugeOp.protoRequest
      fun _ => 250) .timeoutMs = none ∧
    ¬NumbersKept readGaugeOp.protoRequest readGaugeOpScale.protoRequest := by
  have hop : readGaugeOp.Extends readGaugeOpScale :=
    ⟨rfl, rfl, rfl, rfl, rfl, List.prefix_append .., List.prefix_refl _⟩
  refine ⟨⟨rfl, rfl, rfl, [readGaugeOpScale], [], rfl, .cons hop .nil⟩, rfl, rfl, rfl, rfl, ?_⟩
  rw [protoRequest_kept_iff hop]
  intro hsame
  cases hsame

end Deepspan
