import Mathlib.Algebra.Group.Int.Defs
import Deepspan.Codegen.Schema
import Deepspan.Submit.Handlers

/-!
# The generated Python client

`python_sdk.py.j2`: what the method that the template generates for an operation
does, as a function of the descriptor. A call validates its arguments
(`OperationDef.validRequest`), chooses a payload (`OperationDef.payload`), hands
both to `DeepspanClient.submit_request`, and decodes the words it gets back
(`OperationDef.response?`). A `none` is an exception, at generation time or at
run time. Names are taken to be the identifiers Python needs.

The template has a payload for `fixed_args` only, so a `dma_bytes` operation
submits no bytes. `client_payload_iff` says when that is right, for every
descriptor, and what it means for the checksum of `Crc32Client.compute` behind
`SubmitRequest`, the plugin and the hw-model; `client_payload_dropped` is an
instance where it is wrong.
-/

namespace Deepspan

open Transition

/-- A value of a request or response field. -/
inductive FieldValue where
  | int (n : Int)
  | bytes (data : List UInt8)
  | str (s : String)
deriving DecidableEq, Repr

/-- `2**n`, the bound of an integer field. -/
def FieldType.bound? : FieldType → Option Int
  | .u8 => some (2 ^ 8)
  | .u16 => some (2 ^ 16)
  | .u32 => some (2 ^ 32)
  | .u64 => some (2 ^ 64)
  | .bytes | .string => none

/-- The `Field(...)` of the request model. -/
def OpField.accepts (f : OpField) : FieldValue → Bool
  | .int n => (f.type.bound?).any fun b => 0 ≤ n && n < b
  | .bytes data => f.type == .bytes && (data.length : Int) ≤ f.maxLength
  | .str _ => f.type == .string

/-- The request model accepts the arguments, one for each field. -/
def OperationDef.validRequest (op : OperationDef) (args : List FieldValue) : Bool :=
  op.request.fields.length == args.length &&
    (op.request.fields.zip args).all fun p => p.1.accepts p.2

/-- `encode_payload`: `struct.pack("<I...")` over the `u32` fields. -/
def encodePayload : List OpField → List FieldValue → List UInt8
  | f :: fields, .int n :: args =>
    (if f.type = .u32 then le32 (UInt32.ofInt n) else []) ++ encodePayload fields args
  | _ :: fields, _ :: args => encodePayload fields args
  | _, _ => []

/-- The `payload` of the client method. -/
def OperationDef.payload (op : OperationDef) (args : List FieldValue) : List UInt8 :=
  if op.request.encoding = .fixedArgs ∧ op.request.fields ≠ [] then
    encodePayload op.request.fields args
  else []

/-- The opcode and the payload that the client method passes to
`submit_request`. -/
def OperationDef.submission? (op : OperationDef) (args : List FieldValue) :
    Option (Int × List UInt8) :=
  if op.validRequest args then some (op.opcode, op.payload args) else none

/-- `DeepspanClient.submit_request`: the request on the wire. The `opcode` of the
proto message is a `uint32`; protobuf refuses other values. -/
def submitRequestCall (deviceId : String) (opcode : Int) (data : List UInt8) : Option Call :=
  if 0 ≤ opcode ∧ opcode < 2 ^ 32 then some ⟨deviceId, UInt32.ofInt opcode, data⟩ else none

/-- `struct.unpack_from("<I", _d, off)[0] if len(_d) >= off + 4 else 0`. -/
def unpackWord (d : List UInt8) (off : Nat) : Int :=
  if off + 4 ≤ d.length then (((readLe32 (d.drop off)).getD 0).toNat : Int) else 0

/-- `f.maps_to` where the template tests it: an empty name counts as none. -/
def OpField.register? (f : OpField) : Option String :=
  f.mapsTo.filter fun name => name ≠ ""

/-- The value that the client method gives a response field, if it sets the field
at all. An unknown register makes the generator fail (`StrictUndefined`). -/
def OpField.decode? (pr : PlatformRegisters) (f : OpField) (d : List UInt8) :
    Option (Option FieldValue) :=
  match f.register?, f.type with
  | some reg, .u8 | some reg, .u16 | some reg, .u32 | some reg, .u64 =>
    (pr.resultDataOffset? reg).map fun off => some (.int (unpackWord d off))
  | _, .bytes => some (some (.bytes d))
  | _, _ => some none

/-- The response object: the fields that the client method sets. -/
def OperationDef.response? (desc : HwipDescriptor) (op : OperationDef) (raw : List UInt8) :
    Option (List (String × FieldValue)) :=
  (op.response.fields.mapM fun (f : OpField) =>
    (f.decode? desc.platformRegisters raw).map fun v => v.map fun v => (f.name, v)).map
      (List.filterMap id)

/-! ## Payloads -/

/-- An argument of a `u32` field survives the conversion. -/
theorem toNat_ofInt {n : Int} (h0 : 0 ≤ n) (h : n < 2 ^ 32) : ((UInt32.ofInt n).toNat : Int) = n := by
  rw [UInt32.ofInt, UInt32.toNat_ofNat', Int.emod_eq_of_lt h0 h]
  omega

/-- A `dma_bytes` operation submits no bytes, whatever its fields hold. -/
theorem payload_dmaBytes {op : OperationDef} (h : op.request.encoding = .dmaBytes)
    (args : List FieldValue) : op.payload args = [] := by
  rw [OperationDef.payload, if_neg]
  rintro ⟨hfixed, _⟩
  rw [h] at hfixed
  cases hfixed

/-- So it submits the value of its field only when that is empty. -/
theorem submission_dmaBytes_iff {op : OperationDef} {field : OpField} {value : List UInt8}
    (henc : op.request.encoding = .dmaBytes) (hfields : op.request.fields = [field])
    (hvalue : field.accepts (.bytes value) = true) :
    op.submission? [.bytes value] = some (op.opcode, value) ↔ value = [] := by
  have hvalid : op.validRequest [.bytes value] = true := by
    simp only [OperationDef.validRequest, hfields, List.length_singleton, beq_self_eq_true,
      List.zip_cons_cons, List.zip_nil_right, List.all_cons, List.all_nil, hvalue, Bool.and_self]
  rw [OperationDef.submission?, if_pos hvalid, payload_dmaBytes henc, Option.some.injEq,
    Prod.mk.injEq]
  constructor
  · intro h
    exact h.2.symm
  · intro h
    exact ⟨rfl, h.symm⟩

/-! ## The checksum of `Crc32Client.compute` -/

/-- `Crc32Client.compute(data)` puts a request on the wire, and whatever run of
the server and the hw-model answers it OK, the response object has the CRC-32 of
`data` as its checksum. -/
def ClientChecksumRight (autoIrq : Bool) (deviceId : String) (data : List UInt8) : Prop :=
  ∃ opcode payload call, crc32Compute.submission? [.bytes data] = some (opcode, payload) ∧
    submitRequestCall deviceId opcode payload = some call ∧
    ∀ (s : SubmitState) (i : Nat) (sub : Sub) (hash : String → UInt64) (reply : RpcReply),
      Reach (submitSystem .crc32 ⟨autoIrq, crc32Handler true⟩) Undisturbed s →
      s.subs[i]? = some sub → sub.call = call →
      submitRequestReply hash .crc32 sub = some reply → reply.code = .ok →
      crc32Compute.response? crc32Descriptor reply.result =
        some [("checksum", .int (crc32Ieee data).toNat)]

/-- The response to the eight bytes of a plugin: the first word. -/
theorem crc32Compute_response (r0 r1 : UInt32) :
    crc32Compute.response? crc32Descriptor (le32 r0 ++ le32 r1) =
      some [("checksum", .int r0.toNat)] := by
  have hword : unpackWord (le32 r0 ++ le32 r1) 0 = r0.toNat := by
    rw [unpackWord, if_pos (by simp), List.drop_zero, readLe32_le32_append, Option.getD_some]
  have hdecode : OpField.decode? crc32Descriptor.platformRegisters
      ⟨"checksum", .u32, none, some "result_data0"⟩ (le32 r0 ++ le32 r1) =
        some (some (.int (unpackWord (le32 r0 ++ le32 r1) 0))) := by
    rfl
  show ((do
    let v ← (OpField.decode? crc32Descriptor.platformRegisters
      ⟨"checksum", .u32, none, some "result_data0"⟩ (le32 r0 ++ le32 r1)).map
        fun v => v.map fun v => ("checksum", v)
    pure [v]) : Option _).map (List.filterMap id) = _
  rw [hdecode, hword]
  rfl

/-- The request of `compute`: COMPUTE with an empty payload. -/
theorem crc32Compute_submission {data : List UInt8} (h : data.length ≤ 3072) :
    crc32Compute.submission? [.bytes data] = some (0x0001, []) := by
  have hlen : (data.length : Int) ≤ 3072 := by omega
  have hvalid : crc32Compute.validRequest [.bytes data] = true := by
    simp [OperationDef.validRequest, crc32Compute, OpField.accepts, OpField.maxLength, hlen]
  rw [OperationDef.submission?, if_pos hvalid, payload_dmaBytes rfl]
  rfl

/-- In every run the answer to `compute` is the CRC-32 of nothing. -/
theorem clientChecksumRight_iff (autoIrq : Bool) (deviceId : String) {data : List UInt8}
    (h : data.length ≤ 3072) :
    ClientChecksumRight autoIrq deviceId data ↔ crc32Ieee data = 0 := by
  have hcall : submitRequestCall deviceId 0x0001 [] =
      some ⟨deviceId, Crc32Op.compute, []⟩ := by
    rfl
  constructor
  · rintro ⟨opcode, payload, call, hsub, hwire, hruns⟩
    rw [crc32Compute_submission h] at hsub
    cases hsub
    rw [hcall] at hwire
    cases hwire
    obtain ⟨s, hreach, hi⟩ := firstCompute_returns autoIrq deviceId []
    have hresp := hruns s 0 _ (fun _ => 0) _ hreach hi rfl rfl rfl
    rw [List.take_nil, crc32Ieee_nil, crc32Compute_response] at hresp
    have hint : ((0 : UInt32).toNat : Int) = (crc32Ieee data).toNat := by
      simpa using hresp
    exact UInt32.toNat_inj.mp (by exact_mod_cast hint.symm)
  · intro hzero
    refine ⟨_, _, _, crc32Compute_submission h, hcall, ?_⟩
    intro s i sub hash reply hreach hi hsub hreply hok
    obtain ⟨r0, r1, hpc, hres⟩ := submitRequestReply_ok hreply hok
    have hr0 := compute_result hreach hi (by rw [hsub]) hpc
    rw [hsub, List.take_nil, crc32Ieee_nil] at hr0
    rw [hres, crc32Compute_response, hr0, hzero]

/-- For every descriptor and every `dma_bytes` operation of one `bytes` field, the
client submits the value of the field exactly when it is empty; and the checksum
that `Crc32Client.compute` returns is right exactly for the data whose CRC-32 is
that of the empty data. -/
theorem client_payload_iff {desc : HwipDescriptor} {op : OperationDef} {field : OpField}
    {value : List UInt8} (_ : op ∈ desc.operations) (henc : op.request.encoding = .dmaBytes)
    (hfields : op.request.fields = [field]) (hvalue : field.accepts (.bytes value) = true)
    (autoIrq : Bool) (deviceId : String) {data : List UInt8} (hdata : data.length ≤ 3072) :
    (op.submission? [.bytes value] = some (op.opcode, value) ↔ value = []) ∧
    (ClientChecksumRight autoIrq deviceId data ↔ crc32Ieee data = 0) :=
  ⟨submission_dmaBytes_iff henc hfields hvalue, clientChecksumRight_iff autoIrq deviceId hdata⟩

theorem client_payload_iff_empty :
    crc32Compute.submission? [.bytes []] = some (crc32Compute.opcode, []) ∧
      ClientChecksumRight true "crc32/0" [] := by
  have hmem : crc32Compute ∈ crc32Descriptor.operations := List.mem_cons_self ..
  obtain ⟨hpayload, hchecksum⟩ := @client_payload_iff crc32Descriptor crc32Compute
    ⟨"data", .bytes, some 3072, none⟩ [] hmem rfl rfl (by decide) true "crc32/0" [] (by decide)
  exact ⟨hpayload.mpr rfl, hchecksum.mpr crc32Ieee_nil⟩

/-- `Crc32Client.compute(b"1")`: the byte is not submitted and the checksum is 0. -/
theorem client_payload_dropped :
    crc32Compute.submission? [.bytes [0x31]] ≠ some (crc32Compute.opcode, [0x31]) ∧
      ¬ClientChecksumRight true "crc32/0" [0x31] := by
  refine ⟨by decide, ?_⟩
  intro h
  have hzero := (clientChecksumRight_iff true "crc32/0" (by decide)).mp h
  rw [crc32Ieee_eq_foldl] at hzero
  simp only [List.foldl_cons, List.foldl_nil, crcUpdate_eq] at hzero
  exact absurd hzero (by decide +kernel)

end Deepspan
