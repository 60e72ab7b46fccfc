import Mathlib.Data.List.Forall2
import Mathlib.Data.List.Nodup

/-!
# HWIP descriptors

`schema.py`: what `load_descriptor` accepts. The types carry the constraints that
the pydantic models check (`ge`, `lt`, `min_length`, the `Literal`s), so that every
value of `HwipDescriptor` is an accepted descriptor. What no template prints is left out:
the widths and the documentation of bit fields, and the documentation of fields.
-/

namespace Deepspan

/-- `RegisterDef.size`. -/
inductive RegSize where
  | s8
  | s16
  | s32
  | s64
deriving DecidableEq, Repr

def RegSize.bits : RegSize → Nat
  | .s8 => 8
  | .s16 => 16
  | .s32 => 32
  | .s64 => 64

/-- `RegisterDef.access`. -/
inductive RegAccess where
  | ro
  | rw
  | wo
  | w1c
deriving DecidableEq, Repr

structure BitField where
  name : String
  pos : Fin 32
deriving DecidableEq, Repr

structure RegisterDef where
  name : String
  offset : Nat
  size : RegSize := .s32
  access : RegAccess := .rw
  bits : List BitField := []
  doc : String := ""
deriving DecidableEq, Repr

structure PlatformRegisters where
  totalSize : Nat := 0x200
  controlBank : List RegisterDef := []
  commandBank : List RegisterDef := []
  resultBank : List RegisterDef := []
deriving DecidableEq, Repr

/-- `all_registers`. -/
def PlatformRegisters.allRegisters (pr : PlatformRegisters) : List RegisterDef :=
  pr.controlBank ++ pr.commandBank ++ pr.resultBank

/-- `OpField.type`. -/
inductive FieldType where
  | u8
  | u16
  | u32
  | u64
  | bytes
  | string
deriving DecidableEq, Repr

structure OpField where
  name : String
  type : FieldType := .u32
  maxBytes : Option Int := none
  mapsTo : Option String := none
deriving DecidableEq, Repr

/-- `f.max_bytes or 4096`. -/
def OpField.maxLength (f : OpField) : Int :=
  match f.maxBytes with
  | none => 4096
  | some n => if n = 0 then 4096 else n

/-- `OpRequest.encoding`. -/
inductive Encoding where
  | fixedArgs
  | dmaBytes
  | none
deriving DecidableEq, Repr

structure OpRequest where
  encoding : Encoding := .fixedArgs
  fields : List OpField := []
deriving DecidableEq, Repr

structure OpResponse where
  fields : List OpField := []
deriving DecidableEq, Repr

structure OperationDef where
  name : String
  opcode : Int
  protoEnumValue : Int
  doc : String := ""
  request : OpRequest := {}
  response : OpResponse := {}
deriving DecidableEq, Repr

structure HwipDescriptor where
  name : String
  name_ne : name ≠ ""
  /-- `namespace`, as the descriptor has it. -/
  ns : String := ""
  platformRegisters : PlatformRegisters := {}
  operations : List OperationDef := []

/-- `namespace`, after `_default_namespace`. -/
def HwipDescriptor.namespaceOrDefault (desc : HwipDescriptor) : String :=
  if desc.ns = "" then "deepspan_" ++ desc.name else desc.ns

def HwipDescriptor.allRegisters (desc : HwipDescriptor) : List RegisterDef :=
  desc.platformRegisters.allRegisters

/-- The `name -> byte offset` entries of `result_data_offsets`, in insertion order:
the registers of the result bank, without `result_status`, one after another. -/
def resultDataEntries : Nat → List RegisterDef → List (String × Nat)
  | _, [] => []
  | offset, reg :: regs =>
    if reg.name ≠ "result_status" then
      (reg.name, offset) :: resultDataEntries (offset + reg.size.bits / 8) regs
    else resultDataEntries offset regs

/-- `result_data_offsets()[name]`: of several registers of one name the dict keeps
the last. -/
def PlatformRegisters.resultDataOffset? (pr : PlatformRegisters) (name : String) : Option Nat :=
  (resultDataEntries 0 pr.resultBank).reverse.lookup name

/-- An entry of a table without duplicate keys is found. -/
theorem lookup_of_mem_nodup {α β : Type} [BEq α] [LawfulBEq α] {entries : List (α × β)} {key : α}
    {value : β} (hnodup : (entries.map Prod.fst).Nodup) (hmem : (key, value) ∈ entries) :
    entries.lookup key = some value := by
  obtain ⟨before, after, rfl⟩ := List.append_of_mem hmem
  refine List.lookup_eq_some_iff.mpr ⟨before, after, rfl, fun p hp => ?_⟩
  rw [List.map_append, List.map_cons, List.nodup_append] at hnodup
  rw [bne_iff_ne]
  exact (hnodup.2.2 p.1 (List.mem_map_of_mem hp) key (List.mem_cons_self ..)).symm

/-- Things are told apart by `f` if they are by what can be read off it. -/
theorem nodup_map_of_comp {α β γ : Type} {f : α → β} (g : β → γ) {k : α → γ} {l : List α}
    (heq : ∀ a ∈ l, g (f a) = k a) (h : (l.map k).Nodup) : (l.map f).Nodup := by
  have hmap : (l.map f).map g = l.map k := by
    rw [List.map_map]
    exact List.map_congr_left heq
  rw [← hmap] at h
  exact h.of_map

theorem mapM_eq_some_iff {α β : Type} {f : α → Option β} {l : List α} {l' : List β} :
    l.mapM f = some l' ↔ List.Forall₂ (fun a b => f a = some b) l l' := by
  induction l generalizing l' with
  | nil => simp [eq_comm]
  | cons a l ih =>
    simp only [List.mapM_cons, Option.pure_def, Option.bind_eq_bind, Option.bind_eq_some_iff,
      Option.some.injEq, List.forall₂_cons_left_iff, ih]
    constructor
    · rintro ⟨b, hb, bs, hbs, rfl⟩
      exact ⟨b, bs, hb, hbs, rfl⟩
    · rintro ⟨b, bs, hb, hbs, rfl⟩
      exact ⟨b, hb, bs, hbs, rfl⟩

/-- The values of a function that has one everywhere. -/
theorem mapM_eq_map {α β : Type} {f : α → Option β} {g : α → β} {l : List α}
    (h : ∀ a ∈ l, f a = some (g a)) : l.mapM f = some (l.map g) := by
  rw [mapM_eq_some_iff, List.forall₂_map_right_iff, List.forall₂_same]
  exact h

theorem mapM_isSome_iff {α β : Type} {f : α → Option β} {l : List α} :
    (l.mapM f).isSome = true ↔ ∀ a ∈ l, (f a).isSome = true := by
  induction l with
  | nil => simp
  | cons a l ih =>
    rw [List.forall_mem_cons, ← ih, List.mapM_cons]
    cases f a <;> cases l.mapM f <;> simp

/-! ## The descriptor of the CRC-32 engine -/

/-- The control bank that both `hwip.yaml` files declare. They differ in the capabilities. -/
def hwipControlBank (capabilities : List BitField) : List RegisterDef :=
  [⟨"ctrl", 0x000, .s32, .rw, [⟨"RESET", 0⟩, ⟨"START", 1⟩, ⟨"IRQ_CLR", 2⟩], "Control register"⟩,
    ⟨"status", 0x004, .s32, .ro, [⟨"READY", 0⟩, ⟨"BUSY", 1⟩, ⟨"ERROR", 2⟩], "Status register"⟩,
    ⟨"irq_status", 0x008, .s32, .w1c, [⟨"DONE", 0⟩], "IRQ status (write-1-to-clear)"⟩,
    ⟨"irq_enable", 0x00C, .s32, .rw, [⟨"DONE", 0⟩], "IRQ enable mask"⟩,
    ⟨"version", 0x010, .s32, .ro, [], "Hardware version register (major<<16 | minor)"⟩,
    ⟨"capabilities", 0x014, .s32, .ro, capabilities, "Hardware capability flags"⟩]

/-- `operations[0]` of `hwip/crc32/hwip.yaml`. -/
def crc32Compute : OperationDef where
  name := "compute"
  opcode := 0x0001
  protoEnumValue := 1
  doc := "Compute CRC32 over byte stream (IEEE 802.3 poly 0xEDB88320)"
  request := ⟨.dmaBytes, [⟨"data", .bytes, some 3072, none⟩]⟩
  response := ⟨[⟨"checksum", .u32, none, some "result_data0"⟩]⟩

/-- `operations[1]`. -/
def crc32GetPoly : OperationDef where
  name := "get_poly"
  opcode := 0x0002
  protoEnumValue := 2
  doc := "Return current CRC polynomial (default: 0xEDB88320 = IEEE 802.3)"
  request := ⟨.fixedArgs, []⟩
  response := ⟨[⟨"polynomial", .u32, none, some "result_data0"⟩]⟩

/-- `hwip/crc32/hwip.yaml`. -/
def crc32Descriptor : HwipDescriptor where
  name := "crc32"
  name_ne := by decide
  ns := "deepspan_crc32"
  platformRegisters :=
    { controlBank := hwipControlBank [⟨"DMA", 0⟩, ⟨"IRQ", 1⟩]
      commandBank :=
        [⟨"cmd_opcode", 0x100, .s32, .wo, [], "Command opcode register"⟩,
          ⟨"cmd_arg0", 0x104, .s32, .wo, [], "compute: data length in bytes; get_poly: unused"⟩,
          ⟨"cmd_arg1", 0x108, .s32, .wo, [], "Reserved"⟩,
          ⟨"cmd_flags", 0x10C, .s32, .wo, [], "Command flags"⟩]
      resultBank :=
        [⟨"result_status", 0x110, .s32, .ro, [], "Result status code"⟩,
          ⟨"result_data0", 0x114, .s32, .ro, [],
            "CRC32 checksum (compute) or polynomial value (get_poly)"⟩,
          ⟨"result_data1", 0x118, .s32, .ro, [], "Reserved"⟩] }
  operations := [crc32Compute, crc32GetPoly]

/-! ## The descriptor of the accelerator -/

/-- `operations[0]` of `hwip/accel/hwip.yaml`. -/
def accelEcho : OperationDef where
  name := "echo"
  opcode := 0x0001
  protoEnumValue := 1
  doc := "Echo arg0/arg1 back as result — latency test"
  request := ⟨.fixedArgs, [⟨"arg0", .u32, none, none⟩, ⟨"arg1", .u32, none, none⟩]⟩
  response := ⟨[⟨"data0", .u32, none, some "result_data0"⟩, ⟨"data1", .u32, none, some "result_data1"⟩]⟩

/-- `operations[1]`. -/
def accelProcess : OperationDef where
  name := "process"
  opcode := 0x0002
  protoEnumValue := 2
  doc := "Run data processing pipeline"
  request := ⟨.dmaBytes, [⟨"data", .bytes, some 4096, none⟩]⟩
  response := ⟨[⟨"result", .bytes, none, none⟩]⟩

/-- `operations[2]`. -/
def accelStatus : OperationDef where
  name := "status"
  opcode := 0x0003
  protoEnumValue := 3
  doc := "Return device status word"
  request := ⟨.fixedArgs, []⟩
  response := ⟨[⟨"status_word", .u32, none, some "result_data0"⟩]⟩

/-- `hwip/accel/hwip.yaml`. -/
def accelDescriptor : HwipDescriptor where
  name := "accel"
  name_ne := by decide
  ns := "deepspan_accel"
  platformRegisters :=
    { controlBank := hwipControlBank [⟨"DMA", 0⟩, ⟨"IRQ", 1⟩, ⟨"MULTI", 2⟩]
      commandBank :=
        [⟨"cmd_opcode", 0x100, .s32, .wo, [], "Command opcode register"⟩,
          ⟨"cmd_arg0", 0x104, .s32, .wo, [], "Command argument 0"⟩,
          ⟨"cmd_arg1", 0x108, .s32, .wo, [], "Command argument 1"⟩,
          ⟨"cmd_flags", 0x10C, .s32, .wo, [], "Command flags (DMA mode, IRQ enable, etc.)"⟩]
      resultBank :=
        [⟨"result_status", 0x110, .s32, .ro, [], "Result status code"⟩,
          ⟨"result_data0", 0x114, .s32, .ro, [], "Result data word 0"⟩,
          ⟨"result_data1", 0x118, .s32, .ro, [], "Result data word 1"⟩] }
  operations := [accelEcho, accelProcess, accelStatus]

end Deepspan
