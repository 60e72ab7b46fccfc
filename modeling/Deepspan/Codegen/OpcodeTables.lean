import Mathlib.Data.Set.Function
import Deepspan.Lib.PySyntax
import Deepspan.Codegen.ValidatorsRight

/-!
# The opcode tables of a descriptor

`cpp_opcodes.hpp.j2` writes the enumerations `Op` and `Reg` and two functions over them:
`proto_op_to_hw_op`, which takes a number of the proto enum to the opcode of the operation,
and `validate_opcode`. The kernel header has the same constants as macros, over which the
firmware header has its validator, and the Python module has the opcodes once more.

None of these has a meaning for every descriptor that `load_descriptor` accepts. The schema
bounds neither opcodes nor proto numbers nor the offsets from above, keeps no two operations
apart, and allows for none at all, while a `switch` needs labels that differ and a `case` a
label. `opcode_tables_iff` says for which descriptors the tables are consistent.

A header is read from what the template's expressions print; what no compiler accepts is
`none`. Behind a constant of an enumeration stands its documentation, which the schema takes
as it is: one that ends in a backslash takes the next constant with it, and a second line is
code. So the lines of the constants are read with it (`ReadsAs`). The macro
`<NS>_IS_VALID_OP`, which has no labels, is in `ValidatorsRight.lean`. The names are taken to
be none that the included standard headers define, and the rest of each file to compile.
-/

namespace Deepspan

open CSyntax

/-! ## What is printed -/

/-- The filter `hex_nopad`: `f"0x{v:X}"`. -/
def hexNopadFilter (v : Int) : List Char :=
  if v < 0 then "0x-".toList ++ hexDigits v.natAbs else "0x".toList ++ hexDigits v.natAbs

section Printed

variable (upper : List Char → List Char) (desc : HwipDescriptor)

/-- The enumerators of `Op` and their values, in `cpp_opcodes.hpp` and `cpp_hwmodel.hpp`. -/
def HwipDescriptor.opEntries : List (List Char × List Char) :=
  desc.operations.map fun op => (upper op.name.toList, hexFilter op.opcode)

/-- The enumerators of `Reg`, and the members of `RegOffsets` in `cpp_hwmodel.hpp`. -/
def HwipDescriptor.regEntries : List (List Char × List Char) :=
  desc.allRegisters.map fun reg => (upper reg.name.toList, hexFilter reg.offset)

/-- The macros of the kernel header, for the operations and for the registers. -/
def HwipDescriptor.opDefines : List (List Char × List Char) :=
  desc.operations.map fun op =>
    (opMacro (upper desc.namespaceOrDefault.toList) (fun op => upper op.name.toList) op,
      hexFilter op.opcode)

def HwipDescriptor.regDefines : List (List Char × List Char) :=
  desc.allRegisters.map fun reg =>
    (regMacro (upper desc.namespaceOrDefault.toList) (upper reg.name.toList), hexFilter reg.offset)

/-- `case <proto_enum_value>: return {static_cast<uint32_t>(Op::<NAME>), true};`: the number
and the enumerator. -/
def HwipDescriptor.protoCases : List (Int × List Char) :=
  desc.operations.map fun op => (op.protoEnumValue, upper op.name.toList)

/-- The numbers of the enumeration in `device.proto`. The first is `<NAME>_OP_UNSPECIFIED`. -/
def HwipDescriptor.protoEnum : List Int := 0 :: desc.operations.map OperationDef.protoEnumValue

end Printed

/-! ## What it means -/

/-- Identifiers with unsigned constants. A constant that does not fit an `unsigned int` is
refused. -/
def readConstants? (entries : List (List Char × List Char)) : Option (List (List Char × UInt32)) :=
  entries.mapM fun e =>
    if IsIdent e.1 then (constant? e.2).map fun n => (e.1, UInt32.ofNat n) else none

/-- An `enum class` over `uint32_t` has a name once. -/
def readEnum? (entries : List (List Char × List Char)) : Option (List (List Char × UInt32)) :=
  if (entries.map Prod.fst).Nodup then readConstants? entries else none

/-- A macro may be defined again, if it stands for the same. -/
def readDefines? (entries : List (List Char × List Char)) : Option (List (List Char × UInt32)) :=
  if entries.Pairwise (fun e e' => e.1 = e'.1 → e.2 = e'.2) then readConstants? entries else none

/-- A `switch` whose cases return. `read` is a case's label and value; no two labels are the
same. -/
def readSwitch? {α κ β : Type} [DecidableEq κ] (read : α → Option (κ × β)) (cases : List α)
    (default : β) : Option (κ → β) :=
  (cases.mapM read).bind fun table =>
    if (table.map Prod.fst).Nodup then some fun x => (table.lookup x).getD default else none

/-- A number as a label of type `int32_t`, which narrows nothing. -/
def int32Label? (v : Int) : Option Int32 :=
  if -2 ^ 31 ≤ v ∧ v < 2 ^ 31 then some (Int32.ofInt v) else none

/-- `cpp_opcodes.hpp`. -/
structure OpcodesHeader where
  op : List (List Char × UInt32)
  reg : List (List Char × UInt32)
  protoOpToHwOp : Int32 → UInt32 × Bool
  validateOpcode : UInt32 → Bool

section Read

variable (upper : List Char → List Char) (desc : HwipDescriptor)

/-- The body of `proto_op_to_hw_op`. -/
def readProtoOpToHwOp? (op : List (List Char × UInt32)) : Option (Int32 → UInt32 × Bool) :=
  readSwitch? (fun c => (int32Label? c.1).bind fun label =>
    (op.lookup c.2).map fun value => (label, value, true)) (desc.protoCases upper) (0, false)

/-- The body of `validate_opcode`. Without operations, its `case` has no label. -/
def readValidateOpcode? (op : List (List Char × UInt32)) : Option (UInt32 → Bool) :=
  if desc.operations = [] then none
  else readSwitch? (fun name => (op.lookup name).map fun value => (value, true))
    (desc.enumLabels upper) false

/-- `cpp_opcodes.hpp`: the namespace, the enumerations and the functions. -/
def opcodesHeader? : Option OpcodesHeader :=
  if IsIdent ("deepspan_".toList ++ desc.name.toList) then
    (readEnum? (desc.opEntries upper)).bind fun op =>
    (readEnum? (desc.regEntries upper)).bind fun reg =>
    (readProtoOpToHwOp? upper desc op).bind fun protoOpToHwOp =>
    (readValidateOpcode? upper desc op).map fun validateOpcode =>
      ⟨op, reg, protoOpToHwOp, validateOpcode⟩
  else none

/-- `<ns>_is_valid_op` of the firmware header, with the macros of the kernel header. Without
operations it returns false. -/
def firmwareIsValidOp? : Option (UInt32 → Bool) :=
  if IsIdent (desc.namespaceOrDefault.toList ++ "_is_valid_op".toList) then
    (readDefines? (desc.opDefines upper ++ desc.regDefines upper)).bind fun constants =>
    readSwitch? (fun name => (constants.lookup name).map fun value => (value, true))
      (desc.macroLabels upper) false
  else none

end Read

/-! ## The property -/

/-- `proto_op_to_hw_op` takes the numbers of the proto enum, but for the zero, one to one to the
opcodes that `validate_opcode` accepts, and fails on all others. -/
structure OpcodesHeader.MapsProto (header : OpcodesHeader) (enum : List Int) : Prop where
  bijOn : Set.BijOn (fun p => (header.protoOpToHwOp p).1) {p | p.toInt ∈ enum ∧ p.toInt ≠ 0}
    {x | header.validateOpcode x = true}
  succeeds : ∀ p, p.toInt ∈ enum → p.toInt ≠ 0 → (header.protoOpToHwOp p).2 = true
  fails : ∀ p, ¬(p.toInt ∈ enum ∧ p.toInt ≠ 0) → header.protoOpToHwOp p = (0, false)

section Property

variable (upper : List Char → List Char) (desc : HwipDescriptor)

/-- `<name> = <value>,`. -/
def enumeratorTokens (name : List Char) (value : Nat) : List Tok :=
  [.ident name, .punct '=', .num value, .punct ',']

/-- Every opcode and every offset fits 32 bits and is printed as a literal of its value, in
lines that hold nothing else; no other macro of the kernel header takes the place of theirs;
the labels differ, no operation has the number of `UNSPECIFIED`, and the headers are well
formed, with validators that agree and a function between proto numbers and opcodes. -/
structure ConsistentTables : Prop where
  opcodes : ∀ op ∈ desc.operations, ∃ v : UInt32, (v.toNat : Int) = op.opcode ∧
    constant? (hexFilter op.opcode) = some v.toNat ∧
    ReadsAs (enumeratorLine (upper op.name.toList) (hexFilter op.opcode) op.doc.toList)
      (enumeratorTokens (upper op.name.toList) v.toNat) ∧
    PySyntax.ReadsAs (PySyntax.assignmentLine (upper op.name.toList)
      (hexNopadFilter op.opcode) op.doc.toList) (upper op.name.toList) v.toNat
  offsets : ∀ reg ∈ desc.allRegisters, ∃ v : UInt32, v.toNat = reg.offset ∧
    constant? (hexFilter reg.offset) = some v.toNat ∧
    ReadsAs (enumeratorLine (upper reg.name.toList) (hexFilter reg.offset) reg.doc.toList)
      (enumeratorTokens (upper reg.name.toList) v.toNat)
  macros : ∀ m ∈ desc.macroLabels upper ++ desc.regLabels upper,
    NotDefined upper desc [kernelGuard, kernelBits] m
  protoLabels : ((desc.protoCases upper).map Prod.fst).Nodup
  validatorLabels : desc.opcodes.Nodup
  unspecified : ∀ op ∈ desc.operations, op.protoEnumValue ≠ 0
  headers : ∃ header isValidOp, opcodesHeader? upper desc = some header ∧
    firmwareIsValidOp? upper desc = some isValidOp ∧
    (∀ x, isValidOp x = header.validateOpcode x) ∧ header.MapsProto desc.protoEnum

/-- What the schema would have to check. -/
structure TablesOk : Prop extends NamesOk upper desc where
  name : ∀ c ∈ desc.name.toList, isWordChar c = true
  regs : ∀ reg ∈ desc.allRegisters, IsIdent (upper reg.name.toList)
  opsDiffer : (desc.enumLabels upper).Nodup
  regsDiffer : (desc.allRegisters.map fun reg => upper reg.name.toList).Nodup
  ne : desc.operations ≠ []
  opcodes : OpcodesOk desc.operations
  opcodesDiffer : desc.opcodes.Nodup
  offsets : ∀ reg ∈ desc.allRegisters, reg.offset < 2 ^ 32
  protos : ∀ op ∈ desc.operations, op.protoEnumValue ≠ 0 ∧ -2 ^ 31 ≤ op.protoEnumValue ∧
    op.protoEnumValue < 2 ^ 31
  protosDiffer : (desc.operations.map OperationDef.protoEnumValue).Nodup
  opDocs : ∀ op ∈ desc.operations,
    IsComment (op.doc.toList ++ ['\n']) ∧ PySyntax.IsComment op.doc.toList
  regDocs : ∀ reg ∈ desc.allRegisters, IsComment (reg.doc.toList ++ ['\n'])
  macros : ∀ m ∈ desc.macroLabels upper ++ desc.regLabels upper,
    NotDefined upper desc [kernelGuard, kernelBits] m

end Property

/-! ## Literals -/

theorem constant?_hexFilter {v : Int} (h0 : 0 ≤ v) (h : v < 2 ^ 32) :
    constant? (hexFilter v) = some v.toNat :=
  (isConstant_hexFilter h0 h).constant?_eq

theorem constant?_hexNopadFilter {v : Int} (h : 0 ≤ v) :
    PySyntax.constant? (hexNopadFilter v) = some v.toNat := by
  have hnat : v.natAbs = v.toNat := by omega
  rw [hexNopadFilter, if_neg (by omega), String.toList_ofList, hnat]
  show PySyntax.constant? ('0' :: 'x' :: hexDigits v.toNat) = _
  rw [PySyntax.constant?, if_neg (hexDigits_ne_nil _), hexValue?_hexDigits]

theorem isWordChar_hexNopadFilter {v : Int} (h : 0 ≤ v) :
    ∀ c ∈ hexNopadFilter v, isWordChar c = true := by
  rw [hexNopadFilter, if_neg (by omega), String.toList_ofList]
  exact List.forall_mem_append.mpr ⟨List.all_eq_true.mp rfl, fun c hc => isWordChar_hexDigits hc⟩

theorem hexNopadFilter_ne_nil {v : Int} (h : 0 ≤ v) : hexNopadFilter v ≠ [] := by
  rw [hexNopadFilter, if_neg (by omega), String.toList_ofList]
  exact List.cons_ne_nil _ _

/-- Neither is a literal for a negative opcode. -/
example : constant? (hexFilter (-1)) = none ∧ PySyntax.constant? (hexNopadFilter (-1)) = none := by
  decide +kernel

/-- The opcode as a word. -/
def OperationDef.hwOp (op : OperationDef) : UInt32 := UInt32.ofNat op.opcode.toNat

theorem OpcodesOk.toNat_hwOp {ops : List OperationDef} (h : OpcodesOk ops) {op : OperationDef}
    (hop : op ∈ ops) : (op.hwOp.toNat : Int) = op.opcode := by
  obtain ⟨h0, hlt⟩ := h op hop
  rw [OperationDef.hwOp, UInt32.toNat_ofNat_of_lt' (by show _ < 4294967296; omega),
    Int.toNat_of_nonneg h0]

/-! ## Constants and switches -/

section Reading

variable {α κ β : Type} [DecidableEq κ] {xs : List α}

theorem readConstants?_hexFilter {name : α → List Char} {value : α → Int}
    (hnames : ∀ a ∈ xs, IsIdent (name a)) (hvalues : ∀ a ∈ xs, 0 ≤ value a ∧ value a < 2 ^ 32) :
    readConstants? (xs.map fun a => (name a, hexFilter (value a))) =
      some (xs.map fun a => (name a, UInt32.ofNat (value a).toNat)) := by
  unfold readConstants?
  rw [List.mapM_map]
  refine mapM_eq_map fun a ha => ?_
  obtain ⟨h0, hlt⟩ := hvalues a ha
  show (if IsIdent (name a) then _ else none) = _
  rw [if_pos (hnames a ha), constant?_hexFilter h0 hlt]
  rfl

theorem isIdent_of_readConstants? {entries : List (List Char × List Char)}
    {constants : List (List Char × UInt32)} (h : readConstants? entries = some constants) :
    ∀ e ∈ entries, IsIdent e.1 := by
  have hall := mapM_isSome_iff.mp (Option.isSome_of_eq_some h)
  intro e he
  have hsome := hall e he
  split at hsome
  · next hident => exact hident
  · cases hsome

/-- The enumeration is read as it is printed. -/
theorem readEnum?_hexFilter {name : α → List Char} {value : α → Int}
    (hnames : ∀ a ∈ xs, IsIdent (name a)) (hvalues : ∀ a ∈ xs, 0 ≤ value a ∧ value a < 2 ^ 32)
    (hdiffer : (xs.map name).Nodup) :
    readEnum? (xs.map fun a => (name a, hexFilter (value a))) =
      some (xs.map fun a => (name a, UInt32.ofNat (value a).toNat)) := by
  rw [readEnum?, if_pos ?_, readConstants?_hexFilter hnames hvalues]
  rw [List.map_map]
  exact hdiffer

theorem of_readEnum? {entries : List (List Char × List Char)}
    {constants : List (List Char × UInt32)} (h : readEnum? entries = some constants) :
    (entries.map Prod.fst).Nodup ∧ ∀ e ∈ entries, IsIdent e.1 := by
  unfold readEnum? at h
  split at h
  · next hnodup => exact ⟨hnodup, isIdent_of_readConstants? h⟩
  · cases h

/-- What a `switch` does, from the labels and values of its cases. -/
def switchOn (key : α → κ) (value : α → β) (default : β) (xs : List α) (x : κ) : β :=
  ((xs.map fun a => (key a, value a)).lookup x).getD default

theorem readSwitch?_eq {read : α → Option (κ × β)} {key : α → κ} {value : α → β} {default : β}
    (hread : ∀ a ∈ xs, read a = some (key a, value a)) (hdiffer : (xs.map key).Nodup) :
    readSwitch? read xs default = some (switchOn key value default xs) := by
  rw [readSwitch?, mapM_eq_map hread, Option.bind_some, if_pos]
  · rfl
  · rw [List.map_map]
    exact hdiffer

theorem readSwitch?_map {γ : Type} (read : γ → Option (κ × β)) (g : α → γ) (default : β) :
    readSwitch? read (xs.map g) default = readSwitch? (fun a => read (g a)) xs default := by
  rw [readSwitch?, readSwitch?, List.mapM_map]
  rfl

theorem isSome_of_readSwitch? {read : α → Option (κ × β)} {default : β} {f : κ → β}
    (h : readSwitch? read xs default = some f) : ∀ a ∈ xs, (read a).isSome = true := by
  obtain ⟨table, htable, -⟩ := Option.bind_eq_some_iff.mp h
  exact mapM_isSome_iff.mp (Option.isSome_of_eq_some htable)

variable {key : α → κ} {value : α → β} {default : β}

theorem switchOn_label (hdiffer : (xs.map key).Nodup) {a : α} (ha : a ∈ xs) :
    switchOn key value default xs (key a) = value a := by
  rw [switchOn, lookup_label value hdiffer ha]
  rfl

theorem switchOn_default {x : κ} (h : ∀ a ∈ xs, key a ≠ x) :
    switchOn key value default xs x = default := by
  have hnone : (xs.map fun a => (key a, value a)).lookup x = none := by
    rw [List.lookup_eq_none_iff]
    intro e he
    obtain ⟨a, ha, rfl⟩ := List.mem_map.mp he
    rw [bne_iff_ne]
    exact (h a ha).symm
  rw [switchOn, hnone]
  rfl

/-- A validator accepts its labels. -/
theorem switchOn_true_iff (hdiffer : (xs.map key).Nodup) {x : κ} :
    switchOn key (fun _ => true) false xs x = true ↔ ∃ a ∈ xs, key a = x := by
  constructor
  · intro h
    by_contra hno
    rw [switchOn_default fun a ha heq => hno ⟨a, ha, heq⟩] at h
    cases h
  · rintro ⟨a, ha, rfl⟩
    exact switchOn_label hdiffer ha

end Reading

/-! ## The condition is enough -/

/-- The label of an operation in `proto_op_to_hw_op`. -/
def OperationDef.protoLabel (op : OperationDef) : Int32 := Int32.ofInt op.protoEnumValue

/-- `proto_op_to_hw_op`, as it is when it can be read. -/
def protoSwitch (ops : List OperationDef) : Int32 → UInt32 × Bool :=
  switchOn OperationDef.protoLabel (fun op => (op.hwOp, true)) (0, false) ops

/-- The validators. -/
def opcodeSwitch (ops : List OperationDef) : UInt32 → Bool :=
  switchOn OperationDef.hwOp (fun _ => true) false ops

namespace TablesOk

variable {upper : List Char → List Char} {desc : HwipDescriptor}

theorem toInt_protoLabel (h : TablesOk upper desc) {op : OperationDef}
    (hop : op ∈ desc.operations) : op.protoLabel.toInt = op.protoEnumValue :=
  Int32.toInt_ofInt_of_le (h.protos op hop).2.1 (h.protos op hop).2.2

theorem nodup_protoLabels (h : TablesOk upper desc) :
    (desc.operations.map OperationDef.protoLabel).Nodup :=
  nodup_map_of_comp Int32.toInt (fun _ hop => h.toInt_protoLabel hop) h.protosDiffer

theorem nodup_hwOps (h : TablesOk upper desc) :
    (desc.operations.map OperationDef.hwOp).Nodup :=
  nodup_map_of_comp (fun v => (v.toNat : Int)) (fun _ hop => h.opcodes.toNat_hwOp hop)
    h.opcodesDiffer

theorem readEnum?_op (h : TablesOk upper desc) : readEnum? (desc.opEntries upper) =
    some (desc.operations.map fun op => (upper op.name.toList, op.hwOp)) :=
  readEnum?_hexFilter h.ops h.opcodes h.opsDiffer

theorem offset_range (h : TablesOk upper desc) (reg : RegisterDef)
    (hreg : reg ∈ desc.allRegisters) : 0 ≤ (reg.offset : Int) ∧ (reg.offset : Int) < 2 ^ 32 := by
  have hlt := h.offsets reg hreg
  omega

theorem readEnum?_reg (h : TablesOk upper desc) : readEnum? (desc.regEntries upper) =
    some (desc.allRegisters.map fun reg => (upper reg.name.toList, UInt32.ofNat reg.offset)) :=
  readEnum?_hexFilter h.regs h.offset_range h.regsDiffer

theorem readProtoOpToHwOp?_eq (h : TablesOk upper desc) : readProtoOpToHwOp? upper desc
      (desc.operations.map fun op => (upper op.name.toList, op.hwOp)) =
    some (protoSwitch desc.operations) := by
  rw [readProtoOpToHwOp?, HwipDescriptor.protoCases, readSwitch?_map]
  refine readSwitch?_eq (fun op hop => ?_) h.nodup_protoLabels
  rw [int32Label?, if_pos (h.protos op hop).2, Option.bind_some,
    lookup_label OperationDef.hwOp h.opsDiffer hop]
  rfl

theorem readValidateOpcode?_eq (h : TablesOk upper desc) : readValidateOpcode? upper desc
      (desc.operations.map fun op => (upper op.name.toList, op.hwOp)) =
    some (opcodeSwitch desc.operations) := by
  rw [readValidateOpcode?, if_neg h.ne, HwipDescriptor.enumLabels, readSwitch?_map]
  refine readSwitch?_eq (fun op hop => ?_) h.nodup_hwOps
  rw [lookup_label OperationDef.hwOp h.opsDiffer hop]
  rfl

theorem opcodesHeader?_eq (h : TablesOk upper desc) : opcodesHeader? upper desc = some
    { op := desc.operations.map fun op => (upper op.name.toList, op.hwOp)
      reg := desc.allRegisters.map fun reg => (upper reg.name.toList, UInt32.ofNat reg.offset)
      protoOpToHwOp := protoSwitch desc.operations
      validateOpcode := opcodeSwitch desc.operations } := by
  have hname : IsIdent ("deepspan_".toList ++ desc.name.toList) := by
    have hstart : IsIdentStart "deepspan".toList := by
      rw [String.toList_ofList]
      exact { chars := List.all_eq_true.mp rfl, start := rfl }
    have hident := hstart.isIdent_underscore h.name
    have heq : "deepspan_".toList = "deepspan".toList ++ ['_'] := by
      repeat rw [String.toList_ofList]
      rfl
    rw [heq, List.append_assoc]
    exact hident
  rw [opcodesHeader?, if_pos hname, h.readEnum?_op, Option.bind_some, h.readEnum?_reg,
    Option.bind_some, h.readProtoOpToHwOp?_eq, Option.bind_some, h.readValidateOpcode?_eq]
  rfl

theorem isIdent_regMacro (h : TablesOk upper desc) {reg : RegisterDef}
    (hreg : reg ∈ desc.allRegisters) :
    IsIdent (regMacro (upper desc.namespaceOrDefault.toList) (upper reg.name.toList)) := by
  have htext : "_REG_".toList = ['_', 'R', 'E', 'G', '_'] := String.toList_ofList
  have hword : ∀ c ∈ ['R', 'E', 'G', '_'], isWordChar c = true := List.all_eq_true.mp rfl
  rw [regMacro, htext]
  refine h.nsUpper.isIdent_underscore fun c hc => ?_
  rcases List.mem_append.mp hc with hc | hc
  · exact hword c hc
  · exact (h.regs reg hreg).chars c hc

/-- No macro of the kernel header is defined twice. -/
theorem nodup_defines (h : TablesOk upper desc) :
    ((desc.opDefines upper ++ desc.regDefines upper).map Prod.fst).Nodup := by
  have hop : "_OP_".toList = ['_', 'O', 'P', '_'] := String.toList_ofList
  have hreg : "_REG_".toList = ['_', 'R', 'E', 'G', '_'] := String.toList_ofList
  rw [List.map_append, List.nodup_append, HwipDescriptor.opDefines, HwipDescriptor.regDefines,
    List.map_map, List.map_map]
  refine ⟨nodup_macroLabels h.opsDiffer, ?_, ?_⟩
  · have heq : desc.allRegisters.map (fun reg =>
          regMacro (upper desc.namespaceOrDefault.toList) (upper reg.name.toList)) =
        (desc.allRegisters.map fun reg => upper reg.name.toList).map
          (regMacro (upper desc.namespaceOrDefault.toList)) := by
      rw [List.map_map]
      rfl
    refine heq ▸ h.regsDiffer.map fun name name' hnames => ?_
    exact List.append_cancel_left (List.append_cancel_left hnames)
  · intro m hm m' hm' heq
    obtain ⟨op, -, rfl⟩ := List.mem_map.mp hm
    obtain ⟨reg, -, rfl⟩ := List.mem_map.mp hm'
    -- behind the namespace and an underscore comes an `O` or an `R`
    have hcancel : "_OP_".toList ++ upper op.name.toList =
        "_REG_".toList ++ upper reg.name.toList := List.append_cancel_left heq
    rw [hop, hreg] at hcancel
    exact absurd (List.cons.inj (List.cons.inj hcancel).2).1 (by decide)

theorem readDefines?_eq (h : TablesOk upper desc) :
    ∃ regConstants, readDefines? (desc.opDefines upper ++ desc.regDefines upper) =
      some ((desc.operations.map fun op =>
        (opMacro (upper desc.namespaceOrDefault.toList) (fun op => upper op.name.toList) op,
          op.hwOp)) ++ regConstants) := by
  have hpairwise : (desc.opDefines upper ++ desc.regDefines upper).Pairwise
      (fun e e' => e.1 = e'.1 → e.2 = e'.2) :=
    (List.pairwise_map.mp h.nodup_defines).imp fun hne heq => absurd heq hne
  have hops : readConstants? (desc.opDefines upper) = _ :=
    readConstants?_hexFilter (fun op hop => h.opMacro hop) h.opcodes
  have hregs : readConstants? (desc.regDefines upper) = _ :=
    readConstants?_hexFilter (fun reg hreg => h.isIdent_regMacro hreg) h.offset_range
  unfold readConstants? at hops hregs
  rw [readDefines?, if_pos hpairwise, readConstants?, List.mapM_append, hops, hregs]
  exact ⟨_, rfl⟩

theorem firmwareIsValidOp?_eq (h : TablesOk upper desc) :
    firmwareIsValidOp? upper desc = some (opcodeSwitch desc.operations) := by
  obtain ⟨regConstants, hdefines⟩ := h.readDefines?_eq
  rw [firmwareIsValidOp?, if_pos (isIdent_isValidOp h.nsLower), hdefines, Option.bind_some,
    HwipDescriptor.macroLabels, readSwitch?_map]
  refine readSwitch?_eq (fun op hop => ?_) h.nodup_hwOps
  rw [List.lookup_append, lookup_label OperationDef.hwOp (nodup_macroLabels h.opsDiffer) hop]
  rfl

/-- The numbers of the proto enum, but for the zero, are the labels. -/
theorem mem_protoEnum_iff (h : TablesOk upper desc) {p : Int32} :
    (p.toInt ∈ desc.protoEnum ∧ p.toInt ≠ 0) ↔ ∃ op ∈ desc.operations, op.protoLabel = p := by
  constructor
  · rintro ⟨hmem, hne⟩
    obtain ⟨op, hop, heq⟩ := List.mem_map.mp ((List.mem_cons.mp hmem).resolve_left hne)
    refine ⟨op, hop, ?_⟩
    rw [OperationDef.protoLabel, heq, Int32.ofInt_toInt]
  · rintro ⟨op, hop, rfl⟩
    rw [h.toInt_protoLabel hop]
    exact ⟨List.mem_cons_of_mem _ (List.mem_map_of_mem hop), (h.protos op hop).1⟩

theorem protoSwitch_label (h : TablesOk upper desc) {op : OperationDef}
    (hop : op ∈ desc.operations) : protoSwitch desc.operations op.protoLabel = (op.hwOp, true) :=
  switchOn_label h.nodup_protoLabels hop

theorem opcodeSwitch_iff (h : TablesOk upper desc) {x : UInt32} :
    opcodeSwitch desc.operations x = true ↔ ∃ op ∈ desc.operations, op.hwOp = x :=
  switchOn_true_iff h.nodup_hwOps

/-- From the proto enum to the opcodes and back. -/
theorem mapsProto (h : TablesOk upper desc) {header : OpcodesHeader}
    (hproto : header.protoOpToHwOp = protoSwitch desc.operations)
    (hvalidate : header.validateOpcode = opcodeSwitch desc.operations) :
    header.MapsProto desc.protoEnum where
  bijOn := by
    rw [hproto, hvalidate]
    refine ⟨?_, ?_, ?_⟩
    · intro p hp
      obtain ⟨op, hop, rfl⟩ := h.mem_protoEnum_iff.mp hp
      show opcodeSwitch desc.operations (protoSwitch desc.operations op.protoLabel).1 = true
      rw [h.protoSwitch_label hop]
      exact h.opcodeSwitch_iff.mpr ⟨op, hop, rfl⟩
    · intro p hp p' hp' heq
      obtain ⟨op, hop, rfl⟩ := h.mem_protoEnum_iff.mp hp
      obtain ⟨op', hop', rfl⟩ := h.mem_protoEnum_iff.mp hp'
      simp only [h.protoSwitch_label hop, h.protoSwitch_label hop'] at heq
      rw [List.inj_on_of_nodup_map h.nodup_hwOps hop hop' heq]
    · intro x hx
      obtain ⟨op, hop, rfl⟩ := h.opcodeSwitch_iff.mp hx
      refine ⟨op.protoLabel, h.mem_protoEnum_iff.mpr ⟨op, hop, rfl⟩, ?_⟩
      simp only [h.protoSwitch_label hop]
  succeeds := by
    intro p hmem hne
    obtain ⟨op, hop, rfl⟩ := h.mem_protoEnum_iff.mp ⟨hmem, hne⟩
    rw [hproto, h.protoSwitch_label hop]
  fails := by
    intro p hp
    rw [hproto]
    exact switchOn_default fun op hop heq => hp (h.mem_protoEnum_iff.mpr ⟨op, hop, heq⟩)

theorem consistentTables (h : TablesOk upper desc) : ConsistentTables upper desc where
  opcodes := by
    intro op hop
    obtain ⟨h0, hlt⟩ := h.opcodes op hop
    have hvalue := h.opcodes.toNat_hwOp hop
    have hnat : op.hwOp.toNat = op.opcode.toNat := by omega
    refine ⟨op.hwOp, hvalue, ?_⟩
    rw [hnat]
    exact ⟨constant?_hexFilter h0 hlt,
      (readsAs_enumeratorLine_iff (h.ops op hop) (isConstant_hexFilter h0 hlt)).mpr
        (h.opDocs op hop).1,
      (PySyntax.readsAs_assignmentLine_iff (h.ops op hop) (isWordChar_hexNopadFilter h0)
        (hexNopadFilter_ne_nil h0) (constant?_hexNopadFilter h0)).mpr (h.opDocs op hop).2⟩
  offsets := by
    intro reg hreg
    obtain ⟨h0, hlt⟩ := h.offset_range reg hreg
    have hvalue : (UInt32.ofNat reg.offset).toNat = reg.offset :=
      UInt32.toNat_ofNat_of_lt' (h.offsets reg hreg)
    refine ⟨UInt32.ofNat reg.offset, hvalue, ?_⟩
    rw [hvalue]
    exact ⟨constant?_hexFilter h0 hlt,
      (readsAs_enumeratorLine_iff (h.regs reg hreg) (isConstant_hexFilter h0 hlt)).mpr
        (h.regDocs reg hreg)⟩
  macros := h.macros
  protoLabels := by
    rw [HwipDescriptor.protoCases, List.map_map]
    exact h.protosDiffer
  validatorLabels := h.opcodesDiffer
  unspecified := fun op hop => (h.protos op hop).1
  headers := ⟨_, _, h.opcodesHeader?_eq, h.firmwareIsValidOp?_eq, fun _ => rfl,
    h.mapsProto rfl rfl⟩

/-- The validators are right as texts, too. -/
theorem validatorTexts (h : TablesOk upper desc) (hapart : MacrosApart upper desc) :
    FirmwareRight upper desc ∧ CppRight upper desc :=
  ⟨firmwareRight h.toNamesOk h.ne h.opsDiffer h.opcodesDiffer h.opcodes hapart,
    cppRight h.toNamesOk h.ne h.opsDiffer h.opcodesDiffer h.opcodes fun op hop => (h.opDocs op hop).1⟩

end TablesOk

/-! ## The condition is necessary -/

section Necessary

variable {upper : List Char → List Char} {desc : HwipDescriptor}

/-- The parts of a header that can be read. -/
theorem of_opcodesHeader? {header : OpcodesHeader} (h : opcodesHeader? upper desc = some header) :
    IsIdent ("deepspan_".toList ++ desc.name.toList) ∧
      readEnum? (desc.opEntries upper) = some header.op ∧
      readEnum? (desc.regEntries upper) = some header.reg ∧
      readProtoOpToHwOp? upper desc header.op = some header.protoOpToHwOp ∧
      readValidateOpcode? upper desc header.op = some header.validateOpcode := by
  unfold opcodesHeader? at h
  split at h
  · next hname =>
    obtain ⟨op, hop, h⟩ := Option.bind_eq_some_iff.mp h
    obtain ⟨reg, hreg, h⟩ := Option.bind_eq_some_iff.mp h
    obtain ⟨protoOpToHwOp, hproto, h⟩ := Option.bind_eq_some_iff.mp h
    obtain ⟨validateOpcode, hvalidate, rfl⟩ := Option.map_eq_some_iff.mp h
    exact ⟨hname, hop, hreg, hproto, hvalidate⟩
  · cases h

theorem of_firmwareIsValidOp? {isValidOp : UInt32 → Bool}
    (h : firmwareIsValidOp? upper desc = some isValidOp) :
    IsIdent (desc.namespaceOrDefault.toList ++ "_is_valid_op".toList) ∧
      ∀ e ∈ desc.opDefines upper, IsIdent e.1 := by
  unfold firmwareIsValidOp? at h
  split at h
  · next hname =>
    obtain ⟨constants, hdefines, -⟩ := Option.bind_eq_some_iff.mp h
    unfold readDefines? at hdefines
    split at hdefines
    · refine ⟨hname, fun e he => ?_⟩
      exact isIdent_of_readConstants? hdefines e (List.mem_append_left _ he)
    · cases hdefines
  · cases h

/-- A label that can be read is an `int32_t`. -/
theorem range_of_readProtoOpToHwOp? {op : List (List Char × UInt32)} {f : Int32 → UInt32 × Bool}
    (h : readProtoOpToHwOp? upper desc op = some f) {o : OperationDef} (ho : o ∈ desc.operations) :
    -2 ^ 31 ≤ o.protoEnumValue ∧ o.protoEnumValue < 2 ^ 31 := by
  have hsome := isSome_of_readSwitch? h _ (List.mem_map_of_mem ho)
  by_contra hrange
  rw [int32Label?, if_neg hrange] at hsome
  cases hsome

theorem operations_ne_of_readValidateOpcode? {op : List (List Char × UInt32)} {f : UInt32 → Bool}
    (h : readValidateOpcode? upper desc op = some f) : desc.operations ≠ [] := by
  intro hnil
  rw [readValidateOpcode?, if_pos hnil] at h
  cases h

/-- The value of a word. -/
theorem range_of_value {v : UInt32} {n : Int} (h : (v.toNat : Int) = n) :
    0 ≤ n ∧ n < 2 ^ 32 ∧ v.toNat = n.toNat := by
  have hlt := v.toNat_lt
  omega

theorem ConsistentTables.tablesOk (h : ConsistentTables upper desc) : TablesOk upper desc := by
  obtain ⟨header, isValidOp, hheader, hfirmware, -, -⟩ := h.headers
  obtain ⟨hname, hop, hreg, hproto, hvalidate⟩ := of_opcodesHeader? hheader
  obtain ⟨hfunction, hmacros⟩ := of_firmwareIsValidOp? hfirmware
  obtain ⟨hopsDiffer, hops⟩ := of_readEnum? hop
  obtain ⟨hregsDiffer, hregs⟩ := of_readEnum? hreg
  have hne := operations_ne_of_readValidateOpcode? hvalidate
  have hopIdent : ∀ op ∈ desc.operations, IsIdent (upper op.name.toList) :=
    fun op hmem => hops _ (List.mem_map_of_mem hmem)
  have hregIdent : ∀ reg ∈ desc.allRegisters, IsIdent (upper reg.name.toList) :=
    fun reg hmem => hregs _ (List.mem_map_of_mem hmem)
  exact
    { nsLower := hfunction.isIdentStart_of_append
      nsUpper := by
        obtain ⟨op, hmem⟩ := List.exists_mem_of_ne_nil _ hne
        exact (hmacros _ (List.mem_map_of_mem hmem)).isIdentStart_of_append
      ops := hopIdent
      name := fun c hc => hname.chars c (List.mem_append_right _ hc)
      regs := hregIdent
      opsDiffer := by
        rw [HwipDescriptor.opEntries, List.map_map] at hopsDiffer
        exact hopsDiffer
      regsDiffer := by
        rw [HwipDescriptor.regEntries, List.map_map] at hregsDiffer
        exact hregsDiffer
      ne := hne
      opcodes := by
        intro op hmem
        obtain ⟨v, hv, -⟩ := h.opcodes op hmem
        obtain ⟨h0, hlt, -⟩ := range_of_value hv
        exact ⟨h0, hlt⟩
      opcodesDiffer := h.validatorLabels
      offsets := by
        intro reg hmem
        obtain ⟨v, hv, -⟩ := h.offsets reg hmem
        rw [← hv]
        exact v.toNat_lt
      protos := fun op hmem => ⟨h.unspecified op hmem, range_of_readProtoOpToHwOp? hproto hmem⟩
      protosDiffer := by
        have hlabels := h.protoLabels
        rw [HwipDescriptor.protoCases, List.map_map] at hlabels
        exact hlabels
      opDocs := by
        intro op hmem
        obtain ⟨v, hv, -, hline, hpython⟩ := h.opcodes op hmem
        obtain ⟨h0, hlt, hnat⟩ := range_of_value hv
        rw [hnat] at hline hpython
        exact ⟨(readsAs_enumeratorLine_iff (hopIdent op hmem) (isConstant_hexFilter h0 hlt)).mp hline,
          (PySyntax.readsAs_assignmentLine_iff (hopIdent op hmem) (isWordChar_hexNopadFilter h0)
            (hexNopadFilter_ne_nil h0) (constant?_hexNopadFilter h0)).mp hpython⟩
      regDocs := by
        intro reg hmem
        obtain ⟨v, hv, -, hline⟩ := h.offsets reg hmem
        obtain ⟨h0, hlt, hnat⟩ := range_of_value (v := v) (n := reg.offset) (by omega)
        rw [hnat] at hline
        exact (readsAs_enumeratorLine_iff (hregIdent reg hmem)
          (isConstant_hexFilter h0 hlt)).mp hline
      macros := h.macros }

end Necessary

/-! ## Exactly when -/

/-- With names that are identifiers: no mask and no guard is a macro of the tables. -/
theorem notDefined_masks_iff {upper : List Char → List Char} {desc : HwipDescriptor}
    (hguard : IsIdent (guardMacro (upper desc.name.toList)))
    (hbits : ∀ m ∈ desc.bitLabels upper, IsIdent m) {w : List Char} :
    NotDefined upper desc [kernelGuard, kernelBits] w ↔
      w ≠ guardMacro (upper desc.name.toList) ∧ w ∉ desc.bitLabels upper := by
  simp [NotDefined, definedNames?_kernelGuard hguard, definedNames?_kernelBits hbits]

/-- The descriptor of the accelerator meets the condition. -/
example : TablesOk asciiUpper accelDescriptor where
  nsLower := { chars := List.all_eq_true.mp (by decide +kernel), start := by decide +kernel }
  nsUpper := { chars := List.all_eq_true.mp (by decide +kernel), start := by decide +kernel }
  ops := List.forall_iff_forall_mem.mp (by decide +kernel)
  name := List.all_eq_true.mp (by decide +kernel)
  regs := List.forall_iff_forall_mem.mp (by decide +kernel)
  opsDiffer := by decide +kernel
  regsDiffer := by decide +kernel
  ne := by decide
  opcodes := by unfold OpcodesOk; decide
  opcodesDiffer := by decide
  offsets := by decide
  protos := by decide
  protosDiffer := by decide
  opDocs := by
    have hdocs : ∀ op ∈ accelDescriptor.operations, '\n' ∉ op.doc.toList ∧
        op.doc.toList.getLast? ≠ some '\\' ∧ PySyntax.IsComment op.doc.toList := by
      decide +kernel
    intro op hop
    obtain ⟨hline, hlast, hpython⟩ := hdocs op hop
    exact ⟨(isComment_line_iff hline).mpr hlast, hpython⟩
  regDocs := by
    have hdocs : ∀ reg ∈ accelDescriptor.allRegisters, '\n' ∉ reg.doc.toList ∧
        reg.doc.toList.getLast? ≠ some '\\' := by
      decide +kernel
    intro reg hreg
    exact (isComment_line_iff (hdocs reg hreg).1).mpr (hdocs reg hreg).2
  macros := by
    have hapart : ∀ m ∈ accelDescriptor.macroLabels asciiUpper ++
        accelDescriptor.regLabels asciiUpper,
        m ≠ guardMacro (asciiUpper accelDescriptor.name.toList) ∧
          m ∉ accelDescriptor.bitLabels asciiUpper := by
      decide +kernel
    intro m hm
    exact (notDefined_masks_iff (by decide +kernel)
      (List.forall_iff_forall_mem.mp (by decide +kernel))).mpr (hapart m hm)

/-- The accelerator with its first operation only, which has the number of `UNSPECIFIED`. -/
def accelUnspecified : HwipDescriptor :=
  { accelDescriptor with operations := [{ accelEcho with protoEnumValue := 0 }] }

end Deepspan
