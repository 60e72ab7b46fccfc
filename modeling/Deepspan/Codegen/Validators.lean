import Deepspan.Lib.CSyntax
import Deepspan.Lib.Jinja
import Deepspan.Codegen.Schema

/-!
# The generated opcode validators

Three templates generate a test for the opcodes of a descriptor: the macro
`<NS>_IS_VALID_OP` of `c_kernel.h.j2`, the inline function `<ns>_is_valid_op` of
`c_firmware.h.j2`, which is a `switch` over the opcode macros of the kernel header, and
`validate_opcode` of `cpp_opcodes.hpp.j2`, a `switch` over an `enum class`.

The templates are rendered as `BaseGenerator` does it, with `trim_blocks` and
`lstrip_blocks`, and the text is read back as C. In the macro, the lines of a list of
operations end in a backslash, then `{% endif %}`, then the newline that belongs to the
backslash; `trim_blocks` takes that newline away (`macroLine`). What that means for the
property stated here is in `ValidatorsRight.lean`.

The kernel header has more macros: its include guard, the offsets of the registers and the
masks of their bits, `<NS>_<REG>_<BIT>`. One that has the name of an opcode macro takes its
place (`NotDefined`).

What the validators do not name is taken to compile and to leave them alone: the comments at
the head of each file, the structs, the enumeration `Reg` and `proto_op_to_hw_op`. The last two
are in `OpcodeTables.lean`.

`upper` is Python's `str.upper`.
-/

namespace Deepspan

open Jinja CSyntax

/-! ## The templates -/

/-- The expressions of the templates. -/
inductive TemplateExpr where
  | descNameUpper
  | namespaceName
  | namespaceUpper
  | opNameUpper
  | opOpcodeHex
  | opDoc
  | regNameUpper
  | regOffsetHex
  | bitName
  | bitPos
deriving DecidableEq, Repr

/-- `not loop.last`. -/
inductive TemplateCond where
  | notLast
deriving DecidableEq, Repr

/-- `for op in desc.operations`, `for reg in desc.platform_registers.all_registers()` and
`for bit in reg.bits`. -/
inductive TemplateLoop where
  | operations
  | registers
  | bits
deriving DecidableEq, Repr

abbrev TemplatePiece := Piece TemplateExpr TemplateCond TemplateLoop

/-- `c_kernel.h.j2`, the include guard. -/
def kernelGuard : List TemplatePiece :=
  [.text "#define DEEPSPAN_".toList, .expr .descNameUpper, .text "_H\n".toList]

/-- `c_kernel.h.j2`, opcode constants. -/
def kernelConstants : List TemplatePiece :=
  [.forIn .operations, .text "\n#define ".toList, .expr .namespaceUpper, .text "_OP_".toList,
    .expr .opNameUpper, .text "    ".toList, .expr .opOpcodeHex, .text "\n".toList, .endFor,
    .text "\n".toList]

/-- `c_kernel.h.j2`, register offsets. -/
def kernelRegisters : List TemplatePiece :=
  [.forIn .registers, .text "\n#define ".toList, .expr .namespaceUpper, .text "_REG_".toList,
    .expr .regNameUpper, .text "    ".toList, .expr .regOffsetHex, .text "\n".toList, .endFor,
    .text "\n".toList]

/-- `c_kernel.h.j2`, bit field masks. -/
def kernelBits : List TemplatePiece :=
  [.forIn .registers, .text "\n".toList, .forIn .bits, .text "\n#define ".toList,
    .expr .namespaceUpper, .text "_".toList, .expr .regNameUpper, .text "_".toList, .expr .bitName,
    .text "    (1U << ".toList, .expr .bitPos, .text ")\n".toList, .endFor, .text "\n".toList,
    .endFor, .text "\n".toList]

/-- `c_kernel.h.j2`, opcode validation. -/
def kernelMacro : List TemplatePiece :=
  [.text "#define ".toList, .expr .namespaceUpper, .text "_IS_VALID_OP(op) ( \\\n".toList,
    .forIn .operations, .text "\n    (op) == ".toList, .expr .opOpcodeHex, .ifThen .notLast,
    .text " || \\".toList, .otherwise, .text ")".toList, .endIf, .text "\n".toList, .endFor,
    .text "\n\n".toList]

/-- `c_firmware.h.j2`, the inline function. -/
def firmwareFunction : List TemplatePiece :=
  [.text "static inline bool ".toList, .expr .namespaceName,
    .text "_is_valid_op(uint32_t op)\n\x7b\n    switch (op) \x7b\n".toList, .forIn .operations,
    .text "\n    case ".toList, .expr .namespaceUpper, .text "_OP_".toList, .expr .opNameUpper,
    .text ":\n".toList, .endFor,
    .text "\n        return true;\n    default:\n        return false;\n    \x7d\n\x7d\n".toList]

/-- `cpp_opcodes.hpp.j2`, the enumeration. -/
def cppEnum : List TemplatePiece :=
  [.text "enum class Op : uint32_t \x7b\n".toList, .forIn .operations, .text "\n    ".toList,
    .expr .opNameUpper, .text " = ".toList, .expr .opOpcodeHex, .text ",  ///< ".toList, .expr .opDoc,
    .text "\n".toList, .endFor, .text "\n\x7d;\n".toList]

/-- `cpp_opcodes.hpp.j2`, the function. -/
def cppFunction : List TemplatePiece :=
  [.text ("[[nodiscard]] inline bool validate_opcode(uint32_t op) noexcept \x7b\n".toList ++
      "    switch (static_cast<Op>(op)) \x7b\n    case ".toList),
    .forIn .operations, .text "Op::".toList, .expr .opNameUpper, .ifThen .notLast,
    .text ": case ".toList, .endIf, .endFor,
    .text ":\n        return true;\n    default:\n        return false;\n    \x7d\n\x7d\n".toList]

/-- The filter `hex`: `f"0x{v:04X}U"`. -/
def hexFilter (v : Int) : List Char :=
  let digits := hexDigits v.natAbs
  if v < 0 then "0x-".toList ++ (List.replicate (3 - digits.length) '0' ++ digits) ++ ['U']
  else "0x".toList ++ (List.replicate (4 - digits.length) '0' ++ digits) ++ ['U']

/-- Where a template is evaluated: inside of the loops there are `op`, `reg`, `bit` and
`loop.last`. The templates above use each inside of its loop only. -/
structure Scope where
  op : Option OperationDef := none
  reg : Option RegisterDef := none
  bit : Option BitField := none
  last : Bool := false

/-- One scope for each operation. -/
def loopScopes : List OperationDef → List Scope
  | [] => []
  | op :: rest => { op := some op, last := rest.isEmpty } :: loopScopes rest

/-- The expressions, for a descriptor. -/
def templateInterp (upper : List Char → List Char) (desc : HwipDescriptor) :
    Interp TemplateExpr TemplateCond TemplateLoop Scope where
  eval scope
    | .descNameUpper => upper desc.name.toList
    | .namespaceName => desc.namespaceOrDefault.toList
    | .namespaceUpper => upper desc.namespaceOrDefault.toList
    | .opNameUpper => ((scope.op).map fun op => upper op.name.toList).getD []
    | .opOpcodeHex => ((scope.op).map fun op => hexFilter op.opcode).getD []
    | .opDoc => ((scope.op).map fun op => op.doc.toList).getD []
    | .regNameUpper => ((scope.reg).map fun reg => upper reg.name.toList).getD []
    | .regOffsetHex => ((scope.reg).map fun reg => hexFilter reg.offset).getD []
    | .bitName => ((scope.bit).map fun bit => bit.name.toList).getD []
    | .bitPos => ((scope.bit).map fun bit => Nat.toDigits 10 bit.pos.val).getD []
  test scope
    | .notLast => !scope.last
  items scope
    | .operations => loopScopes desc.operations
    | .registers => desc.allRegisters.map fun reg => { reg := some reg }
    | .bits => ((scope.reg).map fun reg => reg.bits.map fun bit =>
        { reg := some reg, bit := some bit }).getD []

/-- `BaseGenerator._render`. -/
def renderFragment (upper : List Char → List Char) (desc : HwipDescriptor)
    (template : List TemplatePiece) : Option (List Char) :=
  render? (templateInterp upper desc) {} template

/-! ## Reading the text back -/

/-- The `#define`s of constants: names and values. -/
def parseDefines : List Tok → Option (List (List Char × Nat))
  | [] => some []
  | .newline :: rest => parseDefines rest
  | .punct '#' :: .ident d :: .ident name :: .num v :: .newline :: rest =>
    if d = "define".toList then (parseDefines rest).map ((name, v) :: ·) else none
  | _ => none

/-- The `#define` of a macro with one parameter: its name, the parameter and the expression
that it stands for. -/
def parseMacro (text : List Char) : Option (List Char × List Char × CExpr) :=
  match scan [] (splice text) with
  | .other '#' :: .word d :: .other ' ' :: .word name :: .other '(' :: .word param :: .other ')' ::
      .other ' ' :: body =>
    if d = "define".toList ∧ classify name = .ident name then
      (parseExpr ((glue body).takeWhile (· != .newline))).map fun e => (name, param, e)
    else none
  | _ => none

/-- `case <macro>:`, as often as it comes, and the rest. -/
def caseLabels : List Tok → List (List Char) × List Tok
  | .ident k :: .ident label :: .punct ':' :: rest =>
    if k = "case".toList then (label :: (caseLabels rest).1, (caseLabels rest).2)
    else ([], .ident k :: .ident label :: .punct ':' :: rest)
  | toks => ([], toks)

/-- `case Op::<enumerator>:`, as often as it comes, and the rest. -/
def scopedLabels : List Tok → List (List Char) × List Tok
  | .ident k :: .ident enum :: .scope :: .ident label :: .punct ':' :: rest =>
    if k = "case".toList ∧ enum = "Op".toList then
      (label :: (scopedLabels rest).1, (scopedLabels rest).2)
    else ([], .ident k :: .ident enum :: .scope :: .ident label :: .punct ':' :: rest)
  | toks => ([], toks)

/-- How both functions end, behind their labels. -/
def switchTail : List Tok :=
  [.ident "return".toList, .ident "true".toList, .punct ';', .ident "default".toList, .punct ':',
    .ident "return".toList, .ident "false".toList, .punct ';', .punct '}', .punct '}']

def firmwareHead : List Tok :=
  [.ident "static".toList, .ident "inline".toList, .ident "bool".toList]

def firmwareSwitch : List Tok :=
  [.punct '(', .ident "uint32_t".toList, .ident "op".toList, .punct ')', .punct '{',
    .ident "switch".toList, .punct '(', .ident "op".toList, .punct ')', .punct '{']

/-- The name of the inline function and its labels. -/
def parseFirmware (toks : List Tok) : Option (List Char × List (List Char)) :=
  match firmwareHead.isPrefixOf? toks with
  | some (.ident name :: rest) =>
    (firmwareSwitch.isPrefixOf? rest).bind fun body =>
      if (caseLabels body).2 = switchTail then some (name, (caseLabels body).1) else none
  | _ => none

def cppHead : List Tok :=
  [.punct '[', .punct '[', .ident "nodiscard".toList, .punct ']', .punct ']', .ident "inline".toList,
    .ident "bool".toList, .ident "validate_opcode".toList, .punct '(', .ident "uint32_t".toList,
    .ident "op".toList, .punct ')', .ident "noexcept".toList, .punct '{', .ident "switch".toList,
    .punct '(', .ident "static_cast".toList, .punct '<', .ident "Op".toList, .punct '>', .punct '(',
    .ident "op".toList, .punct ')', .punct ')', .punct '{']

/-- The labels of `validate_opcode`. -/
def parseCpp (toks : List Tok) : Option (List (List Char)) :=
  (cppHead.isPrefixOf? toks).bind fun body =>
    if (scopedLabels body).2 = switchTail then some (scopedLabels body).1 else none

def enumHead : List Tok :=
  [.ident "enum".toList, .ident "class".toList, .ident "Op".toList, .punct ':',
    .ident "uint32_t".toList, .punct '{']

/-- `<name> = <value>,`, up to the end of the enumeration. -/
def enumerators : List Tok → Option (List (List Char × Nat))
  | .ident name :: .punct '=' :: .num v :: .punct ',' :: rest =>
    (enumerators rest).map ((name, v) :: ·)
  | [.punct '}', .punct ';'] => some []
  | _ => none

/-! ## The property -/

/-- The constants have distinct names, every label is one of them, no two labels have the
same value, and the values are the opcodes. -/
def SwitchRight (constants : List (List Char × Nat)) (labels : List (List Char))
    (opcodes : List Int) : Prop :=
  (constants.map Prod.fst).Nodup ∧ ∃ values, labels.mapM (fun label => constants.lookup label) =
    some values ∧ values.Nodup ∧ ∀ op : UInt32, op.toNat ∈ values ↔ (op.toNat : Int) ∈ opcodes

/-- `<NS>_OP_<NAME>`, the macro of an operation's opcode. -/
def opMacro (nsUpper : List Char) (nameUpper : OperationDef → List Char) (op : OperationDef) :
    List Char :=
  nsUpper ++ ("_OP_".toList ++ nameUpper op)

/-- `<NS>_REG_<NAME>`, the macro of a register's offset. -/
def regMacro (nsUpper nameUpper : List Char) : List Char :=
  nsUpper ++ ("_REG_".toList ++ nameUpper)

/-- `<NS>_<REG>_<BIT>`, the macro of a bit's mask. -/
def bitMacro (nsUpper nameUpper : List Char) (bit : BitField) : List Char :=
  nsUpper ++ ("_".toList ++ (nameUpper ++ ("_".toList ++ bit.name.toList)))

/-- `DEEPSPAN_<NAME>_H`, the include guard of the kernel header. -/
def guardMacro (nameUpper : List Char) : List Char :=
  "DEEPSPAN_".toList ++ (nameUpper ++ "_H".toList)

/-- `(1U << <pos>)`. -/
def bitMask (bit : BitField) : List Char :=
  "(1U << ".toList ++ (Nat.toDigits 10 bit.pos.val ++ ")".toList)

section Property

variable (upper : List Char → List Char) (desc : HwipDescriptor)

def HwipDescriptor.opcodes : List Int := desc.operations.map OperationDef.opcode

/-- The macros of the offsets, and those of the bits. -/
def HwipDescriptor.regLabels : List (List Char) :=
  desc.allRegisters.map fun reg =>
    regMacro (upper desc.namespaceOrDefault.toList) (upper reg.name.toList)

def HwipDescriptor.bitLabels : List (List Char) :=
  desc.allRegisters.flatMap fun reg => reg.bits.map
    (bitMacro (upper desc.namespaceOrDefault.toList) (upper reg.name.toList))

/-- What `c_kernel.h.j2` defines beside the opcodes and the validator. -/
def otherMacros : List (List TemplatePiece) := [kernelGuard, kernelRegisters, kernelBits]

/-- The macros that a part of the kernel header defines; `none` if it has lines other than
`#define`s. -/
def definedNames? (template : List TemplatePiece) : Option (List (List Char)) :=
  (renderFragment upper desc template).bind fun text => macroNames false (codeLines text)

/-- No part defines the name. -/
def NotDefined (templates : List (List TemplatePiece)) (name : List Char) : Prop :=
  ∀ template ∈ templates, ∃ names, definedNames? upper desc template = some names ∧ name ∉ names

/-- `<NS>_IS_VALID_OP`. -/
def HwipDescriptor.validatorMacro : List Char :=
  upper desc.namespaceOrDefault.toList ++ "_IS_VALID_OP".toList

/-- The macro is well formed, is defined once and is true of the opcodes. -/
def KernelRight : Prop :=
  ∃ text, renderFragment upper desc kernelMacro = some text ∧ backslashesOk text = true ∧
    parensBalance text = true ∧ NotDefined upper desc otherMacros (desc.validatorMacro upper) ∧
    ∃ param e, parseMacro text = some (desc.validatorMacro upper, param, e) ∧
      ∀ op : UInt32, e.eval (fun w => if w = param then op.toNat else 0) ≠ 0 ↔
        (op.toNat : Int) ∈ desc.opcodes

/-- The labels that the inline function has. -/
def HwipDescriptor.macroLabels : List (List Char) :=
  desc.operations.map
    (opMacro (upper desc.namespaceOrDefault.toList) fun op => upper op.name.toList)

/-- The labels that `validate_opcode` has. -/
def HwipDescriptor.enumLabels : List (List Char) :=
  desc.operations.map fun op => upper op.name.toList

/-- `<ns>_is_valid_op`. -/
def HwipDescriptor.validatorFunction : List Char :=
  desc.namespaceOrDefault.toList ++ "_is_valid_op".toList

/-- The inline function is well formed, with the opcode macros of the kernel header, has a
label for every operation and returns true for the opcodes. No other macro changes it. -/
def FirmwareRight : Prop :=
  ∃ text header constants, renderFragment upper desc firmwareFunction = some text ∧
    renderFragment upper desc kernelConstants = some header ∧
    parseFirmware (tokens text) = some (desc.validatorFunction, desc.macroLabels upper) ∧
    parseDefines (codeLines header) = some constants ∧
    SwitchRight constants (desc.macroLabels upper) desc.opcodes ∧
    ∀ w, Tok.ident w ∈ tokens text → NotDefined upper desc otherMacros w

/-- The enumerators with their values. -/
def HwipDescriptor.enumConstants : List (List Char × Nat) :=
  desc.operations.map fun op => (upper op.name.toList, op.opcode.toNat)

/-- `validate_opcode` is well formed, with the enumeration of the operations, has a label for
every operation and returns true for the opcodes. -/
def CppRight : Prop :=
  ∃ text header, renderFragment upper desc cppFunction = some text ∧
    renderFragment upper desc cppEnum = some header ∧
    parseCpp (tokens text) = some (desc.enumLabels upper) ∧
    (enumHead.isPrefixOf? (codeTokens .code header)).bind enumerators =
      some (desc.enumConstants upper) ∧
    SwitchRight (desc.enumConstants upper) (desc.enumLabels upper) desc.opcodes

/-- All three validators are. -/
structure ValidatorsRight : Prop where
  kernel : KernelRight upper desc
  firmware : FirmwareRight upper desc
  cpp : CppRight upper desc

/-- The namespace begins an identifier, in either case, and the upper-cased names of the
operations are identifiers. -/
structure NamesOk : Prop where
  nsLower : IsIdentStart desc.namespaceOrDefault.toList
  nsUpper : IsIdentStart (upper desc.namespaceOrDefault.toList)
  ops : ∀ op ∈ desc.operations, IsIdent (upper op.name.toList)

/-- A documentation text is a comment and no more: behind it, the enumeration ends. This
holds of every text of one line that does not end in a backslash (`docOk_of_line`). -/
def DocOk (doc : List Char) : Prop :=
  codeTokens .line (doc ++ '\n' :: "\x7d;\n".toList) = [.punct '}', .punct ';']

/-- The words of the inline function of which every validator of the firmware has the same. -/
def firmwareWords : List (List Char) :=
  ["static".toList, "inline".toList, "bool".toList, "uint32_t".toList, "op".toList,
    "switch".toList, "case".toList, "return".toList, "true".toList, "default".toList,
    "false".toList]

/-- None of the names that the validators are written with is that of another macro of the
kernel header. -/
def MacrosApart : Prop :=
  ∀ w ∈ desc.validatorMacro upper :: desc.validatorFunction ::
    (desc.macroLabels upper ++ firmwareWords), NotDefined upper desc otherMacros w

end Property

/-! ## The texts -/

/-- One line for each operation; a line may depend on whether it is the last. -/
def opLines (line : OperationDef → Bool → List Char) : List OperationDef → List Char
  | [] => []
  | op :: rest => line op rest.isEmpty ++ opLines line rest

theorem flatMap_loopScopes (f : Scope → List Char) (ops : List OperationDef) :
    (loopScopes ops).flatMap f =
      opLines (fun op last => f { op := some op, last := last }) ops := by
  induction ops with
  | nil => rfl
  | cons op rest ih => rw [loopScopes, List.flatMap_cons, ih, opLines]

section Lines

variable (nsUpper : List Char) (nameUpper : OperationDef → List Char)

/-- `#define <name>    <text>`. -/
def defineLine (name text : List Char) : List Char :=
  "#define ".toList ++ (name ++ ("    ".toList ++ (text ++ "\n".toList)))

def constantLine (op : OperationDef) (_ : Bool) : List Char :=
  defineLine (opMacro nsUpper nameUpper op) (hexFilter op.opcode)

/-- A line of the macro. The newline that the template has behind the backslash is gone. -/
def macroLine (op : OperationDef) (last : Bool) : List Char :=
  "    (op) == ".toList ++ (hexFilter op.opcode ++ if !last then " || \\".toList else ")".toList)

def caseLine (op : OperationDef) (_ : Bool) : List Char :=
  "    case ".toList ++ (opMacro nsUpper nameUpper op ++ ":\n".toList)

/-- `<name> = <value>,  ///< <doc>`. -/
def enumeratorLine (name value doc : List Char) : List Char :=
  "    ".toList ++ (name ++ (" = ".toList ++ (value ++
    (",  ///< ".toList ++ (doc ++ "\n".toList)))))

def enumLine (op : OperationDef) (_ : Bool) : List Char :=
  enumeratorLine (nameUpper op) (hexFilter op.opcode) op.doc.toList

def scopedCase (op : OperationDef) (last : Bool) : List Char :=
  "Op::".toList ++ (nameUpper op ++ if !last then ": case ".toList else [])

end Lines

section Texts

variable (upper : List Char → List Char) (desc : HwipDescriptor)

theorem render_kernelMacro : renderFragment upper desc kernelMacro =
    some ("#define ".toList ++ (upper desc.namespaceOrDefault.toList ++
      ("_IS_VALID_OP(op) ( \\\n".toList ++
      (opLines macroLine desc.operations ++ "\n".toList)))) := by
  have hraw : renderFragment upper desc kernelMacro =
      some ("#define ".toList ++ (upper desc.namespaceOrDefault.toList ++
      ("_IS_VALID_OP(op) ( \\\n".toList ++
        ((loopScopes desc.operations).flatMap (fun scope =>
          "    (op) == ".toList ++ (((scope.op).map fun op => hexFilter op.opcode).getD [] ++
            ((if !scope.last then " || \\".toList ++ [] else ")".toList ++ []) ++ ([] ++ [])))) ++
              ("\n".toList ++ []))))) := by
    unfold renderFragment kernelMacro
    repeat rw [String.toList_ofList]
    rfl
  rw [hraw, flatMap_loopScopes]
  simp only [List.append_nil]
  rfl

theorem render_kernelConstants : renderFragment upper desc kernelConstants =
    some (opLines (constantLine (upper desc.namespaceOrDefault.toList) fun op => upper op.name.toList)
      desc.operations) := by
  have hraw : renderFragment upper desc kernelConstants =
      some ((loopScopes desc.operations).flatMap (fun scope =>
        "#define ".toList ++ (upper desc.namespaceOrDefault.toList ++ ("_OP_".toList ++
          (((scope.op).map fun op => upper op.name.toList).getD [] ++
          ("    ".toList ++ (((scope.op).map fun op => hexFilter op.opcode).getD [] ++
            ("\n".toList ++ []))))))) ++ ([] ++ [])) := by
    unfold renderFragment kernelConstants
    repeat rw [String.toList_ofList]
    rfl
  rw [hraw, flatMap_loopScopes]
  unfold constantLine defineLine opMacro
  simp only [List.append_nil, List.append_assoc]
  rfl

theorem render_kernelGuard : renderFragment upper desc kernelGuard =
    some ("#define ".toList ++ (guardMacro (upper desc.name.toList) ++ "\n".toList)) := by
  have hraw : renderFragment upper desc kernelGuard =
      some ("#define DEEPSPAN_".toList ++ (upper desc.name.toList ++ ("_H\n".toList ++ []))) := by
    unfold renderFragment kernelGuard
    repeat rw [String.toList_ofList]
    rfl
  rw [hraw]
  unfold guardMacro
  repeat rw [String.toList_ofList]
  simp only [List.append_assoc, List.cons_append, List.nil_append]

theorem render_kernelRegisters : renderFragment upper desc kernelRegisters =
    some (desc.allRegisters.flatMap fun reg => defineLine
      (regMacro (upper desc.namespaceOrDefault.toList) (upper reg.name.toList))
      (hexFilter reg.offset)) := by
  have hraw : renderFragment upper desc kernelRegisters =
      some ((desc.allRegisters.map fun reg => ({ reg := some reg } : Scope)).flatMap (fun scope =>
        "#define ".toList ++ (upper desc.namespaceOrDefault.toList ++ ("_REG_".toList ++
          (((scope.reg).map fun reg => upper reg.name.toList).getD [] ++ ("    ".toList ++
            (((scope.reg).map fun reg => hexFilter reg.offset).getD [] ++ ("\n".toList ++ []))))))) ++
          ([] ++ [])) := by
    unfold renderFragment kernelRegisters
    repeat rw [String.toList_ofList]
    rfl
  rw [hraw, List.flatMap_map]
  unfold defineLine regMacro
  simp only [List.append_nil, List.append_assoc]
  rfl

theorem render_kernelBits : renderFragment upper desc kernelBits =
    some (desc.allRegisters.flatMap fun reg => reg.bits.flatMap fun bit => defineLine
      (bitMacro (upper desc.namespaceOrDefault.toList) (upper reg.name.toList) bit)
      (bitMask bit)) := by
  have hraw : renderFragment upper desc kernelBits =
      some ((desc.allRegisters.map fun reg => ({ reg := some reg } : Scope)).flatMap (fun scope =>
        [] ++ ((((scope.reg).map fun reg => reg.bits.map fun bit =>
          ({ reg := some reg, bit := some bit } : Scope)).getD []).flatMap (fun scope =>
            "#define ".toList ++ (upper desc.namespaceOrDefault.toList ++ ("_".toList ++
              (((scope.reg).map fun reg => upper reg.name.toList).getD [] ++ ("_".toList ++
                (((scope.bit).map fun bit => bit.name.toList).getD [] ++ ("    (1U << ".toList ++
                  (((scope.bit).map fun bit => Nat.toDigits 10 bit.pos.val).getD [] ++
                    (")\n".toList ++ []))))))))) ++ ([] ++ []))) ++ ([] ++ [])) := by
    unfold renderFragment kernelBits
    repeat rw [String.toList_ofList]
    rfl
  have hmask : "    (1U << ".toList = "    ".toList ++ "(1U << ".toList := by
    repeat rw [String.toList_ofList]
    rfl
  have hclose : ")\n".toList = ")".toList ++ "\n".toList := by
    repeat rw [String.toList_ofList]
    rfl
  rw [hraw, List.flatMap_map]
  unfold defineLine bitMacro bitMask
  simp only [List.append_nil, List.nil_append, List.append_assoc, hmask, hclose, Option.map_some,
    Option.getD_some, List.flatMap_map]

theorem render_firmwareFunction : renderFragment upper desc firmwareFunction =
    some ("static inline bool ".toList ++ (desc.namespaceOrDefault.toList ++
      ("_is_valid_op(uint32_t op)\n\x7b\n    switch (op) \x7b\n".toList ++
        (opLines (caseLine (upper desc.namespaceOrDefault.toList) fun op => upper op.name.toList)
      desc.operations ++
          "        return true;\n    default:\n        return false;\n    \x7d\n\x7d\n".toList)))) := by
  have hraw : renderFragment upper desc firmwareFunction =
      some ("static inline bool ".toList ++ (desc.namespaceOrDefault.toList ++
        ("_is_valid_op(uint32_t op)\n\x7b\n    switch (op) \x7b\n".toList ++
          ((loopScopes desc.operations).flatMap (fun scope =>
            "    case ".toList ++ (upper desc.namespaceOrDefault.toList ++ ("_OP_".toList ++
              (((scope.op).map fun op => upper op.name.toList).getD [] ++ (":\n".toList ++ []))))) ++
          ("        return true;\n    default:\n        return false;\n    \x7d\n\x7d\n".toList ++
            []))))) := by
    unfold renderFragment firmwareFunction
    repeat rw [String.toList_ofList]
    rfl
  rw [hraw, flatMap_loopScopes]
  unfold caseLine opMacro
  simp only [List.append_nil, List.append_assoc]
  rfl

theorem render_cppEnum : renderFragment upper desc cppEnum =
    some ("enum class Op : uint32_t \x7b\n".toList ++
      (opLines (enumLine fun op => upper op.name.toList) desc.operations ++ "\x7d;\n".toList)) := by
  have hraw : renderFragment upper desc cppEnum =
      some ("enum class Op : uint32_t \x7b\n".toList ++
        ((loopScopes desc.operations).flatMap (fun scope =>
          "    ".toList ++ (((scope.op).map fun op => upper op.name.toList).getD [] ++ (" = ".toList ++
            (((scope.op).map fun op => hexFilter op.opcode).getD [] ++ (",  ///< ".toList ++
              (((scope.op).map fun op => op.doc.toList).getD [] ++ ("\n".toList ++ []))))))) ++
          ("\x7d;\n".toList ++ []))) := by
    unfold renderFragment cppEnum
    repeat rw [String.toList_ofList]
    rfl
  rw [hraw, flatMap_loopScopes]
  simp only [List.append_nil]
  rfl

theorem render_cppFunction : renderFragment upper desc cppFunction =
    some (("[[nodiscard]] inline bool validate_opcode(uint32_t op) noexcept \x7b\n".toList ++
        "    switch (static_cast<Op>(op)) \x7b\n    case ".toList) ++
      (opLines (scopedCase fun op => upper op.name.toList) desc.operations ++
        ":\n        return true;\n    default:\n        return false;\n    \x7d\n\x7d\n".toList)) := by
  have hraw : renderFragment upper desc cppFunction =
      some (("[[nodiscard]] inline bool validate_opcode(uint32_t op) noexcept \x7b\n".toList ++
          "    switch (static_cast<Op>(op)) \x7b\n    case ".toList) ++
        ((loopScopes desc.operations).flatMap (fun scope =>
          "Op::".toList ++ (((scope.op).map fun op => upper op.name.toList).getD [] ++
            ((if !scope.last then ": case ".toList ++ [] else []) ++ []))) ++
          (":\n        return true;\n    default:\n        return false;\n    \x7d\n\x7d\n".toList ++
            []))) := by
    unfold renderFragment cppFunction
    repeat rw [String.toList_ofList]
    rfl
  rw [hraw, flatMap_loopScopes]
  simp only [List.append_nil]
  rfl

end Texts

end Deepspan
