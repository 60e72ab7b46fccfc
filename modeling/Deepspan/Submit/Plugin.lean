import Deepspan.Dispatch
import Deepspan.Handshake

/-!
# Submitting through a plugin

`AccelPlugin::submit` and `Crc32Plugin::submit` are the same program over the
same registers. They differ in one place, the way the payload becomes a command
(`accelCmd`, `crc32Cmd`); everything after it is `Sub.exec`, one step for each
access of the segment. The client side of `HwipServiceImpl::SubmitRequest` is
`submitRequestReply`.

A submit whose plugin has not mapped the segment throws before it touches
anything; the calls below are those of mapped plugins.
-/

namespace Deepspan

/-- `SubmitRequestRequest`: the device, the opcode and the payload. -/
structure Call where
  deviceId : String
  opcode : UInt32
  payload : List UInt8
deriving DecidableEq, Repr

/-- The plugins of the repository. -/
inductive PluginKind where
  | accel
  | crc32
deriving DecidableEq, Repr

/-- `fixed_args` encoding: `arg0` and `arg1` from the payload bytes, each `0`
when the payload is too short for it. -/
def fixedArgs (payload : List UInt8) : UInt32 × UInt32 :=
  (if 4 ≤ payload.length then (readLe32 payload).getD 0 else 0,
    if 8 ≤ payload.length then (readLe32 (payload.drop 4)).getD 0 else 0)

/-- The command of `AccelPlugin::submit`. -/
def accelCmd (call : Call) : Cmd :=
  ⟨call.opcode, (fixedArgs call.payload).1, (fixedArgs call.payload).2, []⟩

/-- The command of `Crc32Plugin::submit`: COMPUTE copies as much of the payload
as fits into the DMA window and passes that length in `arg0`. -/
def crc32Cmd (call : Call) : Cmd :=
  if call.opcode = Crc32Op.compute then
    let len := min call.payload.length shmDmaMaxLen
    ⟨call.opcode, UInt32.ofNat len, 0, call.payload.take len⟩
  else ⟨call.opcode, (fixedArgs call.payload).1, (fixedArgs call.payload).2, []⟩

def PluginKind.cmd : PluginKind → Call → Cmd
  | .accel => accelCmd
  | .crc32 => crc32Cmd

theorem crc32Cmd_compute {call : Call} (h : call.opcode = Crc32Op.compute) :
    crc32Cmd call = ⟨Crc32Op.compute, UInt32.ofNat (min call.payload.length shmDmaMaxLen), 0,
      call.payload.take (min call.payload.length shmDmaMaxLen)⟩ := by
  simp only [crc32Cmd, h, if_true]

/-- Whatever a plugin copies fits into the window. -/
theorem PluginKind.cmd_dma_length (kind : PluginKind) (call : Call) :
    (kind.cmd call).dma.length ≤ shmDmaMaxLen := by
  cases kind with
  | accel => exact Nat.zero_le _
  | crc32 =>
    simp only [PluginKind.cmd, crc32Cmd]
    split
    · simp only [List.length_take]
      omega
    · exact Nat.zero_le _

@[simp] theorem PluginKind.cmd_opcode (kind : PluginKind) (call : Call) :
    (kind.cmd call).opcode = call.opcode := by
  cases kind with
  | accel => rfl
  | crc32 =>
    simp only [PluginKind.cmd, crc32Cmd]
    split <;> rfl

/-- `kMaxPolls`: 50 000 × 100 µs. -/
def kMaxPolls : Nat := 50000

/-- Program points of `submit`, each named after what it is about to do, with
the local variables that are still live there. -/
inductive SubmitPc where
  | lock
  | copyDma
  | storeOpcode
  | storeArg0
  | storeArg1
  | orStart
  | poll (i : Nat)
  | loadResult0
  | loadResult1 (r0 : UInt32)
  | returned (r0 r1 : UInt32)
  | threw
deriving DecidableEq, Repr

/-- One call of `submit` on the plugin instance `inst`. `mark` is history: the
number of handler invocations when the call set START. -/
structure Sub where
  inst : Nat
  call : Call
  pc : SubmitPc
  mark : Nat
deriving DecidableEq, Repr

/-- The call holds its plugin's `submit_mutex_`. -/
def SubmitPc.locked : SubmitPc → Bool
  | .lock | .returned _ _ | .threw => false
  | _ => true

/-- The call has ended, with a result or with an exception. -/
def SubmitPc.ended : SubmitPc → Bool
  | .returned _ _ | .threw => true
  | .lock | .copyDma | .storeOpcode | .storeArg0 | .storeArg1 | .orStart | .poll _ | .loadResult0
  | .loadResult1 _ => false

/-- The call is past its START step and has not ended. -/
def SubmitPc.pastStart : SubmitPc → Bool
  | .poll _ | .loadResult0 | .loadResult1 _ => true
  | .lock | .copyDma | .storeOpcode | .storeArg0 | .storeArg1 | .orStart | .returned _ _
  | .threw => false

/-- The next step of a call, and the segment after it. Taking `submit_mutex_` is
unconditional here; whether it can be taken is up to the other calls. -/
def Sub.exec (kind : PluginKind) (sub : Sub) (hw : HwModel) : Option (Sub × Segment) :=
  let cmd := kind.cmd sub.call
  match sub.pc with
  | .lock => some ({ sub with pc := .copyDma }, hw.seg)
  | .copyDma => some ({ sub with pc := .storeOpcode }, hw.seg.copyDma cmd.dma)
  | .storeOpcode =>
    some ({ sub with pc := .storeArg0 }, hw.seg.withReg fun r => { r with cmdOpcode := cmd.opcode })
  | .storeArg0 =>
    some ({ sub with pc := .storeArg1 }, hw.seg.withReg fun r => { r with cmdArg0 := cmd.arg0 })
  | .storeArg1 =>
    some ({ sub with pc := .orStart }, hw.seg.withReg fun r => { r with cmdArg1 := cmd.arg1 })
  | .orStart =>
    some ({ sub with pc := .poll 0, mark := hw.log.length },
      hw.seg.withReg fun r => { r with ctrl := r.ctrl ||| CtrlBits.start })
  | .poll i =>
    if i < kMaxPolls then
      some ({ sub with pc := if hw.seg.reg.started then .poll (i + 1) else .loadResult0 }, hw.seg)
    else some ({ sub with pc := .threw }, hw.seg)
  | .loadResult0 => some ({ sub with pc := .loadResult1 hw.seg.reg.resultData0 }, hw.seg)
  | .loadResult1 r0 => some ({ sub with pc := .returned r0 hw.seg.reg.resultData1 }, hw.seg)
  | .returned _ _ | .threw => none

/-- The steps of a call, each with the program point it is taken at. -/
inductive SubStep (kind : PluginKind) (hw : HwModel) (sub : Sub) : Sub → Segment → Prop
  | lock : sub.pc = .lock → SubStep kind hw sub { sub with pc := .copyDma } hw.seg
  | copyDma : sub.pc = .copyDma →
      SubStep kind hw sub { sub with pc := .storeOpcode } (hw.seg.copyDma (kind.cmd sub.call).dma)
  | storeOpcode : sub.pc = .storeOpcode →
      SubStep kind hw sub { sub with pc := .storeArg0 }
        (hw.seg.withReg fun r => { r with cmdOpcode := (kind.cmd sub.call).opcode })
  | storeArg0 : sub.pc = .storeArg0 →
      SubStep kind hw sub { sub with pc := .storeArg1 }
        (hw.seg.withReg fun r => { r with cmdArg0 := (kind.cmd sub.call).arg0 })
  | storeArg1 : sub.pc = .storeArg1 →
      SubStep kind hw sub { sub with pc := .orStart }
        (hw.seg.withReg fun r => { r with cmdArg1 := (kind.cmd sub.call).arg1 })
  | orStart : sub.pc = .orStart →
      SubStep kind hw sub { sub with pc := .poll 0, mark := hw.log.length }
        (hw.seg.withReg fun r => { r with ctrl := r.ctrl ||| CtrlBits.start })
  | pollSet {i : Nat} : sub.pc = .poll i → i < kMaxPolls → hw.seg.reg.started = true →
      SubStep kind hw sub { sub with pc := .poll (i + 1) } hw.seg
  | pollClear {i : Nat} : sub.pc = .poll i → i < kMaxPolls → hw.seg.reg.started = false →
      SubStep kind hw sub { sub with pc := .loadResult0 } hw.seg
  | pollLimit {i : Nat} : sub.pc = .poll i → ¬i < kMaxPolls →
      SubStep kind hw sub { sub with pc := .threw } hw.seg
  | loadResult0 : sub.pc = .loadResult0 →
      SubStep kind hw sub { sub with pc := .loadResult1 hw.seg.reg.resultData0 } hw.seg
  | loadResult1 {r0 : UInt32} : sub.pc = .loadResult1 r0 →
      SubStep kind hw sub { sub with pc := .returned r0 hw.seg.reg.resultData1 } hw.seg

theorem exec_cases {kind : PluginKind} {hw : HwModel} {sub sub' : Sub} {seg' : Segment}
    (hs : sub.exec kind hw = some (sub', seg')) : SubStep kind hw sub sub' seg' := by
  unfold Sub.exec at hs
  cases hp : sub.pc with
  | poll i =>
    simp only [hp] at hs
    split at hs
    · next hlt =>
      cases hs
      by_cases hst : hw.seg.reg.started = true
      · rw [if_pos hst]
        exact .pollSet hp hlt hst
      · rw [if_neg hst]
        exact .pollClear hp hlt (Bool.not_eq_true _ ▸ hst)
    · next hge =>
      cases hs
      exact .pollLimit hp hge
  | returned _ _ | threw => simp only [hp] at hs; cases hs
  | _ =>
    simp only [hp] at hs
    cases hs
    constructor
    exact hp

/-! ## Results -/

/-- `SubmitResult`. -/
structure SubmitResult where
  requestId : String
  responseData : List UInt8
deriving DecidableEq, Repr

/-- The result a call has returned, if it has. -/
def Sub.result? (sub : Sub) : Option SubmitResult :=
  match sub.pc with
  | .returned r0 r1 =>
    some ⟨sub.call.deviceId ++ "-" ++ toString sub.call.opcode.toNat, le32 r0 ++ le32 r1⟩
  | _ => none

theorem result?_returned {sub : Sub} {r0 r1 : UInt32} (h : sub.pc = .returned r0 r1) :
    sub.result? = some ⟨sub.call.deviceId ++ "-" ++ toString sub.call.opcode.toNat,
      le32 r0 ++ le32 r1⟩ := by
  simp only [Sub.result?, h]

def PluginKind.className : PluginKind → String
  | .accel => "AccelPlugin"
  | .crc32 => "Crc32Plugin"

/-- The text of the exception a call has thrown, if it has. -/
def Sub.error? (kind : PluginKind) (sub : Sub) : Option String :=
  match sub.pc with
  | .threw =>
    some (kind.className ++ ": submit timeout for " ++ sub.call.deviceId)
  | _ => none

theorem error?_threw (kind : PluginKind) {sub : Sub} (h : sub.pc = .threw) :
    sub.error? kind = some (kind.className ++ ": submit timeout for " ++ sub.call.deviceId) := by
  simp only [Sub.error?, h]

/-- The `grpc::StatusCode`s the server's handlers return. -/
inductive StatusCode where
  | ok
  | invalidArgument
  | notFound
  | internal
deriving DecidableEq, Repr

/-- `grpc::Status` and the `SubmitRequestResponse` that goes with it. -/
structure RpcReply where
  code : StatusCode
  message : String
  requestId : UInt32
  result : List UInt8
deriving DecidableEq, Repr

/-- The reply of `HwipServiceImpl::SubmitRequest` once its plugin's `submit` has
ended. `hash` is `std::hash<std::string>`. -/
def submitRequestReply (hash : String → UInt64) (kind : PluginKind) (sub : Sub) :
    Option RpcReply :=
  match sub.result?, sub.error? kind with
  | some res, _ => some ⟨.ok, "", (hash res.requestId &&& 0xFFFFFFFF).toUInt32, res.responseData⟩
  | none, some what => some ⟨.internal, what, 0, []⟩
  | none, none => none

/-- A successful reply carries exactly the two words that `submit` returned. -/
theorem submitRequestReply_ok {hash : String → UInt64} {kind : PluginKind} {sub : Sub}
    {reply : RpcReply} (h : submitRequestReply hash kind sub = some reply)
    (hok : reply.code = .ok) :
    ∃ r0 r1, sub.pc = .returned r0 r1 ∧ reply.result = le32 r0 ++ le32 r1 := by
  unfold submitRequestReply Sub.result? Sub.error? at h
  cases hp : sub.pc with
  | returned r0 r1 =>
    simp only [hp, Option.some.injEq] at h
    subst h
    exact ⟨r0, r1, rfl, rfl⟩
  | threw =>
    simp only [hp, Option.some.injEq] at h
    subst h
    cases hok
  | _ => simp only [hp] at h; cases h

theorem submitRequestReply_returned (hash : String → UInt64) (kind : PluginKind) {sub : Sub}
    {r0 r1 : UInt32} (h : sub.pc = .returned r0 r1) :
    ∃ reply, submitRequestReply hash kind sub = some reply ∧ reply.code = .ok ∧
      reply.result = le32 r0 ++ le32 r1 := by
  unfold submitRequestReply Sub.result? Sub.error?
  simp only [h, Option.some.injEq, exists_eq_left', and_self]

end Deepspan
