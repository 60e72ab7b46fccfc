import Deepspan.Lib.Transition
import Deepspan.Handshake

/-!
# The firmware simulator

`firmware_sim.cpp` beside the hw-model, from the start of both. The firmware waits for the segment
to appear, for READY, and then sends ECHO commands with arguments made of its own count. The
hw-model sets the segment up step by step while the firmware may already be looking at it, and
either process may be told to stop at any time.

Every action is one access of the segment or one system call, and every interleaving is a run.
-/

namespace Deepspan

open Transition

/-! ## The firmware -/

/-- Program points of `main`, each named after what it is about to do. -/
inductive FwPc where
  | shmOpen (attempt : Nat)
  | mmap
  | loadStatus (i : Nat)
  | loadVersion
  | loadCapabilities (version : UInt32)
  | loop
  | writeOpcode
  | writeArg0
  | writeArg1
  | orStart
  | poll (t : Nat)
  | readStatus
  | readData0 (rs : UInt32)
  | readData1 (rs r0 : UInt32)
  | storeCount
  | returned (code : Nat)
  /-- An access behind the end of the segment's file has raised `SIGBUS`. -/
  | crashed
deriving DecidableEq, Repr

/-- The firmware. `banner`, `results` and `warnings` are what it has printed: the version and the
capabilities, the results and the commands that timed out, these with their numbers. `mark` is
history: the number of handler invocations when it set START. -/
structure FwSim where
  pc : FwPc
  running : Bool
  fwCount : UInt64
  banner : Option (UInt32 × UInt32)
  results : List (UInt64 × Reply)
  warnings : List UInt64
  mark : Nat
deriving DecidableEq, Repr

/-- Command number `n`. -/
def fwCmd (n : UInt64) : Cmd := ⟨0x01, 0xDEAD0000 ||| (n &&& 0xFFFF).toUInt32, n.toUInt32, []⟩

/-- One step of the firmware, with the segment after it. The segment can be opened while it is
`linked`, and accessed once its file has a size. -/
def FwSim.exec (fw : FwSim) (linked sized : Bool) (hw : HwModel) : Option (FwSim × Segment) :=
  match fw.pc with
  | .shmOpen attempt =>
    if attempt < 50 && fw.running then
      some ({ fw with pc := if linked then .mmap else .shmOpen (attempt + 1) }, hw.seg)
    else some ({ fw with pc := .returned 1 }, hw.seg)
  | .mmap => some ({ fw with pc := .loadStatus 0 }, hw.seg)
  | .loadStatus i =>
    if i < 20 && fw.running then
      if sized then
        some ({ fw with pc :=
          if hw.seg.reg.status &&& StatusBits.ready != 0 then .loadVersion else .loadStatus (i + 1) },
          hw.seg)
      else some ({ fw with pc := .crashed }, hw.seg)
    else some ({ fw with pc := .loadVersion }, hw.seg)
  | .loadVersion =>
    if sized then some ({ fw with pc := .loadCapabilities hw.seg.reg.version }, hw.seg)
    else some ({ fw with pc := .crashed }, hw.seg)
  | .loadCapabilities version =>
    some ({ fw with pc := .loop, banner := some (version, hw.seg.reg.capabilities) }, hw.seg)
  | .loop => some ({ fw with pc := if fw.running then .writeOpcode else .returned 0 }, hw.seg)
  | .writeOpcode =>
    some ({ fw with pc := .writeArg0 },
      hw.seg.withReg fun r => { r with cmdOpcode := (fwCmd fw.fwCount).opcode })
  | .writeArg0 =>
    some ({ fw with pc := .writeArg1 },
      hw.seg.withReg fun r => { r with cmdArg0 := (fwCmd fw.fwCount).arg0 })
  | .writeArg1 =>
    some ({ fw with pc := .orStart },
      hw.seg.withReg fun r => { r with cmdArg1 := (fwCmd fw.fwCount).arg1 })
  | .orStart =>
    some ({ fw with pc := .poll 0, mark := hw.log.length },
      hw.seg.withReg fun r => { r with ctrl := r.ctrl ||| CtrlBits.start })
  | .poll t =>
    if t < 2000 && fw.running then
      some ({ fw with pc := if hw.seg.reg.started then .poll (t + 1) else .readStatus }, hw.seg)
    else some ({ fw with pc := .storeCount, warnings := fw.warnings ++ [fw.fwCount] }, hw.seg)
  | .readStatus => some ({ fw with pc := .readData0 hw.seg.reg.resultStatus }, hw.seg)
  | .readData0 rs => some ({ fw with pc := .readData1 rs hw.seg.reg.resultData0 }, hw.seg)
  | .readData1 rs r0 =>
    some ({ fw with
      pc := .storeCount
      results := fw.results ++ [(fw.fwCount, ⟨rs, r0, hw.seg.reg.resultData1⟩)] }, hw.seg)
  | .storeCount =>
    some ({ fw with pc := .loop, fwCount := fw.fwCount + 1 },
      hw.seg.withStats fun st => { st with fwCmdCount := fw.fwCount + 1 })
  | .returned _ | .crashed => none

/-! ## The start of the hw-model -/

/-- Program points of `HwModelServer::init`, with those of `SimTransport::init`, and of `run`. -/
inductive BootPc where
  | shmOpen
  | ftruncate
  | mmap
  | memset
  | writeVersion
  | writeCapabilities
  | writeStatus
  | eventfd
  | storeStartTime
  | storeReady
  | run
  | pollLoop
  /-- `init` has failed, or the loop has ended, and the destructor has run. -/
  | gone
deriving DecidableEq, Repr

/-- The two processes. `linked`: the name of the segment exists; `sized`: its file has been given
its size. -/
structure FwSimState where
  boot : BootPc
  linked : Bool
  sized : Bool
  hw : HwModel
  fw : FwSim

def FwSimState.withSeg (s : FwSimState) (seg : Segment) : FwSimState :=
  { s with hw := { s.hw with seg := seg } }

inductive FwSimAct where
  /-- A step of `init`. -/
  | init
  /-- The call that `init` is at fails. -/
  | initFails
  /-- A step of `poll_loop`. -/
  | device
  /-- `stop`, from the signal handler. -/
  | stop
  /-- `main` returns after the loop. -/
  | hwReturns
  /-- A step of the firmware. -/
  | fw
  /-- The `mmap` of the firmware fails. -/
  | fwMmapFails
  /-- `sighandler` of the firmware. -/
  | signal
  /-- `ResetDevice` of the server. -/
  | resetDevice
deriving DecidableEq, Repr

/-- A step of `init`. -/
def FwSimState.init (startTimeSec : UInt64) (s : FwSimState) : Option FwSimState :=
  match s.boot with
  | .shmOpen => some { s with boot := .ftruncate, linked := true }
  | .ftruncate => some { s with boot := .mmap, sized := true }
  | .mmap => some { s with boot := .memset }
  | .memset => some { s.withSeg (s.hw.seg.withReg fun _ => .zero) with boot := .writeVersion }
  | .writeVersion =>
    some { s.withSeg (s.hw.seg.withReg fun r => { r with version := hwVersion }) with
      boot := .writeCapabilities }
  | .writeCapabilities =>
    some { s.withSeg (s.hw.seg.withReg fun r =>
        { r with capabilities := hwCapsDma ||| hwCapsIrq ||| hwCapsMulti }) with
      boot := .writeStatus }
  | .writeStatus =>
    some { s.withSeg (s.hw.seg.withReg fun r => { r with status := StatusBits.ready }) with
      boot := .eventfd }
  | .eventfd => some { s with boot := .storeStartTime }
  | .storeStartTime =>
    some { s.withSeg (s.hw.seg.withStats fun st => { st with startTimeSec := startTimeSec }) with
      boot := .storeReady }
  | .storeReady =>
    some { s.withSeg (s.hw.seg.withReg fun r => { r with status := StatusBits.ready }) with
      boot := .run }
  | .run => some { s with boot := .pollLoop, hw := { s.hw with running := true } }
  | .pollLoop | .gone => none

/-- A call that fails. The destructor unlinks the name if the segment had been opened. -/
def FwSimState.initFails (s : FwSimState) : Option FwSimState :=
  match s.boot with
  | .shmOpen => some { s with boot := .gone }
  | .ftruncate | .mmap | .eventfd => some { s with boot := .gone, linked := false }
  | _ => none

def FwSimState.step (cfg : HwModelConfig) (startTimeSec : UInt64) (s : FwSimState) :
    FwSimAct → Option FwSimState
  | .init => s.init startTimeSec
  | .initFails => s.initFails
  | .device =>
    if s.boot = .pollLoop then (s.hw.pollLoopStep cfg).map fun hw => { s with hw := hw } else none
  | .stop => some { s with hw := { s.hw with running := false } }
  | .hwReturns =>
    if s.boot = .pollLoop ∧ s.hw.pc = .exited then some { s with boot := .gone, linked := false }
    else none
  | .fw => (s.fw.exec s.linked s.sized s.hw).map fun p => { s.withSeg p.2 with fw := p.1 }
  | .fwMmapFails =>
    if s.fw.pc = .mmap then some { s with fw := { s.fw with pc := .returned 1 } } else none
  | .signal => some { s with fw := { s.fw with running := false } }
  | .resetDevice =>
    some (s.withSeg (s.hw.seg.withReg fun r => { r with ctrl := r.ctrl ||| CtrlBits.reset }))

/-- Both processes are started; `previous` is what an earlier hw-model has left under the name. -/
def FwSimState.initial (previous : Option Segment) : FwSimState where
  boot := .shmOpen
  linked := previous.isSome
  sized := previous.isSome
  hw := ⟨previous.getD .zero, .loop, false, 0, []⟩
  fw := ⟨.shmOpen 0, true, 0, none, [], [], 0⟩

def fwSimSystem (cfg : HwModelConfig) (startTimeSec : UInt64) (previous : Option Segment) :
    System FwSimState FwSimAct where
  init s := s = .initial previous
  step := FwSimState.step cfg startTimeSec

/-- No wait of the firmware runs out: neither that for READY nor that for a result. -/
def waitsSuffice (s : FwSimState) : FwSimAct → Bool
  | .fw =>
    match s.fw.pc with
    | .loadStatus i => i < 20
    | .poll t => t < 2000
    | _ => true
  | _ => true

/-! ## What a step can do -/

/-- The steps of the firmware, each with the program point it is taken at. -/
inductive FwStep (linked sized : Bool) (hw : HwModel) (fw : FwSim) : FwSim → Segment → Prop
  | opened {k : Nat} : fw.pc = .shmOpen k → FwStep linked sized hw fw { fw with pc := .mmap } hw.seg
  | retried {k : Nat} : fw.pc = .shmOpen k →
      FwStep linked sized hw fw { fw with pc := .shmOpen (k + 1) } hw.seg
  | notOpened {k : Nat} : fw.pc = .shmOpen k →
      FwStep linked sized hw fw { fw with pc := .returned 1 } hw.seg
  | mmap : fw.pc = .mmap → FwStep linked sized hw fw { fw with pc := .loadStatus 0 } hw.seg
  | ready {i : Nat} : fw.pc = .loadStatus i → hw.seg.reg.status &&& StatusBits.ready ≠ 0 →
      FwStep linked sized hw fw { fw with pc := .loadVersion } hw.seg
  | notReady {i : Nat} : fw.pc = .loadStatus i →
      FwStep linked sized hw fw { fw with pc := .loadStatus (i + 1) } hw.seg
  | notAwaited {i : Nat} : fw.pc = .loadStatus i → ¬i < 20 ∨ fw.running = false →
      FwStep linked sized hw fw { fw with pc := .loadVersion } hw.seg
  | crashed : fw.pc = .loadVersion ∨ (∃ i, fw.pc = .loadStatus i) →
      FwStep linked sized hw fw { fw with pc := .crashed } hw.seg
  | loadVersion : fw.pc = .loadVersion →
      FwStep linked sized hw fw { fw with pc := .loadCapabilities hw.seg.reg.version } hw.seg
  | loadCapabilities {v : UInt32} : fw.pc = .loadCapabilities v →
      FwStep linked sized hw fw
        { fw with pc := .loop, banner := some (v, hw.seg.reg.capabilities) } hw.seg
  | again : fw.pc = .loop → fw.running = true →
      FwStep linked sized hw fw { fw with pc := .writeOpcode } hw.seg
  | leave : fw.pc = .loop → fw.running = false →
      FwStep linked sized hw fw { fw with pc := .returned 0 } hw.seg
  | writeOpcode : fw.pc = .writeOpcode →
      FwStep linked sized hw fw { fw with pc := .writeArg0 }
        (hw.seg.withReg fun r => { r with cmdOpcode := (fwCmd fw.fwCount).opcode })
  | writeArg0 : fw.pc = .writeArg0 →
      FwStep linked sized hw fw { fw with pc := .writeArg1 }
        (hw.seg.withReg fun r => { r with cmdArg0 := (fwCmd fw.fwCount).arg0 })
  | writeArg1 : fw.pc = .writeArg1 →
      FwStep linked sized hw fw { fw with pc := .orStart }
        (hw.seg.withReg fun r => { r with cmdArg1 := (fwCmd fw.fwCount).arg1 })
  | orStart : fw.pc = .orStart →
      FwStep linked sized hw fw { fw with pc := .poll 0, mark := hw.log.length }
        (hw.seg.withReg fun r => { r with ctrl := r.ctrl ||| CtrlBits.start })
  | pollSet {t : Nat} : fw.pc = .poll t → hw.seg.reg.started = true →
      FwStep linked sized hw fw { fw with pc := .poll (t + 1) } hw.seg
  | pollClear {t : Nat} : fw.pc = .poll t → hw.seg.reg.started = false →
      FwStep linked sized hw fw { fw with pc := .readStatus } hw.seg
  | timedOut {t : Nat} : fw.pc = .poll t → ¬t < 2000 ∨ fw.running = false →
      FwStep linked sized hw fw
        { fw with pc := .storeCount, warnings := fw.warnings ++ [fw.fwCount] } hw.seg
  | readStatus : fw.pc = .readStatus →
      FwStep linked sized hw fw { fw with pc := .readData0 hw.seg.reg.resultStatus } hw.seg
  | readData0 {rs : UInt32} : fw.pc = .readData0 rs →
      FwStep linked sized hw fw { fw with pc := .readData1 rs hw.seg.reg.resultData0 } hw.seg
  | readData1 {rs r0 : UInt32} : fw.pc = .readData1 rs r0 →
      FwStep linked sized hw fw
        { fw with
          pc := .storeCount
          results := fw.results ++ [(fw.fwCount, ⟨rs, r0, hw.seg.reg.resultData1⟩)] } hw.seg
  | storeCount : fw.pc = .storeCount →
      FwStep linked sized hw fw { fw with pc := .loop, fwCount := fw.fwCount + 1 }
        (hw.seg.withStats fun st => { st with fwCmdCount := fw.fwCount + 1 })

theorem fwExec_cases {linked sized : Bool} {hw : HwModel} {fw fw' : FwSim} {seg' : Segment}
    (hs : fw.exec linked sized hw = some (fw', seg')) : FwStep linked sized hw fw fw' seg' := by
  unfold FwSim.exec at hs
  cases hp : fw.pc with
  | shmOpen k =>
    simp only [hp] at hs
    split at hs
    · cases hs
      cases linked with
      | true => exact .opened hp
      | false => exact .retried hp
    · cases hs
      exact .notOpened hp
  | loadStatus i =>
    simp only [hp] at hs
    split at hs
    · split at hs
      · cases hs
        split
        · next hready => exact .ready hp (bne_iff_ne.mp hready)
        · exact .notReady hp
      · cases hs
        exact .crashed (.inr ⟨i, hp⟩)
    · next hlimit =>
      cases hs
      refine .notAwaited hp ?_
      simpa only [Bool.and_eq_true, decide_eq_true_eq, Decidable.not_and_iff_not_or_not,
        Bool.not_eq_true] using hlimit
  | loadVersion =>
    simp only [hp] at hs
    split at hs
    · cases hs
      exact .loadVersion hp
    · cases hs
      exact .crashed (.inl hp)
  | loop =>
    simp only [hp] at hs
    cases hs
    by_cases hrun : fw.running = true
    · rw [if_pos hrun]
      exact .again hp hrun
    · rw [if_neg hrun]
      exact .leave hp (Bool.not_eq_true _ ▸ hrun)
  | poll t =>
    simp only [hp] at hs
    split at hs
    · cases hs
      split
      · next hst => exact .pollSet hp hst
      · next hst => exact .pollClear hp (Bool.not_eq_true _ ▸ hst)
    · next hlimit =>
      cases hs
      refine .timedOut hp ?_
      simpa only [Bool.and_eq_true, decide_eq_true_eq, Decidable.not_and_iff_not_or_not,
        Bool.not_eq_true] using hlimit
  | returned _ | crashed => simp only [hp] at hs; cases hs
  | _ =>
    simp only [hp] at hs
    cases hs
    constructor
    exact hp

end Deepspan
