import Deepspan.Lib.Transition
import Deepspan.Handshake

/-!
# The Zephyr `native_sim` driver

`deepspan_hwip_sim.c` against the hw-model, with each access of a register and
each access of the driver's data one step: calls of `deepspan_hwip_submit_cmd`,
the poll thread that stands in for the interrupt, and the hw-model's loop.

The poll thread acknowledges an interrupt by storing `IRQ_DONE` to `IRQ_STATUS`.
What that store does is a parameter (`AckMode`): on the shared memory that the
driver and the hw-model map it is a plain store (`plain`), while the register map
documents a write-1-to-clear register (`w1c`).

`cmd_done` is a semaphore with limit 1. A call that waits for it may time out as
long as it is not available. The driver has no lock around a call, so calls may
overlap; the kinds of runs at the end of this module are those in which they do
not.
-/

namespace Deepspan

open Transition

/-- The effect of a store to `IRQ_STATUS`. -/
inductive AckMode where
  | plain
  | w1c
deriving DecidableEq, Repr

def AckMode.store : AckMode → UInt32 → UInt32 → UInt32
  | .plain, _, v => v
  | .w1c, irq, v => irq &&& ~~~v

/-- Program points of `poll_thread_fn`. -/
inductive PollThreadPc where
  | load
  | readStatus
  | readData0
  | readData1
  | ack
  | give
deriving DecidableEq, Repr

/-- `struct hwip_sim_data`, and the poll thread that runs on it. -/
structure Driver where
  cmdDone : Bool
  lastStatus : UInt32
  lastResult0 : UInt32
  lastResult1 : UInt32
  thread : PollThreadPc
deriving DecidableEq, Repr

/-- One step of `poll_thread_fn`. -/
def Driver.pollThreadStep (mode : AckMode) (drv : Driver) (seg : Segment) : Driver × Segment :=
  match drv.thread with
  | .load => ({ drv with thread := if seg.reg.irqPending then .readStatus else .load }, seg)
  | .readStatus => ({ drv with thread := .readData0, lastStatus := seg.reg.resultStatus }, seg)
  | .readData0 => ({ drv with thread := .readData1, lastResult0 := seg.reg.resultData0 }, seg)
  | .readData1 => ({ drv with thread := .ack, lastResult1 := seg.reg.resultData1 }, seg)
  | .ack =>
    ({ drv with thread := .give },
      seg.withReg fun r => { r with irqStatus := mode.store r.irqStatus irqDone })
  | .give => ({ drv with thread := .load, cmdDone := true }, seg)

/-- Program points of `deepspan_hwip_submit_cmd`, with what has already been
copied to the caller. -/
inductive CmdPc where
  | writeOpcode
  | writeArg0
  | writeArg1
  | writeFlags
  | orStart
  | take
  | copyStatus
  | copyData0 (status : UInt32)
  | copyData1 (status data0 : UInt32)
  | returned (status data0 data1 : UInt32)
  | timedOut
deriving DecidableEq, Repr

/-- A call of `deepspan_hwip_submit_cmd`. `mark` is history: the number of
handler invocations when the call set START. -/
structure CmdCall where
  opcode : UInt32
  arg0 : UInt32
  arg1 : UInt32
  pc : CmdPc
  mark : Nat
deriving DecidableEq, Repr

/-- The command of a call; the DMA window is the business of
`deepspan_hwip_set_dma`. -/
def CmdCall.cmd (c : CmdCall) : Cmd := ⟨c.opcode, c.arg0, c.arg1, []⟩

/-- The call has returned 0 or `-ETIMEDOUT`. -/
def CmdPc.ended : CmdPc → Bool
  | .returned _ _ _ | .timedOut => true
  | _ => false

/-- The next step of a call. `k_sem_take` blocks until the semaphore is there. -/
def CmdCall.exec (c : CmdCall) (hw : HwModel) (drv : Driver) :
    Option (CmdCall × Segment × Driver) :=
  match c.pc with
  | .writeOpcode =>
    some ({ c with pc := .writeArg0 }, hw.seg.withReg fun r => { r with cmdOpcode := c.opcode }, drv)
  | .writeArg0 =>
    some ({ c with pc := .writeArg1 }, hw.seg.withReg fun r => { r with cmdArg0 := c.arg0 }, drv)
  | .writeArg1 =>
    some ({ c with pc := .writeFlags }, hw.seg.withReg fun r => { r with cmdArg1 := c.arg1 }, drv)
  | .writeFlags =>
    some ({ c with pc := .orStart }, hw.seg.withReg fun r => { r with cmdFlags := 0 }, drv)
  | .orStart =>
    some ({ c with pc := .take, mark := hw.log.length },
      hw.seg.withReg fun r => { r with ctrl := r.ctrl ||| CtrlBits.start }, drv)
  | .take =>
    if drv.cmdDone then some ({ c with pc := .copyStatus }, hw.seg, { drv with cmdDone := false })
    else none
  | .copyStatus => some ({ c with pc := .copyData0 drv.lastStatus }, hw.seg, drv)
  | .copyData0 status => some ({ c with pc := .copyData1 status drv.lastResult0 }, hw.seg, drv)
  | .copyData1 status data0 =>
    some ({ c with pc := .returned status data0 drv.lastResult1 }, hw.seg, drv)
  | .returned _ _ _ | .timedOut => none

structure ZephyrState where
  hw : HwModel
  drv : Driver
  calls : List CmdCall

inductive ZephyrAct where
  | submitCmd (opcode arg0 arg1 : UInt32)
  | call (i : Nat)
  | timeout (i : Nat)
  | pollThread
  | device
  | stop
deriving DecidableEq, Repr

def ZephyrState.callStep (s : ZephyrState) (i : Nat) : Option ZephyrState :=
  match s.calls[i]? with
  | none => none
  | some c =>
    (c.exec s.hw s.drv).map fun p =>
      { hw := { s.hw with seg := p.2.1 }, drv := p.2.2, calls := s.calls.set i p.1 }

/-- `k_sem_take` returns `-EAGAIN`. -/
def ZephyrState.timeoutStep (s : ZephyrState) (i : Nat) : Option ZephyrState :=
  match s.calls[i]? with
  | none => none
  | some c =>
    if c.pc = .take ∧ s.drv.cmdDone = false then
      some { s with calls := s.calls.set i { c with pc := .timedOut } }
    else none

def ZephyrState.step (mode : AckMode) (cfg : HwModelConfig) (s : ZephyrState) :
    ZephyrAct → Option ZephyrState
  | .submitCmd opcode arg0 arg1 =>
    some { s with calls := s.calls ++ [⟨opcode, arg0, arg1, .writeOpcode, 0⟩] }
  | .call i => s.callStep i
  | .timeout i => s.timeoutStep i
  | .pollThread =>
    let p := s.drv.pollThreadStep mode s.hw.seg
    some { s with hw := { s.hw with seg := p.2 }, drv := p.1 }
  | .device => (s.hw.pollLoopStep cfg).map fun hw => { s with hw := hw }
  | .stop => some { s with hw := { s.hw with running := false } }

/-- `hwip_sim_init` on a segment that `HwModelServer::init` has set up. -/
def ZephyrState.initial (startTimeSec : UInt64) (seg : Segment) : ZephyrState where
  hw := { hwModelInit startTimeSec seg with
    seg := (hwModelInit startTimeSec seg).seg.withReg fun r => { r with irqEnable := irqDone } }
  drv := ⟨false, 0, 0, 0, .load⟩
  calls := []

def zephyrSystem (mode : AckMode) (cfg : HwModelConfig) : System ZephyrState ZephyrAct where
  init s := ∃ t seg, s = .initial t seg
  step := ZephyrState.step mode cfg

/-! ## What a step can do -/

/-- The steps of a call, each with the program point it is taken at. -/
inductive CmdStep (hw : HwModel) (drv : Driver) (c : CmdCall) : CmdCall → Segment → Driver → Prop
  | writeOpcode : c.pc = .writeOpcode →
      CmdStep hw drv c { c with pc := .writeArg0 }
        (hw.seg.withReg fun r => { r with cmdOpcode := c.opcode }) drv
  | writeArg0 : c.pc = .writeArg0 →
      CmdStep hw drv c { c with pc := .writeArg1 }
        (hw.seg.withReg fun r => { r with cmdArg0 := c.arg0 }) drv
  | writeArg1 : c.pc = .writeArg1 →
      CmdStep hw drv c { c with pc := .writeFlags }
        (hw.seg.withReg fun r => { r with cmdArg1 := c.arg1 }) drv
  | writeFlags : c.pc = .writeFlags →
      CmdStep hw drv c { c with pc := .orStart }
        (hw.seg.withReg fun r => { r with cmdFlags := 0 }) drv
  | orStart : c.pc = .orStart →
      CmdStep hw drv c { c with pc := .take, mark := hw.log.length }
        (hw.seg.withReg fun r => { r with ctrl := r.ctrl ||| CtrlBits.start }) drv
  | take : c.pc = .take → drv.cmdDone = true →
      CmdStep hw drv c { c with pc := .copyStatus } hw.seg { drv with cmdDone := false }
  | copyStatus : c.pc = .copyStatus →
      CmdStep hw drv c { c with pc := .copyData0 drv.lastStatus } hw.seg drv
  | copyData0 {status : UInt32} : c.pc = .copyData0 status →
      CmdStep hw drv c { c with pc := .copyData1 status drv.lastResult0 } hw.seg drv
  | copyData1 {status data0 : UInt32} : c.pc = .copyData1 status data0 →
      CmdStep hw drv c { c with pc := .returned status data0 drv.lastResult1 } hw.seg drv

theorem cmdExec_cases {hw : HwModel} {drv drv' : Driver} {c c' : CmdCall} {seg' : Segment}
    (hs : c.exec hw drv = some (c', seg', drv')) : CmdStep hw drv c c' seg' drv' := by
  unfold CmdCall.exec at hs
  cases hp : c.pc with
  | take =>
    simp only [hp] at hs
    split at hs
    · next hsem =>
      cases hs
      exact .take hp hsem
    · cases hs
  | returned _ _ _ | timedOut => simp only [hp] at hs; cases hs
  | _ =>
    simp only [hp] at hs
    cases hs
    constructor
    exact hp

/-- Every step is a new call, a step or the timeout of a call, a step of the poll
thread, a step of the hw-model's loop, or a stop of the hw-model. -/
theorem ZephyrState.step_cases {mode : AckMode} {cfg : HwModelConfig} {s s' : ZephyrState}
    {a : ZephyrAct} (h : s.step mode cfg a = some s') :
    (∃ opcode arg0 arg1, a = .submitCmd opcode arg0 arg1 ∧
      s' = { s with calls := s.calls ++ [⟨opcode, arg0, arg1, .writeOpcode, 0⟩] }) ∨
    (∃ i c c' seg' drv', a = .call i ∧ s.calls[i]? = some c ∧
      c.exec s.hw s.drv = some (c', seg', drv') ∧
      s' = { hw := { s.hw with seg := seg' }, drv := drv', calls := s.calls.set i c' }) ∨
    (∃ i c, a = .timeout i ∧ s.calls[i]? = some c ∧ c.pc = .take ∧ s.drv.cmdDone = false ∧
      s' = { s with calls := s.calls.set i { c with pc := .timedOut } }) ∨
    (∃ drv' seg', a = .pollThread ∧ s.drv.pollThreadStep mode s.hw.seg = (drv', seg') ∧
      s' = { s with hw := { s.hw with seg := seg' }, drv := drv' }) ∨
    (∃ hw', a = .device ∧ s.hw.pollLoopStep cfg = some hw' ∧ s' = { s with hw := hw' }) ∨
    (a = .stop ∧ s' = { s with hw := { s.hw with running := false } }) := by
  cases a with
  | submitCmd opcode arg0 arg1 =>
    cases h
    exact .inl ⟨_, _, _, rfl, rfl⟩
  | call i =>
    simp only [ZephyrState.step, ZephyrState.callStep] at h
    cases hi : s.calls[i]? with
    | none => simp only [hi] at h; cases h
    | some c =>
      simp only [hi] at h
      obtain ⟨⟨c', seg', drv'⟩, hexec, rfl⟩ := Option.map_eq_some_iff.mp h
      exact .inr (.inl ⟨i, c, c', seg', drv', rfl, hi, hexec, rfl⟩)
  | timeout i =>
    simp only [ZephyrState.step, ZephyrState.timeoutStep] at h
    cases hi : s.calls[i]? with
    | none => simp only [hi] at h; cases h
    | some c =>
      simp only [hi] at h
      split at h
      · next hpc =>
        cases h
        exact .inr (.inr (.inl ⟨i, c, rfl, hi, hpc.1, hpc.2, rfl⟩))
      · cases h
  | pollThread =>
    cases h
    exact .inr (.inr (.inr (.inl ⟨_, _, rfl, rfl, rfl⟩)))
  | device =>
    obtain ⟨hw', hstep, rfl⟩ := Option.map_eq_some_iff.mp h
    exact .inr (.inr (.inr (.inr (.inl ⟨hw', rfl, hstep, rfl⟩))))
  | stop =>
    cases h
    exact .inr (.inr (.inr (.inr (.inr ⟨rfl, rfl⟩))))

/-! ## Kinds of runs -/

/-- A call is made only when every earlier one has returned. -/
def callsInTurn (s : ZephyrState) : ZephyrAct → Bool
  | .submitCmd _ _ _ => s.calls.all fun c => c.pc.ended
  | _ => true

/-- No call times out. -/
def noTimeout (_ : ZephyrState) : ZephyrAct → Bool
  | .timeout _ => false
  | _ => true

/-- A condition on the state in which a call sets START. -/
def atStart (p : ZephyrState → Bool) (s : ZephyrState) : ZephyrAct → Bool
  | .call i => (s.calls[i]?).all fun c => c.pc != .orStart || p s
  | _ => true

/-- `cmd_done` is not available, and the poll thread is not on its way to give
it. -/
def ZephyrState.noGive (s : ZephyrState) : Bool := !s.drv.cmdDone && s.drv.thread == .load

/-- While a call waits with START still set, the poll thread does not come to see
`IRQ_DONE`. -/
def freshIrq (s : ZephyrState) : ZephyrAct → Bool
  | .pollThread =>
    !(s.drv.thread == .load && s.hw.seg.reg.irqPending && s.hw.seg.reg.started &&
      s.calls.any fun c => c.pc == .take)
  | _ => true

/-- The loop has cleared START and has not yet raised the interrupt. -/
def PollPc.inTail : PollPc → Bool
  | .writeReady | .raiseIrq => true
  | _ => false

/-- Nothing is left of an earlier command: no interrupt pending, and the hw-model
neither in the middle of one nor about to raise its interrupt. -/
def ZephyrState.quiet (s : ZephyrState) : Bool :=
  !s.hw.seg.reg.irqPending && !s.hw.pc.midCommand && !s.hw.pc.inTail

end Deepspan
