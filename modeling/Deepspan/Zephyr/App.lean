import Deepspan.Zephyr.OwnChecksums

/-!
# The firmware application

`main` of `firmware/app/src/main.cpp` on the `native_sim` driver: one GET_POLY, one
COMPUTE over a test vector, and then COMPUTE over the same message for ever, with
two seconds of sleep after each. Every result goes to the log, the status word of a
command is not looked at.

`main` is the only caller of the driver, so that one call of
`deepspan_hwip_submit_cmd` is under way at a time; the driver's poll thread and the
hw-model run beside it. The driver has found the segment (`hwip_sim_init`), so that
neither of its functions returns `-EIO`; what is left of the failures are the check
of `deepspan_hwip_set_dma` and `-ETIMEDOUT`.

`AppState.lines` is the log from GET_POLY on, one line for each command, with `none`
for a command that failed.
-/

namespace Deepspan

open Transition

/-- The bytes of a C string, without its NUL. -/
def cBytes (s : String) : List UInt8 := s.toList.map fun c => UInt8.ofNat c.toNat

/-- `test_data`. -/
def testData : List UInt8 := cBytes "123456789"

/-- `loop_data`. -/
def loopData : List UInt8 := cBytes "Hello, deepspan CRC32!"

/-- The three places at which `main` submits a command. -/
inductive AppTask where
  | getPoly
  | test
  | loop
deriving DecidableEq, Repr

def AppTask.data : AppTask → List UInt8
  | .getPoly => []
  | .test => testData
  | .loop => loopData

def AppTask.opcode : AppTask → UInt32
  | .getPoly => Crc32Op.getPoly
  | .test | .loop => Crc32Op.compute

/-- The call of `deepspan_hwip_submit_cmd`: the length is `arg0`, and 0 for GET_POLY. -/
def AppTask.call (task : AppTask) : CmdCall :=
  ⟨task.opcode, UInt32.ofNat task.data.length, 0, .writeOpcode, 0⟩

inductive AppPc where
  | setDma (task : AppTask)
  | submitCmd (task : AppTask)
  | sleep
deriving DecidableEq, Repr

/-- A line of the log: the value in `result_data0`, if the command did not fail. -/
structure AppLine where
  task : AppTask
  seq : UInt32
  value : Option UInt32
deriving DecidableEq, Repr

structure AppState where
  hw : HwModel
  drv : Driver
  pc : AppPc
  call : CmdCall
  seq : UInt32
  lines : List AppLine

/-- `deepspan_hwip_set_dma`; `none` is `-EINVAL`. -/
def setDma (seg : Segment) (src : List UInt8) : Option Segment :=
  if src.length > shmDmaMaxLen then none else some (seg.copyDma src)

/-- What the call has returned, with `none` for `-ETIMEDOUT`. -/
def CmdPc.ret? : CmdPc → Option (Option UInt32)
  | .returned _ data0 _ => some (some data0)
  | .timedOut => some none
  | .writeOpcode | .writeArg0 | .writeArg1 | .writeFlags | .orStart | .take | .copyStatus
  | .copyData0 _ | .copyData1 _ _ => none

theorem ret?_eq_some {pc : CmdPc} {value : UInt32} (h : pc.ret? = some (some value)) :
    ∃ status data1, pc = .returned status value data1 := by
  cases pc with
  | returned status data0 data1 =>
    simp only [CmdPc.ret?, Option.some.injEq] at h
    exact ⟨status, data1, by rw [h]⟩
  | _ => simp [CmdPc.ret?] at h

/-- `main` logs the outcome of a task and goes on to the next. -/
def AppState.print (s : AppState) (task : AppTask) (value : Option UInt32) : AppState :=
  let lines := s.lines ++ [⟨task, s.seq, value⟩]
  match task with
  | .getPoly => { s with pc := .setDma .test, lines := lines }
  | .test => { s with pc := .setDma .loop, lines := lines }
  | .loop => { s with pc := .sleep, seq := s.seq + 1, lines := lines }

/-- The next step of `main`. -/
def AppState.main (s : AppState) : Option AppState :=
  match s.pc with
  | .setDma task =>
    match setDma s.hw.seg task.data with
    | none => some (s.print task none)
    | some seg => some { s with hw := { s.hw with seg := seg }, pc := .submitCmd task,
                                call := task.call }
  | .submitCmd task =>
    match s.call.pc.ret? with
    | some value => some (s.print task value)
    | none =>
      (s.call.exec s.hw s.drv).map fun p =>
        { s with hw := { s.hw with seg := p.2.1 }, drv := p.2.2, call := p.1 }
  | .sleep => some { s with pc := .setDma .loop }

inductive AppAct where
  | main
  | timeout
  | pollThread
  | device
  | stop
deriving DecidableEq, Repr

def AppState.step (mode : AckMode) (cfg : HwModelConfig) (s : AppState) : AppAct → Option AppState
  | .main => s.main
  | .timeout =>
    if s.call.pc = .take ∧ s.drv.cmdDone = false then
      some { s with call := { s.call with pc := .timedOut } }
    else none
  | .pollThread =>
    let p := s.drv.pollThreadStep mode s.hw.seg
    some { s with hw := { s.hw with seg := p.2 }, drv := p.1 }
  | .device => (s.hw.pollLoopStep cfg).map fun hw => { s with hw := hw }
  | .stop => some { s with hw := { s.hw with running := false } }

/-- `main` behind `hwip_sim_init`, in the call for GET_POLY. -/
def AppState.initial (startTimeSec : UInt64) (seg : Segment) : AppState where
  hw := (ZephyrState.initial startTimeSec seg).hw
  drv := (ZephyrState.initial startTimeSec seg).drv
  pc := .submitCmd .getPoly
  call := AppTask.getPoly.call
  seq := 0
  lines := []

def appSystem (mode : AckMode) (cfg : HwModelConfig) : System AppState AppAct where
  init s := ∃ t seg, s = .initial t seg
  step := AppState.step mode cfg

/-! ## What a step can do -/

variable {mode : AckMode} {cfg : HwModelConfig} {s s' : AppState} {a : AppAct}

theorem setDma_eq (seg : Segment) (task : AppTask) :
    setDma seg task.data = some (seg.copyDma task.data) := by
  cases task <;> exact if_neg (by decide)

/-- The steps of the system; `deepspan_hwip_set_dma` takes the data of every task. -/
inductive AppStep (mode : AckMode) (cfg : HwModelConfig) (s : AppState) :
    AppAct → AppState → Prop
  | stage {task : AppTask} : s.pc = .setDma task →
      AppStep mode cfg s .main
        { s with hw := { s.hw with seg := s.hw.seg.copyDma task.data }
                 pc := .submitCmd task, call := task.call }
  | exec {task : AppTask} {c' : CmdCall} {seg' : Segment} {drv' : Driver} :
      s.pc = .submitCmd task → s.call.exec s.hw s.drv = some (c', seg', drv') →
      AppStep mode cfg s .main { s with hw := { s.hw with seg := seg' }, drv := drv', call := c' }
  | print {task : AppTask} {value : Option UInt32} :
      s.pc = .submitCmd task → s.call.pc.ret? = some value →
      AppStep mode cfg s .main (s.print task value)
  | wake : s.pc = .sleep → AppStep mode cfg s .main { s with pc := .setDma .loop }
  | timeout : s.call.pc = .take → s.drv.cmdDone = false →
      AppStep mode cfg s .timeout { s with call := { s.call with pc := .timedOut } }
  | pollThread {drv' : Driver} {seg' : Segment} :
      s.drv.pollThreadStep mode s.hw.seg = (drv', seg') →
      AppStep mode cfg s .pollThread { s with hw := { s.hw with seg := seg' }, drv := drv' }
  | device {hw' : HwModel} : s.hw.pollLoopStep cfg = some hw' →
      AppStep mode cfg s .device { s with hw := hw' }
  | stop : AppStep mode cfg s .stop { s with hw := { s.hw with running := false } }

theorem appStep_cases (h : s.step mode cfg a = some s') : AppStep mode cfg s a s' := by
  cases a with
  | main =>
    simp only [AppState.step] at h
    unfold AppState.main at h
    split at h
    · next task hp =>
      simp only [setDma_eq] at h
      cases h
      exact .stage hp
    · next task hp =>
      split at h
      · next value hret =>
        cases h
        exact .print hp hret
      · obtain ⟨⟨c', seg', drv'⟩, hexec, rfl⟩ := Option.map_eq_some_iff.mp h
        exact .exec hp hexec
    · next hp =>
      cases h
      exact .wake hp
  | timeout =>
    simp only [AppState.step] at h
    split at h
    · next hp =>
      cases h
      exact .timeout hp.1 hp.2
    · cases h
  | pollThread =>
    cases h
    exact .pollThread rfl
  | device =>
    obtain ⟨hw', hstep, rfl⟩ := Option.map_eq_some_iff.mp h
    exact .device hstep
  | stop =>
    cases h
    exact .stop

/-! ## What the tasks ask for -/

/-- The command of a task, with the bytes it has staged. -/
def AppTask.cmd (task : AppTask) : Cmd :=
  ⟨task.opcode, UInt32.ofNat task.data.length, 0, task.data⟩

/-- The polynomial, or the checksum of the data. -/
def AppTask.right : AppTask → UInt32
  | .getPoly => 0xEDB88320
  | .test => crc32Ieee testData
  | .loop => crc32Ieee loopData

/-- The value that the source expects for the test vector. -/
example : AppTask.test.right = 0xCBF43926 := by decide +kernel

theorem AppTask.data_length (task : AppTask) : task.data.length ≤ shmDmaMaxLen := by
  cases task <;> decide

/-- The handler answers a task with what it asks for. -/
theorem Logged.task_reply {autoIrq : Bool} {log : List Invocation} {task : AppTask} {mark : Nat}
    {reply : Reply} (h : Logged (crc32Config autoIrq) log)
    (hans : Answered task.cmd mark log reply) : reply.r0 = task.right := by
  obtain ⟨inv, hinv, hfor, rfl⟩ := hans
  cases task with
  | getPoly =>
    have hreply := h mark inv hinv
    rw [show inv.opcode = Crc32Op.getPoly from hfor.opcode] at hreply
    have hpoly : crc32Handler true (log.take mark) Crc32Op.getPoly inv.arg0 inv.arg1 inv.seg =
        some ⟨0, 0xEDB88320, 0⟩ := rfl
    rw [show (crc32Config autoIrq).cmdHandler = crc32Handler true from rfl, hpoly] at hreply
    rw [← Option.some.inj hreply]
    rfl
  | test => exact h.compute_reply hinv hfor.opcode hfor.arg0 (AppTask.data_length .test) hfor.dma
  | loop => exact h.compute_reply hinv hfor.opcode hfor.arg0 (AppTask.data_length .loop) hfor.dma

theorem appStep_logged (h : Logged cfg s.hw.log) (hs : s.step mode cfg a = some s') :
    Logged cfg s'.hw.log := by
  cases appStep_cases hs with
  | print _ _ =>
    unfold AppState.print
    split <;> exact h
  | device hdev => exact logged_step h hdev
  | stage _ | exec _ _ | wake _ | timeout _ _ | pollThread _ | stop => exact h

end Deepspan
