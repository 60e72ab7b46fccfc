import Deepspan.SharedPage
import Deepspan.Submit.System

/-!
# The programs on the page

The programs of `HwModel.lean`, `Submit/` and `Zephyr/` once more, this time as they are compiled:
every access goes to an offset of the page. Each program has its offsets from a place of its own:
the hw-model from the declaration of the structs, the plugins from their generated `ops.hpp`, the
management and telemetry services and the Zephyr driver from constants of their own.

A step on the page is the step of the same name on the segment that the page stands for
(`pollLoopStep_view`, `execPage_view`, `submitStep_view`, `zephyrStep_view`); above all, no access
faults. Hence the two levels have the same runs (`paged_submit_runs`, `paged_zephyr_runs`).
-/

namespace Deepspan

open Transition

/-! ## Offsets -/

/-- `RegOffsets` of a generated `ops.hpp`. -/
structure RegOffsets where
  ctrl : Nat
  status : Nat
  irqStatus : Nat
  irqEnable : Nat
  version : Nat
  capabilities : Nat
  cmdOpcode : Nat
  cmdArg0 : Nat
  cmdArg1 : Nat
  cmdFlags : Nat
  resultStatus : Nat
  resultData0 : Nat
  resultData1 : Nat

/-- `deepspan::accel::RegOffsets` -/
def accelRegOffsets : RegOffsets :=
  ⟨0x0000, 0x0004, 0x0008, 0x000C, 0x0010, 0x0014, 0x0100, 0x0104, 0x0108, 0x010C, 0x0110, 0x0114,
    0x0118⟩

/-- `deepspan::crc32::RegOffsets` -/
def crc32RegOffsets : RegOffsets :=
  ⟨0x0000, 0x0004, 0x0008, 0x000C, 0x0010, 0x0014, 0x0100, 0x0104, 0x0108, 0x010C, 0x0110, 0x0114,
    0x0118⟩

def PluginKind.regOffsets : PluginKind → RegOffsets
  | .accel => accelRegOffsets
  | .crc32 => crc32RegOffsets

/-! Constants of `mgmt_service.cpp` and `telemetry_service.cpp`. -/

def kRegVersion : Nat := 0x010
def kRegCtrl : Nat := 0x000
def kCtrlResetBit : UInt32 := (1 : UInt32) <<< 0
def kShmStatsOffset : Nat := 0x200

/-! Constants of `deepspan_hwip_sim.c`. -/

namespace SimReg
def ctrl : Nat := 0x000
def irqStatus : Nat := 0x008
def irqEnable : Nat := 0x00C
def cmdOpcode : Nat := 0x100
def cmdArg0 : Nat := 0x104
def cmdArg1 : Nat := 0x108
def cmdFlags : Nat := 0x10C
def resultStatus : Nat := 0x110
def resultData0 : Nat := 0x114
def resultData1 : Nat := 0x118
end SimReg

/-! ## The hw-model -/

structure PagedHw where
  page : Page
  pc : PollPc
  running : Bool
  cmdCount : UInt64
  log : List Invocation

def PagedHw.view (hw : PagedHw) : HwModel := ⟨hw.page.view, hw.pc, hw.running, hw.cmdCount, hw.log⟩

/-- `SimTransport::init`, from step 3 on. -/
def simTransportInitPage (page : Page) : Option Page := do
  let page ← page.copy 0 (List.replicate (Layout.sizeof regMapDecl) 0)
  let page ← page.store32 (RegName.offset .version) hwVersion
  let page ← page.store32 (RegName.offset .capabilities) (hwCapsDma ||| hwCapsIrq ||| hwCapsMulti)
  page.store32 (RegName.offset .status) StatusBits.ready

/-- `HwModelServer::init` -/
def hwModelInitPage (startTimeSec : UInt64) (page : Page) : Option PagedHw := do
  let page ← simTransportInitPage page
  let page ← page.storeStat shmStatsOffset .startTimeSec startTimeSec
  let page ← page.store32 (RegName.offset .status) StatusBits.ready
  some ⟨page, .loop, true, 0, []⟩

/-- One step of `HwModelServer::poll_loop`. -/
def PagedHw.pollLoopStep (cfg : HwModelConfig) (hw : PagedHw) : Option PagedHw :=
  match hw.pc with
  | .loop => some { hw with pc := if hw.running then .loadCtrl else .exited }
  | .loadCtrl =>
    (hw.page.load32 (RegName.offset .ctrl)).map fun ctrl =>
      { hw with pc := if ctrl &&& CtrlBits.start != 0 then .readOpcode else .loop }
  | .readOpcode =>
    (hw.page.load32 (RegName.offset .cmdOpcode)).map fun opcode => { hw with pc := .readArg0 opcode }
  | .readArg0 opcode =>
    (hw.page.load32 (RegName.offset .cmdArg0)).map fun arg0 => { hw with pc := .readArg1 opcode arg0 }
  | .readArg1 opcode arg0 =>
    (hw.page.load32 (RegName.offset .cmdArg1)).map fun arg1 =>
      { hw with pc := .callHandler opcode arg0 arg1 }
  | .callHandler opcode arg0 arg1 =>
    (cfg.cmdHandler hw.log opcode arg0 arg1 hw.page.view).map fun reply =>
      { hw with pc := .writeData0 opcode reply
                log := hw.log ++ [⟨opcode, arg0, arg1, hw.page.view, reply⟩] }
  | .writeData0 opcode reply =>
    (hw.page.store32 (RegName.offset .resultData0) reply.r0).map fun page =>
      { hw with pc := .writeData1 opcode reply, page := page }
  | .writeData1 opcode reply =>
    (hw.page.store32 (RegName.offset .resultData1) reply.r1).map fun page =>
      { hw with pc := .writeStatus opcode reply, page := page }
  | .writeStatus opcode reply =>
    (hw.page.store32 (RegName.offset .resultStatus) reply.status).map fun page =>
      { hw with pc := .fetchAdd opcode reply, page := page }
  | .fetchAdd opcode reply =>
    some { hw with pc := .storeCount opcode reply (hw.cmdCount + 1), cmdCount := hw.cmdCount + 1 }
  | .storeCount opcode reply count =>
    (hw.page.storeStat shmStatsOffset .cmdCount count).map fun page =>
      { hw with pc := .storeLastOpcode opcode reply, page := page }
  | .storeLastOpcode opcode reply =>
    (hw.page.storeStat shmStatsOffset .lastOpcode opcode).map fun page =>
      { hw with pc := .storeLastStatus reply, page := page }
  | .storeLastStatus reply =>
    (hw.page.storeStat shmStatsOffset .lastResultStatus reply.status).map fun page =>
      { hw with pc := .clearStart, page := page }
  | .clearStart =>
    (hw.page.update32 (RegName.offset .ctrl) fun ctrl => ctrl &&& ~~~CtrlBits.start).map fun page =>
      { hw with pc := .writeReady, page := page }
  | .writeReady =>
    (hw.page.store32 (RegName.offset .status) StatusBits.ready).map fun page =>
      { hw with pc := if cfg.autoIrq then .raiseIrq else .loop, page := page }
  | .raiseIrq =>
    (hw.page.update32 (RegName.offset .irqStatus) fun irq => irq ||| irqDone).map fun page =>
      { hw with pc := .loop, page := page }
  | .exited => none

/-- What a step does after a load. -/
theorem map_load {α S T : Type} {view : S → T} {x : Option α} {a : α} (h : x = some a) (f : α → S) :
    (x.map f).map view = some (view (f a)) := by
  rw [h]
  rfl

/-- A store of the loop. -/
theorem pollLoop_store {x : Option Page} {seg : Segment}
    (h : ∃ page, x = some page ∧ page.view = seg) (hw : PagedHw) (pc : PollPc) :
    (x.map fun page => { hw with pc := pc, page := page }).map PagedHw.view =
      some { hw.view with pc := pc, seg := seg } := by
  obtain ⟨page, rfl, rfl⟩ := h
  rfl

theorem pollLoopStep_view (cfg : HwModelConfig) (hw : PagedHw) :
    (hw.pollLoopStep cfg).map PagedHw.view = hw.view.pollLoopStep cfg := by
  unfold PagedHw.pollLoopStep HwModel.pollLoopStep
  cases hp : hw.pc with
  | loop | fetchAdd | exited => simp only [PagedHw.view, hp]; rfl
  | loadCtrl =>
    simp only [PagedHw.view, hp]
    exact map_load (load32_reg hw.page .ctrl) _
  | readOpcode =>
    simp only [PagedHw.view, hp]
    exact map_load (load32_reg hw.page .cmdOpcode) _
  | readArg0 opcode =>
    simp only [PagedHw.view, hp]
    exact map_load (load32_reg hw.page .cmdArg0) _
  | readArg1 opcode arg0 =>
    simp only [PagedHw.view, hp]
    exact map_load (load32_reg hw.page .cmdArg1) _
  | callHandler opcode arg0 arg1 =>
    simp only [PagedHw.view, hp, Option.map_map]
    rfl
  | writeData0 opcode reply =>
    simp only [PagedHw.view, hp]
    exact pollLoop_store (store32_reg hw.page .resultData0 reply.r0) hw _
  | writeData1 opcode reply =>
    simp only [PagedHw.view, hp]
    exact pollLoop_store (store32_reg hw.page .resultData1 reply.r1) hw _
  | writeStatus opcode reply =>
    simp only [PagedHw.view, hp]
    exact pollLoop_store (store32_reg hw.page .resultStatus reply.status) hw _
  | storeCount opcode reply count =>
    simp only [PagedHw.view, hp]
    exact pollLoop_store (storeStat_view hw.page .cmdCount count) hw _
  | storeLastOpcode opcode reply =>
    simp only [PagedHw.view, hp]
    exact pollLoop_store (storeStat_view hw.page .lastOpcode opcode) hw _
  | storeLastStatus reply =>
    simp only [PagedHw.view, hp]
    exact pollLoop_store (storeStat_view hw.page .lastResultStatus reply.status) hw _
  | clearStart =>
    simp only [PagedHw.view, hp]
    exact pollLoop_store (update32_reg hw.page .ctrl _) hw _
  | writeReady =>
    simp only [PagedHw.view, hp]
    exact pollLoop_store (store32_reg hw.page .status StatusBits.ready) hw _
  | raiseIrq =>
    simp only [PagedHw.view, hp]
    exact pollLoop_store (update32_reg hw.page .irqStatus _) hw _

theorem hwModelInitPage_view (startTimeSec : UInt64) (page : Page) :
    ∃ hw, hwModelInitPage startTimeSec page = some hw ∧
      hw.view = hwModelInit startTimeSec page.view := by
  obtain ⟨cleared, hclear, hcleared⟩ := copy_zeros page
  obtain ⟨p1, hversion, h1⟩ := store32_reg cleared .version hwVersion
  obtain ⟨p2, hcaps, h2⟩ :=
    store32_reg p1 .capabilities (hwCapsDma ||| hwCapsIrq ||| hwCapsMulti)
  obtain ⟨p3, hstatus, h3⟩ := store32_reg p2 .status StatusBits.ready
  obtain ⟨p4, hstart, h4⟩ := storeStat_view p3 .startTimeSec startTimeSec
  obtain ⟨p5, hready, h5⟩ := store32_reg p4 .status StatusBits.ready
  refine ⟨⟨p5, .loop, true, 0, []⟩, ?_, ?_⟩
  · simp only [hwModelInitPage, simTransportInitPage, hclear, hversion, hcaps, hstatus, hstart, hready,
      Option.bind_eq_bind, Option.bind_some]
  · rw [PagedHw.view, h5, h4, h3, h2, h1, hcleared]
    rfl

/-! ## The server -/

/-- The next step of a call of `submit`, and the page after it. -/
def Sub.execPage (kind : PluginKind) (sub : Sub) (hw : PagedHw) : Option (Sub × Page) :=
  let cmd := kind.cmd sub.call
  let reg := kind.regOffsets
  match sub.pc with
  | .lock => some ({ sub with pc := .copyDma }, hw.page)
  | .copyDma =>
    (hw.page.copy kShmDmaOffset cmd.dma).map fun page => ({ sub with pc := .storeOpcode }, page)
  | .storeOpcode =>
    (hw.page.store32 reg.cmdOpcode cmd.opcode).map fun page => ({ sub with pc := .storeArg0 }, page)
  | .storeArg0 =>
    (hw.page.store32 reg.cmdArg0 cmd.arg0).map fun page => ({ sub with pc := .storeArg1 }, page)
  | .storeArg1 =>
    (hw.page.store32 reg.cmdArg1 cmd.arg1).map fun page => ({ sub with pc := .orStart }, page)
  | .orStart =>
    (hw.page.update32 reg.ctrl fun ctrl => ctrl ||| CtrlBits.start).map fun page =>
      ({ sub with pc := .poll 0, mark := hw.log.length }, page)
  | .poll i =>
    if i < kMaxPolls then
      (hw.page.load32 reg.ctrl).map fun ctrl =>
        ({ sub with pc := if ctrl &&& CtrlBits.start != 0 then .poll (i + 1) else .loadResult0 },
          hw.page)
    else some ({ sub with pc := .threw }, hw.page)
  | .loadResult0 =>
    (hw.page.load32 reg.resultData0).map fun r0 => ({ sub with pc := .loadResult1 r0 }, hw.page)
  | .loadResult1 r0 =>
    (hw.page.load32 reg.resultData1).map fun r1 => ({ sub with pc := .returned r0 r1 }, hw.page)
  | .returned _ _ | .threw => none

/-- A call and the segment. -/
def viewSub (p : Sub × Page) : Sub × Segment := (p.1, p.2.view)

theorem sub_store {x : Option Page} {seg : Segment}
    (h : ∃ page, x = some page ∧ page.view = seg) (sub : Sub) :
    (x.map fun page => (sub, page)).map viewSub = some (sub, seg) := by
  obtain ⟨page, rfl, rfl⟩ := h
  rfl

theorem execPage_view (kind : PluginKind) (sub : Sub) (hw : PagedHw) :
    (sub.execPage kind hw).map viewSub = sub.exec kind hw.view := by
  -- the generated offsets are those of the struct
  have hctrl : kind.regOffsets.ctrl = RegName.offset .ctrl := by cases kind <;> decide
  have hopcode : kind.regOffsets.cmdOpcode = RegName.offset .cmdOpcode := by cases kind <;> decide
  have harg0 : kind.regOffsets.cmdArg0 = RegName.offset .cmdArg0 := by cases kind <;> decide
  have harg1 : kind.regOffsets.cmdArg1 = RegName.offset .cmdArg1 := by cases kind <;> decide
  have hdata0 : kind.regOffsets.resultData0 = RegName.offset .resultData0 := by
    cases kind <;> decide
  have hdata1 : kind.regOffsets.resultData1 = RegName.offset .resultData1 := by
    cases kind <;> decide
  unfold Sub.execPage Sub.exec
  cases hp : sub.pc with
  | lock | returned | threw => rfl
  | copyDma =>
    simp only
    exact sub_store (copy_dma hw.page (kind.cmd_dma_length sub.call)) _
  | storeOpcode =>
    simp only [hopcode]
    exact sub_store (store32_reg hw.page .cmdOpcode _) _
  | storeArg0 =>
    simp only [harg0]
    exact sub_store (store32_reg hw.page .cmdArg0 _) _
  | storeArg1 =>
    simp only [harg1]
    exact sub_store (store32_reg hw.page .cmdArg1 _) _
  | orStart =>
    simp only [hctrl]
    exact sub_store (update32_reg hw.page .ctrl _) _
  | poll i =>
    simp only [hctrl]
    split
    · exact map_load (load32_reg hw.page .ctrl) _
    · rfl
  | loadResult0 =>
    simp only [hdata0]
    exact map_load (load32_reg hw.page .resultData0) _
  | loadResult1 r0 =>
    simp only [hdata1]
    exact map_load (load32_reg hw.page .resultData1) _

structure PagedSubmit where
  hw : PagedHw
  subs : List Sub
  nextInst : Nat

def PagedSubmit.view (p : PagedSubmit) : SubmitState := ⟨p.hw.view, p.subs, p.nextInst⟩

def PagedSubmit.mutexFree (p : PagedSubmit) (inst : Nat) : Bool :=
  p.subs.all fun sub => !(sub.inst == inst && sub.pc.locked)

def PagedSubmit.subStep (kind : PluginKind) (p : PagedSubmit) (i : Nat) : Option PagedSubmit :=
  match p.subs[i]? with
  | none => none
  | some sub =>
    if sub.pc == .lock && !p.mutexFree sub.inst then none
    else (sub.execPage kind p.hw).map fun q =>
      { p with hw := { p.hw with page := q.2 }, subs := p.subs.set i q.1 }

def PagedSubmit.step (kind : PluginKind) (cfg : HwModelConfig) (p : PagedSubmit) :
    SubmitAct → Option PagedSubmit
  | .submitRequest call =>
    some { p with subs := p.subs ++ [⟨p.nextInst, call, .lock, 0⟩], nextInst := p.nextInst + 1 }
  | .pluginSubmit call => some { p with subs := p.subs ++ [⟨0, call, .lock, 0⟩] }
  | .sub i => p.subStep kind i
  | .device => (p.hw.pollLoopStep cfg).map fun hw => { p with hw := hw }
  | .stop => some { p with hw := { p.hw with running := false } }
  | .resetDevice =>
    (p.hw.page.update32 kRegCtrl fun ctrl => ctrl ||| kCtrlResetBit).map fun page =>
      { p with hw := { p.hw with page := page } }
  | .getFirmwareInfo => do
    let _ ← p.hw.page.load32 kRegVersion
    let _ ← p.hw.page.loadStat kShmStatsOffset .startTimeSec
    some p
  | .getTelemetry => do
    let _ ← p.hw.page.loadStat kShmStatsOffset .cmdCount
    let _ ← p.hw.page.loadStat kShmStatsOffset .startTimeSec
    let _ ← p.hw.page.loadStat kShmStatsOffset .fwCmdCount
    some p

/-- The hw-model has been started on a new segment. -/
def pagedSubmitSystem (kind : PluginKind) (cfg : HwModelConfig) : System PagedSubmit SubmitAct where
  init p := ∃ t, hwModelInitPage t .zero = some p.hw ∧ p.subs = [] ∧ p.nextInst = 1
  step := PagedSubmit.step kind cfg

theorem kShmStatsOffset_eq : kShmStatsOffset = shmStatsOffset := by decide

theorem submitStep_view (kind : PluginKind) (cfg : HwModelConfig) (p : PagedSubmit) (a : SubmitAct) :
    (p.step kind cfg a).map PagedSubmit.view = p.view.step kind cfg a := by
  cases a with
  | submitRequest | pluginSubmit | stop => rfl
  | sub i =>
    have hmutex (inst : Nat) : p.view.mutexFree inst = p.mutexFree inst := rfl
    have hsubs : p.view.subs[i]? = p.subs[i]? := rfl
    simp only [PagedSubmit.step, SubmitState.step, PagedSubmit.subStep, SubmitState.subStep, hsubs, hmutex]
    cases p.subs[i]? with
    | none => rfl
    | some sub =>
      simp only
      split
      · rfl
      · have hexec := execPage_view kind sub p.hw
        rw [show p.view.hw = p.hw.view from rfl, ← hexec, Option.map_map, Option.map_map]
        rfl
  | device =>
    have hstep := pollLoopStep_view cfg p.hw
    simp only [PagedSubmit.step, SubmitState.step]
    rw [show p.view.hw = p.hw.view from rfl, ← hstep, Option.map_map, Option.map_map]
    rfl
  | resetDevice =>
    obtain ⟨page, hstore, hview⟩ := update32_reg p.hw.page .ctrl fun ctrl => ctrl ||| kCtrlResetBit
    have hctrl : kRegCtrl = RegName.offset .ctrl := by decide
    simp only [PagedSubmit.step, SubmitState.step, hctrl, hstore, Option.map_some, PagedSubmit.view,
      PagedHw.view, hview]
    rfl
  | getFirmwareInfo =>
    have hversion : kRegVersion = RegName.offset .version := by decide
    simp only [PagedSubmit.step, SubmitState.step, hversion, kShmStatsOffset_eq, load32_reg,
      loadStat_view, Option.bind_eq_bind, Option.bind_some, Option.map_some]
  | getTelemetry =>
    simp only [PagedSubmit.step, SubmitState.step, kShmStatsOffset_eq, loadStat_view,
      Option.bind_eq_bind, Option.bind_some, Option.map_some]

/-- The server and the hw-model reach on the page exactly what they reach on the segment, in runs of
any kind. -/
theorem paged_submit_runs (kind : PluginKind) (cfg : HwModelConfig)
    (G : SubmitState → SubmitAct → Prop) (s : SubmitState) :
    Reach (submitSystem kind cfg) G s ↔ ∃ p : PagedSubmit, p.view = s ∧
      Reach (pagedSubmitSystem kind cfg) (fun p a => G p.view a) p := by
  have hviews : Views (pagedSubmitSystem kind cfg) (submitSystem kind cfg) PagedSubmit.view := by
    refine ⟨fun s => ⟨?_, ?_⟩, submitStep_view kind cfg⟩
    · rintro ⟨t, rfl⟩
      obtain ⟨hw, hinit, hview⟩ := hwModelInitPage_view t .zero
      refine ⟨⟨hw, [], 1⟩, ⟨t, hinit, rfl, rfl⟩, ?_⟩
      rw [PagedSubmit.view, hview, view_zero]
      rfl
    · rintro ⟨⟨hw, _, _⟩, ⟨t, hinit, rfl, rfl⟩, rfl⟩
      obtain ⟨hw', hinit', hview⟩ := hwModelInitPage_view t .zero
      cases hinit.symm.trans hinit'
      refine ⟨t, ?_⟩
      rw [PagedSubmit.view, hview, view_zero]
      rfl
  exact hviews.reach_iff

/-! ## The Zephyr driver -/

/-- A store of `IRQ_DONE` to `IRQ_STATUS`, to memory or to a write-1-to-clear register. -/
def AckMode.storePage (mode : AckMode) (page : Page) : Option Page :=
  match mode with
  | .plain => page.store32 SimReg.irqStatus irqDone
  | .w1c => page.update32 SimReg.irqStatus fun irq => irq &&& ~~~irqDone

/-- One step of `poll_thread_fn`. -/
def Driver.pollThreadPage (mode : AckMode) (drv : Driver) (page : Page) : Option (Driver × Page) :=
  match drv.thread with
  | .load =>
    (page.load32 SimReg.irqStatus).map fun irq =>
      ({ drv with thread := if irq &&& irqDone != 0 then .readStatus else .load }, page)
  | .readStatus =>
    (page.load32 SimReg.resultStatus).map fun v =>
      ({ drv with thread := .readData0, lastStatus := v }, page)
  | .readData0 =>
    (page.load32 SimReg.resultData0).map fun v =>
      ({ drv with thread := .readData1, lastResult0 := v }, page)
  | .readData1 =>
    (page.load32 SimReg.resultData1).map fun v => ({ drv with thread := .ack, lastResult1 := v }, page)
  | .ack => (mode.storePage page).map fun page => ({ drv with thread := .give }, page)
  | .give => some ({ drv with thread := .load, cmdDone := true }, page)

/-- The next step of a call of `deepspan_hwip_submit_cmd`. -/
def CmdCall.execPage (c : CmdCall) (hw : PagedHw) (drv : Driver) :
    Option (CmdCall × Page × Driver) :=
  match c.pc with
  | .writeOpcode =>
    (hw.page.store32 SimReg.cmdOpcode c.opcode).map fun page => ({ c with pc := .writeArg0 }, page, drv)
  | .writeArg0 =>
    (hw.page.store32 SimReg.cmdArg0 c.arg0).map fun page => ({ c with pc := .writeArg1 }, page, drv)
  | .writeArg1 =>
    (hw.page.store32 SimReg.cmdArg1 c.arg1).map fun page => ({ c with pc := .writeFlags }, page, drv)
  | .writeFlags =>
    (hw.page.store32 SimReg.cmdFlags 0).map fun page => ({ c with pc := .orStart }, page, drv)
  | .orStart =>
    (hw.page.update32 SimReg.ctrl fun ctrl => ctrl ||| CtrlBits.start).map fun page =>
      ({ c with pc := .take, mark := hw.log.length }, page, drv)
  | .take =>
    if drv.cmdDone then some ({ c with pc := .copyStatus }, hw.page, { drv with cmdDone := false })
    else none
  | .copyStatus => some ({ c with pc := .copyData0 drv.lastStatus }, hw.page, drv)
  | .copyData0 status => some ({ c with pc := .copyData1 status drv.lastResult0 }, hw.page, drv)
  | .copyData1 status data0 =>
    some ({ c with pc := .returned status data0 drv.lastResult1 }, hw.page, drv)
  | .returned _ _ _ | .timedOut => none

theorem simReg_eq : SimReg.ctrl = RegName.offset .ctrl ∧
    SimReg.irqStatus = RegName.offset .irqStatus ∧ SimReg.irqEnable = RegName.offset .irqEnable ∧
    SimReg.cmdOpcode = RegName.offset .cmdOpcode ∧ SimReg.cmdArg0 = RegName.offset .cmdArg0 ∧
    SimReg.cmdArg1 = RegName.offset .cmdArg1 ∧ SimReg.cmdFlags = RegName.offset .cmdFlags ∧
    SimReg.resultStatus = RegName.offset .resultStatus ∧
    SimReg.resultData0 = RegName.offset .resultData0 ∧
    SimReg.resultData1 = RegName.offset .resultData1 := by
  decide

/-- The driver and the segment. -/
def viewDriver (p : Driver × Page) : Driver × Segment := (p.1, p.2.view)

theorem driver_store {x : Option Page} {seg : Segment}
    (h : ∃ page, x = some page ∧ page.view = seg) (drv : Driver) :
    (x.map fun page => (drv, page)).map viewDriver = some (drv, seg) := by
  obtain ⟨page, rfl, rfl⟩ := h
  rfl

theorem pollThreadPage_view (mode : AckMode) (drv : Driver) (page : Page) :
    (drv.pollThreadPage mode page).map viewDriver = some (drv.pollThreadStep mode page.view) := by
  obtain ⟨_, hirq, _, _, _, _, _, hstatus, hdata0, hdata1⟩ := simReg_eq
  unfold Driver.pollThreadPage Driver.pollThreadStep
  cases drv.thread with
  | load =>
    simp only [hirq]
    exact map_load (load32_reg page .irqStatus) _
  | readStatus =>
    simp only [hstatus]
    exact map_load (load32_reg page .resultStatus) _
  | readData0 =>
    simp only [hdata0]
    exact map_load (load32_reg page .resultData0) _
  | readData1 =>
    simp only [hdata1]
    exact map_load (load32_reg page .resultData1) _
  | ack =>
    simp only [AckMode.storePage, hirq]
    cases mode with
    | plain => exact driver_store (store32_reg page .irqStatus irqDone) _
    | w1c => exact driver_store (update32_reg page .irqStatus _) _
  | give => rfl

def viewCall (p : CmdCall × Page × Driver) : CmdCall × Segment × Driver := (p.1, p.2.1.view, p.2.2)

theorem call_store {x : Option Page} {seg : Segment}
    (h : ∃ page, x = some page ∧ page.view = seg) (c : CmdCall) (drv : Driver) :
    (x.map fun page => (c, page, drv)).map viewCall = some (c, seg, drv) := by
  obtain ⟨page, rfl, rfl⟩ := h
  rfl

theorem cmdExecPage_view (c : CmdCall) (hw : PagedHw) (drv : Driver) :
    (c.execPage hw drv).map viewCall = c.exec hw.view drv := by
  obtain ⟨hctrl, _, _, hopcode, harg0, harg1, hflags, _⟩ := simReg_eq
  unfold CmdCall.execPage CmdCall.exec
  cases c.pc with
  | writeOpcode =>
    simp only [hopcode]
    exact call_store (store32_reg hw.page .cmdOpcode _) _ _
  | writeArg0 =>
    simp only [harg0]
    exact call_store (store32_reg hw.page .cmdArg0 _) _ _
  | writeArg1 =>
    simp only [harg1]
    exact call_store (store32_reg hw.page .cmdArg1 _) _ _
  | writeFlags =>
    simp only [hflags]
    exact call_store (store32_reg hw.page .cmdFlags _) _ _
  | orStart =>
    simp only [hctrl]
    exact call_store (update32_reg hw.page .ctrl _) _ _
  | take =>
    simp only
    split <;> rfl
  | copyStatus | copyData0 | copyData1 | returned | timedOut => rfl

structure PagedZephyr where
  hw : PagedHw
  drv : Driver
  calls : List CmdCall

def PagedZephyr.view (p : PagedZephyr) : ZephyrState := ⟨p.hw.view, p.drv, p.calls⟩

def PagedZephyr.callStep (p : PagedZephyr) (i : Nat) : Option PagedZephyr :=
  match p.calls[i]? with
  | none => none
  | some c =>
    (c.execPage p.hw p.drv).map fun q =>
      { hw := { p.hw with page := q.2.1 }, drv := q.2.2, calls := p.calls.set i q.1 }

def PagedZephyr.timeoutStep (p : PagedZephyr) (i : Nat) : Option PagedZephyr :=
  match p.calls[i]? with
  | none => none
  | some c =>
    if c.pc = .take ∧ p.drv.cmdDone = false then
      some { p with calls := p.calls.set i { c with pc := .timedOut } }
    else none

def PagedZephyr.step (mode : AckMode) (cfg : HwModelConfig) (p : PagedZephyr) :
    ZephyrAct → Option PagedZephyr
  | .submitCmd opcode arg0 arg1 =>
    some { p with calls := p.calls ++ [⟨opcode, arg0, arg1, .writeOpcode, 0⟩] }
  | .call i => p.callStep i
  | .timeout i => p.timeoutStep i
  | .pollThread =>
    (p.drv.pollThreadPage mode p.hw.page).map fun q =>
      { p with hw := { p.hw with page := q.2 }, drv := q.1 }
  | .device => (p.hw.pollLoopStep cfg).map fun hw => { p with hw := hw }
  | .stop => some { p with hw := { p.hw with running := false } }

/-- `hwip_sim_init` on a page that `HwModelServer::init` has set up. -/
def hwipSimInitPage (startTimeSec : UInt64) (page : Page) : Option PagedZephyr := do
  let hw ← hwModelInitPage startTimeSec page
  let page ← hw.page.store32 SimReg.irqEnable irqDone
  some ⟨{ hw with page := page }, ⟨false, 0, 0, 0, .load⟩, []⟩

def pagedZephyrSystem (mode : AckMode) (cfg : HwModelConfig) : System PagedZephyr ZephyrAct where
  init p := ∃ t page, hwipSimInitPage t page = some p
  step := PagedZephyr.step mode cfg

theorem hwipSimInitPage_view (startTimeSec : UInt64) (page : Page) :
    ∃ p, hwipSimInitPage startTimeSec page = some p ∧
      p.view = ZephyrState.initial startTimeSec page.view := by
  obtain ⟨hw, hinit, hview⟩ := hwModelInitPage_view startTimeSec page
  obtain ⟨page', hstore, hpage⟩ := store32_reg hw.page .irqEnable irqDone
  refine ⟨⟨{ hw with page := page' }, ⟨false, 0, 0, 0, .load⟩, []⟩, ?_, ?_⟩
  · simp only [hwipSimInitPage, hinit, simReg_eq.2.2.1, hstore, Option.bind_eq_bind, Option.bind_some]
  · have hseg : hw.page.view = (hwModelInit startTimeSec page.view).seg := congrArg HwModel.seg hview
    rw [ZephyrState.initial, ← hview]
    simp only [PagedZephyr.view, PagedHw.view, hpage, hseg]
    rfl

theorem zephyrStep_view (mode : AckMode) (cfg : HwModelConfig) (p : PagedZephyr) (a : ZephyrAct) :
    (p.step mode cfg a).map PagedZephyr.view = p.view.step mode cfg a := by
  cases a with
  | submitCmd | stop => rfl
  | call i =>
    have hcalls : p.view.calls[i]? = p.calls[i]? := rfl
    simp only [PagedZephyr.step, ZephyrState.step, PagedZephyr.callStep, ZephyrState.callStep, hcalls]
    cases p.calls[i]? with
    | none => rfl
    | some c =>
      have hexec := cmdExecPage_view c p.hw p.drv
      simp only
      rw [show p.view.hw = p.hw.view from rfl, show p.view.drv = p.drv from rfl, ← hexec,
        Option.map_map, Option.map_map]
      rfl
  | timeout i =>
    have hcalls : p.view.calls[i]? = p.calls[i]? := rfl
    simp only [PagedZephyr.step, ZephyrState.step, PagedZephyr.timeoutStep, ZephyrState.timeoutStep,
      hcalls]
    cases p.calls[i]? with
    | none => rfl
    | some c =>
      simp only [show p.view.drv = p.drv from rfl]
      split <;> rfl
  | pollThread =>
    have hthread := pollThreadPage_view mode p.drv p.hw.page
    obtain ⟨q, hq, hview⟩ := Option.map_eq_some_iff.mp hthread
    simp only [PagedZephyr.step, ZephyrState.step, hq, Option.map_some]
    rw [show p.view.drv.pollThreadStep mode p.view.hw.seg = viewDriver q from hview.symm]
    rfl
  | device =>
    have hstep := pollLoopStep_view cfg p.hw
    simp only [PagedZephyr.step, ZephyrState.step]
    rw [show p.view.hw = p.hw.view from rfl, ← hstep, Option.map_map, Option.map_map]
    rfl

/-- The driver and the hw-model, too, reach on the page exactly what they reach on the segment,
whatever a segment held before. -/
theorem paged_zephyr_runs (mode : AckMode) (cfg : HwModelConfig)
    (G : ZephyrState → ZephyrAct → Prop) (s : ZephyrState) :
    Reach (zephyrSystem mode cfg) G s ↔ ∃ p : PagedZephyr, p.view = s ∧
      Reach (pagedZephyrSystem mode cfg) (fun p a => G p.view a) p := by
  have hviews : Views (pagedZephyrSystem mode cfg) (zephyrSystem mode cfg) PagedZephyr.view := by
    refine ⟨fun s => ⟨?_, ?_⟩, zephyrStep_view mode cfg⟩
    · rintro ⟨t, seg, rfl⟩
      obtain ⟨page, rfl⟩ := exists_page seg
      obtain ⟨p, hinit, hview⟩ := hwipSimInitPage_view t page
      exact ⟨p, ⟨t, page, hinit⟩, hview⟩
    · rintro ⟨p, ⟨t, page, hinit⟩, rfl⟩
      obtain ⟨p', hinit', hview⟩ := hwipSimInitPage_view t page
      cases hinit.symm.trans hinit'
      exact ⟨t, page.view, hview⟩
  exact hviews.reach_iff

end Deepspan
