import Deepspan.Zephyr.App

/-!
# The calls of the firmware application

What holds of the call of `deepspan_hwip_submit_cmd` that `main` is in.

* `CallOk` follows the command of a call that has found the hw-model idle, and not what the
  call makes of it; `Values` and `Copied` are the words it can come to return meanwhile.
* `CleanCall` is the invariant of the driver's calls (`CmdOk`) for a call that starts with
  nothing left of an earlier completion, and `RightCall` adds that such a call returns what
  its task asks for.
-/

namespace Deepspan

variable {mode : AckMode} {cfg : HwModelConfig} {hw hw' : HwModel} {drv drv' : Driver}
  {c c' : CmdCall} {seg' : Segment} {task : AppTask} {autoIrq : Bool}

/-! ## The command of the call under way -/

/-- START is clear, and the loop is not in a command. -/
structure HwIdle (hw : HwModel) : Prop where
  started : hw.seg.reg.started = false
  inCommand : hw.pc.inCommand = false

theorem HwIdle.device (h : HwIdle hw) (hs : hw.pollLoopStep cfg = some hw') : HwIdle hw' := by
  obtain ⟨hst, hidle⟩ := h
  cases pollLoopStep_cases hs with
  | stay _ _ | leave _ _ | unseen _ _ | raiseIrq _ => exact ⟨hst, rfl⟩
  | writeReady _ hpc => rcases hpc with rfl | rfl <;> exact ⟨hst, rfl⟩
  | seen _ hset =>
    rw [hst] at hset
    cases hset
  | callHandler hp _ => rw [hp] at hidle; cases hidle
  | readOpcode hp | readArg0 hp | readArg1 hp | writeData0 hp | writeData1 hp | writeStatus hp
  | fetchAdd hp | storeCount hp | storeLastOpcode hp | storeLastStatus hp | clearStart hp =>
    rw [hp] at hidle
    cases hidle

theorem HwIdle.pollThread (h : HwIdle hw) (hs : drv.pollThreadStep mode hw.seg = (drv', seg')) :
    HwIdle { hw with seg := seg' } := by
  obtain ⟨irq, rfl⟩ := pollThread_irqStatus hs
  exact ⟨h.started, h.inCommand⟩

/-- How far the command of a call has come at a program point of the call. -/
def CallAt (task : AppTask) (hw : HwModel) (c : CmdCall) : Prop :=
  match c.pc with
  | .writeOpcode => hw.seg.HoldsDma task.data ∧ HwIdle hw
  | .writeArg0 => hw.seg.HoldsDma task.data ∧ HwIdle hw ∧ hw.seg.reg.cmdOpcode = task.cmd.opcode
  | .writeArg1 =>
    hw.seg.HoldsDma task.data ∧ HwIdle hw ∧ hw.seg.reg.cmdOpcode = task.cmd.opcode ∧
    hw.seg.reg.cmdArg0 = task.cmd.arg0
  | .writeFlags | .orStart => task.cmd.Held hw.seg ∧ HwIdle hw
  | _ => task.cmd.Held hw.seg ∧ (Serving task.cmd c.mark hw ∨ Served task.cmd c.mark hw)

/-- The call is that of a task that has found the hw-model idle. -/
structure CallOk (task : AppTask) (hw : HwModel) (c : CmdCall) : Prop where
  own : c = { task.call with pc := c.pc, mark := c.mark }
  progress : CallAt task hw c

/-- What others have to keep of the segment. -/
theorem CallOk.frame (h : CallOk task hw c) (hsame : SameCmd hw.seg hw'.seg)
    (hidle : HwIdle hw → HwIdle hw')
    (hcmd : task.cmd.Held hw.seg → Serving task.cmd c.mark hw ∨ Served task.cmd c.mark hw →
      Serving task.cmd c.mark hw' ∨ Served task.cmd c.mark hw') : CallOk task hw' c := by
  have hdma (hd : hw.seg.HoldsDma task.data) : hw'.seg.HoldsDma task.data :=
    hd.congr hsame.dma hsame.tail
  refine ⟨h.own, ?_⟩
  have hat := h.progress
  unfold CallAt at hat ⊢
  cases hp : c.pc with
  | writeOpcode =>
    simp only [hp] at hat ⊢
    exact ⟨hdma hat.1, hidle hat.2⟩
  | writeArg0 =>
    simp only [hp] at hat ⊢
    exact ⟨hdma hat.1, hidle hat.2.1, hsame.opcode.trans hat.2.2⟩
  | writeArg1 =>
    simp only [hp] at hat ⊢
    exact ⟨hdma hat.1, hidle hat.2.1, hsame.opcode.trans hat.2.2.1, hsame.arg0.trans hat.2.2.2⟩
  | writeFlags | orStart =>
    simp only [hp] at hat ⊢
    exact ⟨hat.1.of_same hsame, hidle hat.2⟩
  | _ =>
    simp only [hp] at hat ⊢
    exact ⟨hat.1.of_same hsame, hcmd hat.1 hat.2⟩

theorem CallOk.device (h : CallOk task hw c) (hs : hw.pollLoopStep cfg = some hw') :
    CallOk task hw' c :=
  h.frame (sameCmd_step hs) (fun hidle => hidle.device hs)
    fun hheld hcmd => served_or_serving_step hheld hcmd hs

theorem CallOk.pollThread (h : CallOk task hw c)
    (hs : drv.pollThreadStep mode hw.seg = (drv', seg')) :
    CallOk task { hw with seg := seg' } c := by
  obtain ⟨irq, rfl⟩ := pollThread_irqStatus hs
  refine h.frame ⟨rfl, rfl, rfl, rfl, rfl⟩ (fun hidle => ⟨hidle.started, hidle.inCommand⟩) ?_
  intro _ hcmd
  rcases hcmd with hserving | hserved
  · exact .inl hserving
  · exact .inr ⟨hserved.started, hserved.idle, hserved.answered⟩

theorem CallOk.stop (h : CallOk task hw c) : CallOk task { hw with running := false } c := by
  refine h.frame ⟨rfl, rfl, rfl, rfl, rfl⟩ (fun hidle => ⟨hidle.started, hidle.inCommand⟩) ?_
  intro _ hcmd
  rcases hcmd with hserving | hserved
  · exact .inl hserving
  · exact .inr ⟨hserved.started, hserved.idle, hserved.answered⟩

theorem CallOk.exec (h : CallOk task hw c) (hs : c.exec hw drv = some (c', seg', drv')) :
    CallOk task { hw with seg := seg' } c' := by
  obtain ⟨hown, hat⟩ := h
  have hop : c.opcode = task.cmd.opcode := congrArg CmdCall.opcode hown
  have harg0 : c.arg0 = task.cmd.arg0 := congrArg CmdCall.arg0 hown
  have harg1 : c.arg1 = task.cmd.arg1 := congrArg CmdCall.arg1 hown
  unfold CallAt at hat
  cases cmdExec_cases hs with
  | writeOpcode hp =>
    simp only [hp] at hat
    exact ⟨by rw [hown], hat.1.congr rfl rfl, ⟨hat.2.started, hat.2.inCommand⟩, hop⟩
  | writeArg0 hp =>
    simp only [hp] at hat
    exact ⟨by rw [hown], hat.1.congr rfl rfl, ⟨hat.2.1.started, hat.2.1.inCommand⟩, hat.2.2,
      harg0⟩
  | writeArg1 hp =>
    simp only [hp] at hat
    exact ⟨by rw [hown], ⟨hat.2.2.1, hat.2.2.2, harg1, hat.1.congr rfl rfl⟩,
      ⟨hat.2.1.started, hat.2.1.inCommand⟩⟩
  | writeFlags hp =>
    simp only [hp] at hat
    exact ⟨by rw [hown], ⟨hat.1.opcode, hat.1.arg0, hat.1.arg1, hat.1.dma.congr rfl rfl⟩,
      ⟨hat.2.started, hat.2.inCommand⟩⟩
  | orStart hp =>
    simp only [hp] at hat
    have hstart : (hw.seg.withReg fun r => { r with ctrl := r.ctrl ||| CtrlBits.start }).reg.started
        = true := started_or_start ..
    have hmid : hw.pc.midCommand = false := by
      rw [PollPc.midCommand, hat.2.inCommand]
      rfl
    exact ⟨by rw [hown], ⟨hat.1.opcode, hat.1.arg0, hat.1.arg1, hat.1.dma.congr rfl rfl⟩,
      .inl (serving_of_start hstart hmid)⟩
  | take hp _ | copyStatus hp | copyData0 hp | copyData1 hp =>
    simp only [hp] at hat
    exact ⟨by rw [hown], hat⟩

theorem CallOk.timeout (h : CallOk task hw c) (hp : c.pc = .take) :
    CallOk task hw { c with pc := .timedOut } := by
  have hat := h.progress
  simp only [CallAt, hp] at hat
  exact ⟨congrArg (fun d : CmdCall => { d with pc := .timedOut }) h.own, hat⟩

/-- A task begins on an idle hw-model. -/
theorem callOk_new (h : HwIdle hw) (task : AppTask) :
    CallOk task { hw with seg := hw.seg.copyDma task.data } task.call :=
  ⟨rfl, holdsDma_copyDma _ task.data_length, ⟨h.started, h.inCommand⟩⟩

/-- The call has yet to set START. -/
def CmdPc.beforeStart : CmdPc → Bool
  | .writeOpcode | .writeArg0 | .writeArg1 | .writeFlags | .orStart => true
  | _ => false

theorem CallOk.idle (h : CallOk task hw c) (hpc : c.pc.beforeStart = true) : HwIdle hw := by
  have hat := h.progress
  unfold CallAt at hat
  cases hp : c.pc with
  | writeOpcode | writeFlags | orStart =>
    simp only [hp] at hat
    exact hat.2
  | writeArg0 | writeArg1 =>
    simp only [hp] at hat
    exact hat.2.1
  | _ => rw [hp] at hpc; cases hpc

theorem CallOk.commanded (h : CallOk task hw c) (hpc : c.pc.beforeStart = false) :
    Serving task.cmd c.mark hw ∨ Served task.cmd c.mark hw := by
  have hat := h.progress
  unfold CallAt at hat
  cases hp : c.pc with
  | writeOpcode | writeArg0 | writeArg1 | writeFlags | orStart => rw [hp] at hpc; cases hpc
  | _ =>
    simp only [hp] at hat
    exact hat.2

/-- Once the call has set START, an idle hw-model has answered it. -/
theorem CallOk.served (h : CallOk task hw c) (hpc : c.pc.beforeStart = false)
    (hst : hw.seg.reg.started = false) : Served task.cmd c.mark hw := by
  rcases h.commanded hpc with hserving | hserved
  · rw [hserving.1] at hst
    cases hst
  · exact hserved

/-! ## The values that a call can come to return -/

/-- The word that `main` logs, where the hw-model has put it and where the poll thread has. -/
structure Values (S : UInt32 → Prop) (hw : HwModel) (drv : Driver) : Prop where
  result : S hw.seg.reg.resultData0
  latched : S drv.lastResult0

/-- The call has copied such a word. -/
def Copied (S : UInt32 → Prop) (c : CmdCall) : Prop :=
  match c.pc with
  | .copyData1 _ data0 | .returned _ data0 _ => S data0
  | _ => True

variable {S : UInt32 → Prop}

theorem Values.pollThread (h : Values S hw drv)
    (hs : drv.pollThreadStep mode hw.seg = (drv', seg')) : Values S { hw with seg := seg' } drv' := by
  obtain ⟨irq, hseg⟩ := pollThread_irqStatus hs
  refine ⟨by rw [hseg]; exact h.result, ?_⟩
  unfold Driver.pollThreadStep at hs
  cases hp : drv.thread with
  | readData0 =>
    simp only [hp, Prod.mk.injEq] at hs
    rw [← hs.1]
    exact h.result
  | _ =>
    simp only [hp, Prod.mk.injEq] at hs
    rw [← hs.1]
    exact h.latched

theorem Values.idle (h : Values S hw drv) (hidle : HwIdle hw)
    (hs : hw.pollLoopStep cfg = some hw') : Values S hw' drv := by
  refine ⟨?_, h.latched⟩
  have hr0 : hw'.seg.reg.resultData0 = hw.seg.reg.resultData0 :=
    congrArg Reply.r0 (result_step_idle hidle.inCommand hs)
  rw [hr0]
  exact h.result

/-- While a call is under way the hw-model puts the answer to its command there. -/
theorem Values.device (h : Values S hw drv) (hcall : CallOk task hw c)
    (hlog : Logged (crc32Config autoIrq) hw.log) (hright : S task.right)
    (hs : hw.pollLoopStep (crc32Config autoIrq) = some hw') : Values S hw' drv := by
  by_cases hpc : c.pc.beforeStart = true
  · exact h.idle (hcall.idle hpc) hs
  · refine ⟨?_, h.latched⟩
    rcases hcall.commanded (Bool.not_eq_true _ ▸ hpc) with hserving | hserved
    · have hcmd := hserving.2
      cases pollLoopStep_cases hs with
      | writeData0 hp =>
        simp only [hp] at hcmd
        simp only [Segment.withReg, hlog.task_reply hcmd]
        exact hright
      | _ => exact h.result
    · exact (h.idle ⟨hserved.started, hserved.idle⟩ hs).result

theorem Values.exec (h : Values S hw drv) (hs : c.exec hw drv = some (c', seg', drv')) :
    Values S { hw with seg := seg' } drv' := by
  cases cmdExec_cases hs <;> exact ⟨h.result, h.latched⟩

theorem Copied.exec (h : Copied S c) (hvalues : Values S hw drv)
    (hs : c.exec hw drv = some (c', seg', drv')) : Copied S c' := by
  unfold Copied at h
  cases cmdExec_cases hs with
  | copyData0 _ => exact hvalues.latched
  | copyData1 hp =>
    simp only [hp] at h
    exact h
  | writeOpcode _ | writeArg0 _ | writeArg1 _ | writeFlags _ | orStart _ | take _ _
  | copyStatus _ => trivial

/-! ## Calls that start with nothing left over -/

/-- No interrupt, and nothing on its way from one to the semaphore. -/
structure NoneGiven (hw : HwModel) (drv : Driver) : Prop where
  irq : hw.seg.reg.irqPending = false
  sem : drv.cmdDone = false
  thread : drv.thread = .load

/-- The hw-model is not about to raise an interrupt, either. -/
structure Clean (hw : HwModel) (drv : Driver) : Prop extends NoneGiven hw drv where
  tail : hw.pc.inTail = false

/-- Until the hw-model has cleared START, nothing is there that would end the wait. -/
def Waits (hw : HwModel) (drv : Driver) (c : CmdCall) : Prop :=
  match c.pc with
  | .take => hw.seg.reg.started = true → Clean hw drv
  | .copyStatus | .copyData0 _ | .copyData1 _ _ | .returned _ _ _ | .timedOut => True
  | _ => HwIdle hw ∧ Clean hw drv

structure CleanCall (hw : HwModel) (drv : Driver) (c : CmdCall) : Prop where
  cmd : CmdOk hw drv c
  waits : Waits hw drv c

theorem Clean.device (h : Clean hw drv) (hs : hw.pollLoopStep cfg = some hw')
    (hst : hw'.seg.reg.started = hw.seg.reg.started) (hin : hw.pc.inCommand = true →
      hw.seg.reg.started = true) : Clean hw' drv := by
  obtain ⟨⟨hirq, hsem, hthread⟩, htail⟩ := h
  cases pollLoopStep_cases hs with
  | clearStart hp =>
    -- this is the step that clears START
    rw [hin (by rw [hp]; rfl)] at hst
    simp [Segment.withReg] at hst
  | writeReady hp _ | raiseIrq hp => rw [hp] at htail; cases htail
  | _ => exact ⟨⟨hirq, hsem, hthread⟩, rfl⟩

theorem NoneGiven.pollThread (h : NoneGiven hw drv)
    (hs : drv.pollThreadStep mode hw.seg = (drv', seg')) : drv' = drv ∧ seg' = hw.seg := by
  simp only [Driver.pollThreadStep, h.thread, h.irq, Bool.false_eq_true, if_false,
    Prod.mk.injEq] at hs
  obtain ⟨rfl, rfl⟩ := hs
  refine ⟨?_, rfl⟩
  rw [← h.thread]

theorem Waits.before (h : Waits hw drv c) (hpc : c.pc.beforeStart = true) :
    HwIdle hw ∧ Clean hw drv := by
  unfold Waits at h
  cases hp : c.pc <;> simp only [hp] at h hpc <;> first | exact h | cases hpc

theorem waits_of_before (hidle : HwIdle hw) (hclean : Clean hw drv)
    (hpc : c.pc.beforeStart = true) : Waits hw drv c := by
  unfold Waits
  cases hp : c.pc <;> simp only [hp] at hpc ⊢ <;> first | exact ⟨hidle, hclean⟩ | cases hpc

theorem waits_of_past (htake : c.pc ≠ .take) (hpc : c.pc.beforeStart = false) :
    Waits hw drv c := by
  unfold Waits
  cases hp : c.pc <;> simp only [hp] at hpc <;> trivial

theorem CleanCall.device (h : CleanCall hw drv c)
    (hin : hw.pc.inCommand = true → hw.seg.reg.started = true)
    (hs : hw.pollLoopStep cfg = some hw') : CleanCall hw' drv c := by
  refine ⟨cmdOk_device h.cmd hs, ?_⟩
  by_cases hpc : c.pc.beforeStart = true
  · obtain ⟨hidle, hclean⟩ := h.waits.before hpc
    have hidle' := hidle.device hs
    exact waits_of_before hidle' (hclean.device hs (hidle'.started.trans hidle.started.symm) hin) hpc
  · by_cases htake : c.pc = .take
    · have hwaits := h.waits
      simp only [Waits, htake] at hwaits ⊢
      intro hst
      have hst' := started_step hs hst
      exact (hwaits hst').device hs (hst.trans hst'.symm) hin
    · exact waits_of_past htake (Bool.not_eq_true _ ▸ hpc)

theorem CleanCall.pollThread (h : CleanCall hw drv c)
    (hs : drv.pollThreadStep mode hw.seg = (drv', seg')) :
    CleanCall { hw with seg := seg' } drv' c := by
  refine ⟨cmdOk_pollThread h.cmd hs ?_, ?_⟩
  · intro htake hst _
    have hwaits := h.waits
    simp only [Waits, htake] at hwaits
    exact (hwaits hst).irq
  · by_cases hpc : c.pc.beforeStart = true
    · obtain ⟨hidle, hclean⟩ := h.waits.before hpc
      obtain ⟨rfl, rfl⟩ := hclean.pollThread hs
      exact waits_of_before hidle hclean hpc
    · by_cases htake : c.pc = .take
      · have hwaits := h.waits
        obtain ⟨irq, hseg⟩ := pollThread_irqStatus hs
        simp only [Waits, htake] at hwaits ⊢
        intro hst
        have hclean := hwaits (by rw [hseg] at hst; exact hst)
        obtain ⟨rfl, rfl⟩ := hclean.pollThread hs
        exact hclean
      · exact waits_of_past htake (Bool.not_eq_true _ ▸ hpc)

theorem CleanCall.stop (h : CleanCall hw drv c) :
    CleanCall { hw with running := false } drv c := by
  refine ⟨cmdOk_stop h.cmd, ?_⟩
  have hclean (hc : Clean hw drv) : Clean { hw with running := false } drv :=
    ⟨⟨hc.irq, hc.sem, hc.thread⟩, hc.tail⟩
  by_cases hpc : c.pc.beforeStart = true
  · obtain ⟨hidle, hc⟩ := h.waits.before hpc
    exact waits_of_before ⟨hidle.started, hidle.inCommand⟩ (hclean hc) hpc
  · by_cases htake : c.pc = .take
    · have hwaits := h.waits
      simp only [Waits, htake] at hwaits ⊢
      exact fun hst => hclean (hwaits hst)
    · exact waits_of_past htake (Bool.not_eq_true _ ▸ hpc)

theorem CleanCall.exec (h : CleanCall hw drv c) (hs : c.exec hw drv = some (c', seg', drv')) :
    CleanCall { hw with seg := seg' } drv' c' := by
  refine ⟨cmdOk_exec h.cmd hs ?_, ?_⟩
  · intro hp
    obtain ⟨hidle, hclean⟩ := h.waits.before (by rw [hp]; rfl)
    refine ⟨?_, hclean.sem, hclean.thread⟩
    rw [PollPc.midCommand, hidle.inCommand]
    rfl
  · cases cmdExec_cases hs with
    | writeOpcode hp | writeArg0 hp | writeArg1 hp | writeFlags hp =>
      obtain ⟨hidle, hclean⟩ := h.waits.before (by rw [hp]; rfl)
      exact ⟨⟨hidle.started, hidle.inCommand⟩, ⟨⟨hclean.irq, hclean.sem, hclean.thread⟩, hclean.tail⟩⟩
    | orStart hp =>
      obtain ⟨_, hclean⟩ := h.waits.before (by rw [hp]; rfl)
      exact fun _ => ⟨⟨hclean.irq, hclean.sem, hclean.thread⟩, hclean.tail⟩
    | take _ _ | copyStatus _ | copyData0 _ | copyData1 _ => trivial

/-! ## Calls that return what their task asks for -/

/-- From the end of the wait on, the hw-model is idle with the task's answer in its registers. -/
def Settles (task : AppTask) (hw : HwModel) (drv : Driver) (c : CmdCall) : Prop :=
  match c.pc with
  | .copyStatus | .copyData0 _ | .copyData1 _ _ | .returned _ _ _ =>
    HwIdle hw ∧ Values (· = task.right) hw drv
  | _ => True

structure RightCall (task : AppTask) (hw : HwModel) (drv : Driver) (c : CmdCall) : Prop where
  call : CallOk task hw c
  clean : CleanCall hw drv c
  settles : Settles task hw drv c
  copied : Copied (· = task.right) c

theorem Settles.imp (h : Settles task hw drv c)
    (himp : HwIdle hw → Values (· = task.right) hw drv →
      HwIdle hw' ∧ Values (· = task.right) hw' drv') : Settles task hw' drv' c := by
  unfold Settles at h ⊢
  cases hp : c.pc <;> simp only [hp] at h ⊢ <;> exact himp h.1 h.2

theorem RightCall.device (h : RightCall task hw drv c)
    (hin : hw.pc.inCommand = true → hw.seg.reg.started = true)
    (hs : hw.pollLoopStep cfg = some hw') : RightCall task hw' drv c where
  call := h.call.device hs
  clean := h.clean.device hin hs
  settles := h.settles.imp fun hidle hvalues => ⟨hidle.device hs, hvalues.idle hidle hs⟩
  copied := h.copied

theorem RightCall.pollThread (h : RightCall task hw drv c)
    (hs : drv.pollThreadStep mode hw.seg = (drv', seg')) :
    RightCall task { hw with seg := seg' } drv' c where
  call := h.call.pollThread hs
  clean := h.clean.pollThread hs
  settles := h.settles.imp fun hidle hvalues => ⟨hidle.pollThread hs, hvalues.pollThread hs⟩
  copied := h.copied

theorem RightCall.stop (h : RightCall task hw drv c) :
    RightCall task { hw with running := false } drv c where
  call := h.call.stop
  clean := h.clean.stop
  settles := h.settles.imp fun hidle hvalues =>
    ⟨⟨hidle.started, hidle.inCommand⟩, ⟨hvalues.result, hvalues.latched⟩⟩
  copied := h.copied

theorem RightCall.exec (h : RightCall task hw drv c)
    (hlog : Logged (crc32Config autoIrq) hw.log) (hs : c.exec hw drv = some (c', seg', drv')) :
    RightCall task { hw with seg := seg' } drv' c' := by
  have hsettles := h.settles
  have hcopied := h.copied
  unfold Settles at hsettles
  unfold Copied at hcopied
  refine ⟨h.call.exec hs, h.clean.exec hs, ?_, ?_⟩
  · cases cmdExec_cases hs with
    | take hp hsem =>
      -- the semaphore has been given for this command, whose result has been latched
      have hcmd := h.clean.cmd
      simp only [CmdOk, hp] at hcmd
      rcases hcmd.2 with ⟨_, hnot, _⟩ | ⟨hdone, hlatched⟩
      · rw [hsem] at hnot
        cases hnot
      · have hserved := h.call.served (by rw [hp]; rfl) hdone.served.started
        have hresult : hw.seg.reg.resultData0 = task.right := hlog.task_reply hserved.answered
        exact ⟨⟨hserved.started, hserved.idle⟩, ⟨hresult, (hlatched hsem).2.1.trans hresult⟩⟩
    | copyStatus hp | copyData0 hp | copyData1 hp =>
      simp only [hp] at hsettles
      exact hsettles
    | writeOpcode _ | writeArg0 _ | writeArg1 _ | writeFlags _ | orStart _ => trivial
  · cases cmdExec_cases hs with
    | copyData0 hp =>
      simp only [hp] at hsettles
      exact hsettles.2.latched
    | copyData1 hp =>
      simp only [hp] at hcopied
      exact hcopied
    | writeOpcode _ | writeArg0 _ | writeArg1 _ | writeFlags _ | orStart _ | take _ _
    | copyStatus _ => trivial

theorem RightCall.timeout (h : RightCall task hw drv c) (hp : c.pc = .take) :
    RightCall task hw drv { c with pc := .timedOut } :=
  ⟨h.call.timeout hp, ⟨trivial, trivial⟩, trivial, trivial⟩

/-- A task that begins with the hw-model idle and nothing left over. -/
theorem rightCall_new (hidle : HwIdle hw) (hclean : Clean hw drv) (task : AppTask) :
    RightCall task { hw with seg := hw.seg.copyDma task.data } drv task.call where
  call := callOk_new hidle task
  clean := ⟨trivial, ⟨hidle.started, hidle.inCommand⟩,
    ⟨⟨hclean.irq, hclean.sem, hclean.thread⟩, hclean.tail⟩⟩
  settles := trivial
  copied := trivial

/-- What it returns. -/
theorem RightCall.ret (h : RightCall task hw drv c) {value : UInt32}
    (hret : c.pc.ret? = some (some value)) :
    value = task.right ∧ HwIdle hw ∧ Values (· = task.right) hw drv := by
  have hsettles := h.settles
  have hcopied := h.copied
  unfold Settles at hsettles
  unfold Copied at hcopied
  obtain ⟨status, data1, hp⟩ := ret?_eq_some hret
  simp only [hp] at hsettles hcopied
  exact ⟨hcopied, hsettles⟩

end Deepspan
