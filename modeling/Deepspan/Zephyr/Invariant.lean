import Deepspan.Zephyr.Driver

/-!
# The invariant of clean starts

Between the hw-model and a waiting call stand two latches: `IRQ_DONE`, which the
poll thread looks at, and the semaphore `cmd_done`. A call is right if both are
down when it sets START and stay down until its own command is done; `CmdInv` is
the invariant of the runs in which that is so (`CleanStart`), for either meaning
of the acknowledging store and with or without timeouts.
-/

namespace Deepspan

open Transition

/-- The driver's data hold the contents of the result registers. -/
def Latched (drv : Driver) (r : RegMap) : Prop :=
  drv.lastStatus = r.resultStatus ∧ drv.lastResult0 = r.resultData0 ∧
  drv.lastResult1 = r.resultData1

/-- What the poll thread has read so far are the contents of the result
registers. -/
def ThreadOk (drv : Driver) (r : RegMap) : Prop :=
  match drv.thread with
  | .load | .readStatus => True
  | .readData0 => drv.lastStatus = r.resultStatus
  | .readData1 => drv.lastStatus = r.resultStatus ∧ drv.lastResult0 = r.resultData0
  | .ack | .give => Latched drv r

/-- The command has been served, and whatever the poll thread latches is its
result. -/
structure Done (cmd : Cmd) (mark : Nat) (hw : HwModel) (drv : Driver) : Prop where
  served : Served cmd mark hw
  thread : ThreadOk drv hw.seg.reg

/-- What holds of a call at each of its program points. -/
def CmdOk (hw : HwModel) (drv : Driver) (c : CmdCall) : Prop :=
  match c.pc with
  | .writeOpcode | .timedOut => True
  | .writeArg0 => hw.seg.reg.cmdOpcode = c.opcode
  | .writeArg1 => hw.seg.reg.cmdOpcode = c.opcode ∧ hw.seg.reg.cmdArg0 = c.arg0
  | .writeFlags | .orStart => c.cmd.Held hw.seg
  | .take =>
    c.cmd.Held hw.seg ∧
    ((Serving c.cmd c.mark hw ∧ drv.cmdDone = false ∧ drv.thread = .load) ∨
      (Done c.cmd c.mark hw drv ∧ (drv.cmdDone = true → Latched drv hw.seg.reg)))
  | .copyStatus => Done c.cmd c.mark hw drv ∧ Latched drv hw.seg.reg
  | .copyData0 status =>
    Done c.cmd c.mark hw drv ∧ Latched drv hw.seg.reg ∧ status = hw.seg.reg.resultStatus
  | .copyData1 status data0 =>
    Done c.cmd c.mark hw drv ∧ Latched drv hw.seg.reg ∧ status = hw.seg.reg.resultStatus ∧
    data0 = hw.seg.reg.resultData0
  | .returned status data0 data1 => Answered c.cmd c.mark hw.log ⟨status, data0, data1⟩

/-- The invariant of runs with clean starts. -/
structure CmdInv (s : ZephyrState) : Prop where
  inTurn : AllButLast (fun c => c.pc.ended = true) s.calls
  inCommand : s.hw.pc.inCommand = true → s.hw.seg.reg.started = true
  calls : ∀ (i : Nat) (c : CmdCall), s.calls[i]? = some c → CmdOk s.hw s.drv c

/-- What other threads have to keep for a call: its command, the log and, once the
command is done, its result and what has been latched of it. The wait is the one
program point at which they make a difference. -/
theorem CmdOk.frame {hw hw' : HwModel} {drv drv' : Driver} {c : CmdCall} (h : CmdOk hw drv c)
    (hsame : SameCmd hw.seg hw'.seg) (hlog : ∃ l, hw'.log = hw.log ++ l)
    (hdone : Done c.cmd c.mark hw drv → Done c.cmd c.mark hw' drv')
    (hresult : Done c.cmd c.mark hw drv → hw'.seg.reg.result = hw.seg.reg.result)
    (hlatched : Done c.cmd c.mark hw drv → Latched drv hw.seg.reg → Latched drv' hw'.seg.reg)
    (htake : c.pc = .take → CmdOk hw' drv' c) : CmdOk hw' drv' c := by
  have hstatus : Done c.cmd c.mark hw drv → hw.seg.reg.resultStatus = hw'.seg.reg.resultStatus :=
    fun hd => (congrArg Reply.status (hresult hd)).symm
  have hdata0 : Done c.cmd c.mark hw drv → hw.seg.reg.resultData0 = hw'.seg.reg.resultData0 :=
    fun hd => (congrArg Reply.r0 (hresult hd)).symm
  cases hp : c.pc with
  | take => exact htake hp
  | writeOpcode | timedOut => simp only [CmdOk, hp]
  | writeArg0 =>
    simp only [CmdOk, hp] at h ⊢
    exact hsame.opcode.trans h
  | writeArg1 =>
    simp only [CmdOk, hp] at h ⊢
    exact ⟨hsame.opcode.trans h.1, hsame.arg0.trans h.2⟩
  | writeFlags | orStart =>
    simp only [CmdOk, hp] at h ⊢
    exact h.of_same hsame
  | copyStatus =>
    simp only [CmdOk, hp] at h ⊢
    exact ⟨hdone h.1, hlatched h.1 h.2⟩
  | copyData0 status =>
    simp only [CmdOk, hp] at h ⊢
    exact ⟨hdone h.1, hlatched h.1 h.2.1, h.2.2.trans (hstatus h.1)⟩
  | copyData1 status data0 =>
    simp only [CmdOk, hp] at h ⊢
    exact ⟨hdone h.1, hlatched h.1 h.2.1, h.2.2.1.trans (hstatus h.1),
      h.2.2.2.trans (hdata0 h.1)⟩
  | returned status data0 data1 =>
    simp only [CmdOk, hp] at h ⊢
    obtain ⟨l, hl⟩ := hlog
    rw [hl]
    exact h.append l

/-! ## The poll thread -/

/-- Of the segment the poll thread changes `IRQ_STATUS` only. -/
theorem pollThread_irqStatus {mode : AckMode} {drv drv' : Driver} {seg seg' : Segment}
    (hs : drv.pollThreadStep mode seg = (drv', seg')) :
    ∃ irq, seg' = seg.withReg fun r => { r with irqStatus := irq } := by
  unfold Driver.pollThreadStep at hs
  cases hp : drv.thread with
  | ack =>
    simp only [hp, Prod.mk.injEq] at hs
    exact ⟨mode.store seg.reg.irqStatus irqDone, hs.2.symm⟩
  | _ =>
    simp only [hp, Prod.mk.injEq] at hs
    exact ⟨seg.reg.irqStatus, hs.2.symm⟩

/-- A poll thread that has read part of the result registers reads on. -/
theorem threadOk_step {mode : AckMode} {drv drv' : Driver} {seg seg' : Segment}
    (h : ThreadOk drv seg.reg) (hs : drv.pollThreadStep mode seg = (drv', seg')) :
    ThreadOk drv' seg'.reg := by
  unfold ThreadOk at h
  unfold Driver.pollThreadStep at hs
  cases hp : drv.thread with
  | load =>
    simp only [hp, Prod.mk.injEq] at hs
    obtain ⟨rfl, rfl⟩ := hs
    cases hirq : seg.reg.irqPending <;> trivial
  | readStatus =>
    simp only [hp, Prod.mk.injEq] at hs
    obtain ⟨rfl, rfl⟩ := hs
    rfl
  | readData0 =>
    simp only [hp, Prod.mk.injEq] at h hs
    obtain ⟨rfl, rfl⟩ := hs
    exact ⟨h, rfl⟩
  | readData1 =>
    simp only [hp, Prod.mk.injEq] at h hs
    obtain ⟨rfl, rfl⟩ := hs
    exact ⟨h.1, h.2, rfl⟩
  | ack =>
    simp only [hp, Prod.mk.injEq] at h hs
    obtain ⟨rfl, rfl⟩ := hs
    exact h
  | give =>
    simp only [hp, Prod.mk.injEq] at hs
    obtain ⟨rfl, rfl⟩ := hs
    trivial

/-- Reading the same result again changes nothing. -/
theorem latched_step {mode : AckMode} {drv drv' : Driver} {seg seg' : Segment}
    (h : Latched drv seg.reg) (hs : drv.pollThreadStep mode seg = (drv', seg')) :
    Latched drv' seg'.reg := by
  unfold Driver.pollThreadStep at hs
  cases hp : drv.thread with
  | readStatus =>
    simp only [hp, Prod.mk.injEq] at hs
    obtain ⟨rfl, rfl⟩ := hs
    exact ⟨rfl, h.2⟩
  | readData0 =>
    simp only [hp, Prod.mk.injEq] at hs
    obtain ⟨rfl, rfl⟩ := hs
    exact ⟨h.1, rfl, h.2.2⟩
  | readData1 =>
    simp only [hp, Prod.mk.injEq] at hs
    obtain ⟨rfl, rfl⟩ := hs
    exact ⟨h.1, h.2.1, rfl⟩
  | _ =>
    simp only [hp, Prod.mk.injEq] at hs
    obtain ⟨rfl, rfl⟩ := hs
    exact h

/-- The semaphore is given only behind a completed read. -/
theorem latched_of_give {mode : AckMode} {drv drv' : Driver} {seg seg' : Segment}
    (hthread : ThreadOk drv seg.reg) (hdone : drv.cmdDone = true → Latched drv seg.reg)
    (hs : drv.pollThreadStep mode seg = (drv', seg')) (h : drv'.cmdDone = true) :
    Latched drv' seg'.reg := by
  have hstep := hs
  unfold Driver.pollThreadStep at hs
  cases hp : drv.thread with
  | give =>
    simp only [ThreadOk, hp, Prod.mk.injEq] at hthread hs
    obtain ⟨rfl, rfl⟩ := hs
    exact hthread
  | _ =>
    simp only [hp, Prod.mk.injEq] at hs
    have hbefore : drv.cmdDone = true := by
      rw [← hs.1] at h
      exact h
    exact latched_step (hdone hbefore) hstep

/-- A step of the poll thread keeps what holds of a call, unless it would start
on an interrupt while the call's command is still being served. -/
theorem cmdOk_pollThread {mode : AckMode} {hw : HwModel} {drv drv' : Driver} {seg' : Segment}
    {c : CmdCall} (h : CmdOk hw drv c) (hs : drv.pollThreadStep mode hw.seg = (drv', seg'))
    (hfresh : c.pc = .take → hw.seg.reg.started = true → drv.thread = .load →
      hw.seg.reg.irqPending = false) :
    CmdOk { hw with seg := seg' } drv' c := by
  obtain ⟨irq, hseg⟩ := pollThread_irqStatus hs
  have hsame : SameCmd hw.seg seg' := by
    rw [hseg]
    exact ⟨rfl, rfl, rfl, rfl, rfl⟩
  have hdone : Done c.cmd c.mark hw drv → Done c.cmd c.mark { hw with seg := seg' } drv' := by
    intro hd
    refine ⟨?_, threadOk_step hd.thread hs⟩
    rw [hseg]
    exact ⟨hd.served.started, hd.served.idle, hd.served.answered⟩
  refine h.frame hsame ⟨[], (List.append_nil _).symm⟩ hdone (fun _ => by rw [hseg]; rfl)
    (fun _ hlat => latched_step hlat hs) ?_
  intro hp
  simp only [CmdOk, hp] at h ⊢
  refine ⟨h.1.of_same hsame, ?_⟩
  rcases h.2 with ⟨hserving, hsem, hload⟩ | ⟨hd, hsem⟩
  · -- the thread looks at IRQ_STATUS and finds nothing
    have hirq := hfresh hp hserving.1 hload
    simp only [Driver.pollThreadStep, hload, hirq, Bool.false_eq_true, if_false,
      Prod.mk.injEq] at hs
    obtain ⟨rfl, rfl⟩ := hs
    exact .inl ⟨hserving, hsem, rfl⟩
  · exact .inr ⟨hdone hd, latched_of_give hd.thread hsem hs⟩

/-! ## The hw-model -/

theorem cmdOk_device {cfg : HwModelConfig} {hw hw' : HwModel} {drv : Driver} {c : CmdCall}
    (h : CmdOk hw drv c) (hs : hw.pollLoopStep cfg = some hw') : CmdOk hw' drv c := by
  have hsame := sameCmd_step hs
  -- between commands neither the result registers nor what was read of them change
  have hregs : Done c.cmd c.mark hw drv → hw'.seg.reg.result = hw.seg.reg.result :=
    fun hd => result_step_idle hd.served.idle hs
  have hlatched : Done c.cmd c.mark hw drv → Latched drv hw.seg.reg → Latched drv hw'.seg.reg := by
    intro hd hlat
    have hr := hregs hd
    exact ⟨hlat.1.trans (congrArg Reply.status hr).symm, hlat.2.1.trans (congrArg Reply.r0 hr).symm,
      hlat.2.2.trans (congrArg Reply.r1 hr).symm⟩
  have hdone : Done c.cmd c.mark hw drv → Done c.cmd c.mark hw' drv := by
    intro hd
    refine ⟨served_step hd.served hs, ?_⟩
    have hr := hregs hd
    have hthread := hd.thread
    unfold ThreadOk at hthread ⊢
    cases hp : drv.thread with
    | load | readStatus => trivial
    | readData0 =>
      simp only [hp] at hthread ⊢
      exact hthread.trans (congrArg Reply.status hr).symm
    | readData1 =>
      simp only [hp] at hthread ⊢
      exact ⟨hthread.1.trans (congrArg Reply.status hr).symm,
        hthread.2.trans (congrArg Reply.r0 hr).symm⟩
    | ack | give =>
      simp only [hp] at hthread ⊢
      exact hlatched hd hthread
  refine h.frame hsame (log_step hs) hdone hregs hlatched ?_
  intro hp
  simp only [CmdOk, hp] at h ⊢
  refine ⟨h.1.of_same hsame, ?_⟩
  rcases h.2 with ⟨hserving, hsem, hload⟩ | ⟨hd, hsem⟩
  · rcases serving_step h.1 hserving hs with hserving' | hserved'
    · exact .inl ⟨hserving', hsem, hload⟩
    · refine .inr ⟨⟨hserved', ?_⟩, fun hgive => ?_⟩
      · simp only [ThreadOk, hload]
      · rw [hsem] at hgive
        cases hgive
  · exact .inr ⟨hdone hd, fun hgive => hlatched hd (hsem hgive)⟩

theorem cmdOk_stop {hw : HwModel} {drv : Driver} {c : CmdCall} (h : CmdOk hw drv c) :
    CmdOk { hw with running := false } drv c := by
  have hdone : Done c.cmd c.mark hw drv → Done c.cmd c.mark { hw with running := false } drv :=
    fun hd => ⟨⟨hd.served.started, hd.served.idle, hd.served.answered⟩, hd.thread⟩
  refine h.frame ⟨rfl, rfl, rfl, rfl, rfl⟩ ⟨[], (List.append_nil _).symm⟩ hdone (fun _ => rfl)
    (fun _ hlat => hlat) ?_
  intro hp
  simp only [CmdOk, hp] at h ⊢
  refine ⟨h.1, ?_⟩
  rcases h.2 with hserving | ⟨hd, hsem⟩
  · exact .inl hserving
  · exact .inr ⟨hdone hd, hsem⟩

/-! ## The calls -/

/-- A call that has ended depends on the log only. -/
theorem CmdOk.of_ended {hw hw' : HwModel} {drv drv' : Driver} {c : CmdCall} (h : CmdOk hw drv c)
    (hended : c.pc.ended = true) (hl : hw'.log = hw.log) : CmdOk hw' drv' c := by
  unfold CmdOk at h ⊢
  cases hp : c.pc with
  | returned status data0 data1 =>
    simp only [hp] at h ⊢
    rw [hl]
    exact h
  | timedOut => trivial
  | _ => rw [hp] at hended; cases hended

theorem cmdExec_not_ended {hw : HwModel} {drv drv' : Driver} {c c' : CmdCall} {seg' : Segment}
    (hs : c.exec hw drv = some (c', seg', drv')) : c.pc.ended = false := by
  cases cmdExec_cases hs with
  | take hp _ => rw [hp]; rfl
  | writeOpcode hp | writeArg0 hp | writeArg1 hp | writeFlags hp | orStart hp | copyStatus hp
  | copyData0 hp | copyData1 hp => rw [hp]; rfl

/-- A call's own step takes it from one program point's condition to the next.
START needs both latches down and the loop not in the middle of a command. -/
theorem cmdOk_exec {hw : HwModel} {drv drv' : Driver} {c c' : CmdCall} {seg' : Segment}
    (h : CmdOk hw drv c) (hs : c.exec hw drv = some (c', seg', drv'))
    (hclean : c.pc = .orStart →
      hw.pc.midCommand = false ∧ drv.cmdDone = false ∧ drv.thread = .load) :
    CmdOk { hw with seg := seg' } drv' c' := by
  unfold CmdOk at h
  cases cmdExec_cases hs with
  | writeOpcode _ => rfl
  | writeArg0 hp =>
    simp only [hp] at h
    exact ⟨h, rfl⟩
  | writeArg1 hp =>
    simp only [hp] at h
    exact ⟨h.1, h.2, rfl, holdsDma_nil _⟩
  | writeFlags hp =>
    simp only [hp] at h
    exact ⟨h.opcode, h.arg0, h.arg1, holdsDma_nil _⟩
  | orStart hp =>
    simp only [hp] at h
    obtain ⟨hmid, hsem, hload⟩ := hclean hp
    have hstart : (hw.seg.withReg fun r => { r with ctrl := r.ctrl ||| CtrlBits.start }).reg.started
        = true := started_or_start ..
    exact ⟨⟨h.opcode, h.arg0, h.arg1, holdsDma_nil _⟩,
      .inl ⟨serving_of_start hstart hmid, hsem, hload⟩⟩
  | take hp hsem =>
    simp only [hp] at h
    -- `cmd_done` has been given, so the command is not in service any more
    rcases h.2 with ⟨_, hnot, _⟩ | ⟨hd, hlat⟩
    · rw [hsem] at hnot
      cases hnot
    · exact ⟨⟨hd.served, hd.thread⟩, hlat hsem⟩
  | copyStatus hp =>
    simp only [hp] at h
    exact ⟨h.1, h.2, h.2.1⟩
  | copyData0 hp =>
    simp only [hp] at h
    exact ⟨h.1, h.2.1, h.2.2, h.2.1.2.1⟩
  | copyData1 hp =>
    simp only [hp] at h
    obtain ⟨hd, hlat, rfl, rfl⟩ := h
    have hans := hd.served.answered
    rw [RegMap.result, ← hlat.2.2] at hans
    exact hans

/-- A call sets START and waits, or it leaves START alone and does not come to wait; the
interrupt it always leaves alone. -/
theorem cmdExec_start {hw : HwModel} {drv drv' : Driver} {c c' : CmdCall} {seg' : Segment}
    (hs : c.exec hw drv = some (c', seg', drv')) :
    seg'.reg.irqPending = hw.seg.reg.irqPending ∧
    ((c.pc = .orStart ∧ c'.pc = .take ∧ seg'.reg.started = true) ∨
      (c.pc ≠ .orStart ∧ c'.pc ≠ .take ∧ seg'.reg.started = hw.seg.reg.started ∧
        (c.pc = .take → drv.cmdDone = true))) := by
  cases cmdExec_cases hs with
  | orStart hp => exact ⟨rfl, .inl ⟨hp, rfl, started_or_start ..⟩⟩
  | take hp hsem => exact ⟨rfl, .inr ⟨by simp [hp], by simp, rfl, fun _ => hsem⟩⟩
  | writeOpcode hp | writeArg0 hp | writeArg1 hp | writeFlags hp | copyStatus hp | copyData0 hp
  | copyData1 hp => exact ⟨rfl, .inr ⟨by simp [hp], by simp, rfl, by simp [hp]⟩⟩

/-- A call never clears START. -/
theorem cmdExec_started {hw : HwModel} {drv drv' : Driver} {c c' : CmdCall} {seg' : Segment}
    (hs : c.exec hw drv = some (c', seg', drv')) (h : hw.seg.reg.started = true) :
    seg'.reg.started = true := by
  rcases (cmdExec_start hs).2 with ⟨_, _, hst⟩ | ⟨_, _, hst, _⟩
  · exact hst
  · exact hst.trans h

/-! ## Runs -/

/-- Calls in turn; at START nothing is about to be given and the loop is not in the
middle of a command; and no interrupt is seen before its time. -/
def CleanStart (s : ZephyrState) (a : ZephyrAct) : Prop :=
  callsInTurn s a = true ∧
  atStart (fun s => s.noGive && !s.hw.pc.midCommand) s a = true ∧ freshIrq s a = true

theorem atStart_call {p : ZephyrState → Bool} {s : ZephyrState} {i : Nat} {c : CmdCall}
    (h : atStart p s (.call i) = true) (hi : s.calls[i]? = some c) (hpc : c.pc = .orStart) :
    p s = true := by
  simpa [atStart, hi, hpc] using h

theorem atStart_intro {p : ZephyrState → Bool} {s : ZephyrState} {a : ZephyrAct}
    (h : ∀ (i : Nat) (c : CmdCall), a = .call i → s.calls[i]? = some c → c.pc = .orStart →
      p s = true) : atStart p s a = true := by
  cases a with
  | call i =>
    cases hi : s.calls[i]? with
    | none => simp only [atStart, hi, Option.all_none]
    | some c =>
      simp only [atStart, hi, Option.all_some, Bool.or_eq_true, bne_iff_ne, ne_eq]
      by_cases hpc : c.pc = .orStart
      · exact .inr (h i c rfl hi hpc)
      · exact .inl hpc
  | _ => rfl

theorem freshIrq_pollThread {s : ZephyrState} (h : freshIrq s .pollThread = true) {i : Nat}
    {c : CmdCall} (hi : s.calls[i]? = some c) (hpc : c.pc = .take)
    (hst : s.hw.seg.reg.started = true) (hload : s.drv.thread = .load) :
    s.hw.seg.reg.irqPending = false := by
  have hany : s.calls.any (fun c => c.pc == .take) = true :=
    List.any_eq_true.mpr ⟨c, List.mem_of_getElem? hi, by rw [hpc]; rfl⟩
  simpa [freshIrq, hload, hst, hany] using h

theorem cmdInv_init (t : UInt64) (seg : Segment) : CmdInv (.initial t seg) where
  inTurn := allButLast_nil
  inCommand := by
    intro h
    cases h
  calls := by
    intro i c hc
    cases hc

theorem inTurn_step {mode : AckMode} {cfg : HwModelConfig} {s s' : ZephyrState} {a : ZephyrAct}
    (h : AllButLast (fun c => c.pc.ended = true) s.calls) (hg : callsInTurn s a = true)
    (hs : s.step mode cfg a = some s') : AllButLast (fun c => c.pc.ended = true) s'.calls := by
  rcases ZephyrState.step_cases hs with ⟨opcode, arg0, arg1, rfl, rfl⟩ |
      ⟨i, c, c', seg', drv', _, hi, hexec, rfl⟩ | ⟨i, c, _, hi, hpc, _, rfl⟩ |
      ⟨_, _, _, _, rfl⟩ | ⟨_, _, _, rfl⟩ | ⟨_, rfl⟩
  · exact allButLast_concat (List.all_eq_true.mp hg) _
  · exact h.set hi (ne_true_of_eq_false (cmdExec_not_ended hexec)) c'
  · exact h.set hi (by rw [hpc]; exact Bool.false_ne_true) _
  · exact h
  · exact h
  · exact h

theorem cmdInv_step {mode : AckMode} {cfg : HwModelConfig} {s s' : ZephyrState} {a : ZephyrAct}
    (h : CmdInv s) (hg : CleanStart s a) (hs : s.step mode cfg a = some s') : CmdInv s' := by
  have hturn := inTurn_step h.inTurn hg.1 hs
  rcases ZephyrState.step_cases hs with ⟨opcode, arg0, arg1, _, rfl⟩ |
      ⟨i, c, c', seg', drv', rfl, hi, hexec, rfl⟩ | ⟨i, c, _, hi, hpc, _, rfl⟩ |
      ⟨drv', seg', rfl, hthread, rfl⟩ | ⟨hw', _, hdev, rfl⟩ | ⟨_, rfl⟩
  · refine ⟨hturn, h.inCommand, ?_⟩
    intro j b hb
    rcases getElem?_concat_cases hb with hb | ⟨_, rfl⟩
    · exact h.calls j b hb
    · trivial
  · -- the call that moves is the only one that has not ended
    refine ⟨hturn, fun hin => cmdExec_started hexec (h.inCommand hin), ?_⟩
    intro j b hb
    rcases getElem?_set_cases hi hb with ⟨rfl, rfl⟩ | ⟨hji, hb⟩
    · refine cmdOk_exec (h.calls j c hi) hexec ?_
      intro hpc
      have hclean := atStart_call hg.2.1 hi hpc
      simpa [ZephyrState.noGive, and_comm, and_assoc] using hclean
    · have hended := h.inTurn.others hi (ne_true_of_eq_false (cmdExec_not_ended hexec)) hb hji
      exact (h.calls j b hb).of_ended hended rfl
  · refine ⟨hturn, h.inCommand, ?_⟩
    intro j b hb
    rcases getElem?_set_cases hi hb with ⟨rfl, rfl⟩ | ⟨_, hb⟩
    · trivial
    · exact h.calls j b hb
  · refine ⟨hturn, ?_, ?_⟩
    · obtain ⟨irq, rfl⟩ := pollThread_irqStatus hthread
      exact h.inCommand
    · intro j b hb
      exact cmdOk_pollThread (h.calls j b hb) hthread
        fun hpc hst hload => freshIrq_pollThread hg.2.2 hb hpc hst hload
  · exact ⟨hturn, inCommand_step h.inCommand hdev, fun j b hb => cmdOk_device (h.calls j b hb) hdev⟩
  · exact ⟨hturn, h.inCommand, fun j b hb => cmdOk_stop (h.calls j b hb)⟩

theorem reach_cmdInv {mode : AckMode} {cfg : HwModelConfig} {s : ZephyrState}
    (h : Reach (zephyrSystem mode cfg) CleanStart s) : CmdInv s := by
  refine h.invariant ?_ ?_
  · rintro _ ⟨t, seg, rfl⟩
    exact cmdInv_init t seg
  · intro s a s' hinv hg hs
    exact cmdInv_step hinv hg hs

/-- A call that has returned 0 has the words of the handler invocation made for its
own command. -/
def OwnResult (s : ZephyrState) (c : CmdCall) (status data0 data1 : UInt32) : Prop :=
  ∃ inv, s.hw.log[c.mark]? = some inv ∧ inv.For c.cmd ∧ inv.reply = ⟨status, data0, data1⟩

theorem CmdInv.ownResult {s : ZephyrState} (h : CmdInv s) {i : Nat} {c : CmdCall}
    {status data0 data1 : UInt32} (hi : s.calls[i]? = some c)
    (hpc : c.pc = .returned status data0 data1) : OwnResult s c status data0 data1 := by
  have hok := h.calls i c hi
  unfold CmdOk at hok
  rw [hpc] at hok
  exact hok

end Deepspan
