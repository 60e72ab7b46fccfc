import Deepspan.Zephyr.Invariant

/-!
# Whose completion does a driver call take?

1. On plain memory the acknowledging store does not lower `IRQ_DONE`. Calls that
   do not time out are right as long as the poll thread does not come across the
   stale bit (`submitCmd_own_result`); `submitCmd_stale_irq` is a run in which it
   does, and the second call returns the result of the first.
2. On a write-1-to-clear register, with timeouts, the calls are right as long as
   none of them sets START while something is left of an abandoned command
   (`submitCmd_own_result_w1c`); `submitCmd_stale_give` is a run in which the
   abandoned command's give completes the next call.
-/

namespace Deepspan

open Transition

/-! ## 1. Plain memory, no timeouts -/

/-- Runs of calls in turn without timeouts, in which at START nothing is about to be
given and no stale interrupt is seen. -/
def PromptClean (s : ZephyrState) (a : ZephyrAct) : Prop :=
  callsInTurn s a = true ∧ noTimeout s a = true ∧ atStart ZephyrState.noGive s a = true ∧
  freshIrq s a = true

/-- Without timeouts START is set only while a call waits. -/
structure CmdSettled (s : ZephyrState) : Prop extends CmdInv s where
  waiting : s.hw.seg.reg.started = true → ∃ (i : Nat) (c : CmdCall), s.calls[i]? = some c ∧
    c.pc = .take

/-- So the loop is between commands whenever a call sets START. -/
theorem CmdSettled.cleanStart {s : ZephyrState} (h : CmdSettled s) {a : ZephyrAct}
    (hg : PromptClean s a) : CleanStart s a := by
  refine ⟨hg.1, atStart_intro ?_, hg.2.2.2⟩
  rintro i c rfl hi hpc
  have hmid : s.hw.pc.midCommand = false := by
    cases hmid : s.hw.pc.midCommand with
    | false => rfl
    | true =>
      have hin : s.hw.pc.inCommand = true := by
        simp only [PollPc.midCommand, Bool.and_eq_true] at hmid
        exact hmid.1
      -- the waiting call would be this one
      obtain ⟨j, b, hj, hb⟩ := h.waiting (h.inCommand hin)
      have hji := h.inTurn.unique hi (by rw [hpc]; exact Bool.false_ne_true) hj
        (by rw [hb]; exact Bool.false_ne_true)
      subst hji
      rw [hi] at hj
      cases hj
      rw [hpc] at hb
      cases hb
  rw [atStart_call hg.2.2.1 hi hpc, hmid]
  rfl

theorem cmdSettled_init (t : UInt64) (seg : Segment) : CmdSettled (.initial t seg) where
  toCmdInv := cmdInv_init t seg
  waiting := by
    intro h
    have hzero : RegMap.zero.started = true := h
    exact absurd hzero (by decide)

/-- A call that leaves START set with its step waits for it, or found it set and
does not wait. -/
theorem cmdExec_waits {hw : HwModel} {drv drv' : Driver} {c c' : CmdCall} {seg' : Segment}
    (hok : CmdOk hw drv c) (hs : c.exec hw drv = some (c', seg', drv'))
    (h : seg'.reg.started = true) :
    c'.pc = .take ∨ (hw.seg.reg.started = true ∧ c.pc ≠ .take) := by
  rcases (cmdExec_start hs).2 with ⟨_, htake, _⟩ | ⟨_, _, hst, hsem⟩
  · exact .inl htake
  · refine .inr ⟨hst.symm.trans h, ?_⟩
    -- a give that is taken comes from a served command, so START is clear
    intro hp
    unfold CmdOk at hok
    simp only [hp] at hok
    rcases hok.2 with ⟨_, hnot, _⟩ | ⟨hd, _⟩
    · rw [hsem hp] at hnot
      cases hnot
    · rw [hst, hd.served.started] at h
      cases h

theorem cmdSettled_step {mode : AckMode} {cfg : HwModelConfig} {s s' : ZephyrState}
    {a : ZephyrAct} (h : CmdSettled s) (hg : PromptClean s a)
    (hs : s.step mode cfg a = some s') : CmdSettled s' where
  toCmdInv := cmdInv_step h.toCmdInv (h.cleanStart hg) hs
  waiting := by
    intro hst
    rcases ZephyrState.step_cases hs with ⟨opcode, arg0, arg1, _, rfl⟩ |
        ⟨i, c, c', seg', drv', _, hi, hexec, rfl⟩ | ⟨i, c, rfl, _⟩ |
        ⟨drv', seg', _, hthread, rfl⟩ | ⟨hw', _, hdev, rfl⟩ | ⟨_, rfl⟩
    · obtain ⟨j, b, hj, hb⟩ := h.waiting hst
      refine ⟨j, b, ?_, hb⟩
      rw [List.getElem?_append_left (List.getElem?_eq_some_iff.mp hj).1]
      exact hj
    · rcases cmdExec_waits (h.calls i c hi) hexec hst with hpc | ⟨hst, hpc⟩
      · exact ⟨i, c', getElem?_set_self_of hi, hpc⟩
      · obtain ⟨j, b, hj, hb⟩ := h.waiting hst
        refine ⟨j, b, getElem?_set_of_ne ?_ hj, hb⟩
        rintro rfl
        rw [hi] at hj
        cases hj
        exact hpc hb
    · cases hg.2.1
    · obtain ⟨irq, rfl⟩ := pollThread_irqStatus hthread
      exact h.waiting hst
    · exact h.waiting (started_step hdev hst)
    · exact h.waiting hst

theorem reach_promptClean {mode : AckMode} {cfg : HwModelConfig} {s : ZephyrState}
    (h : Reach (zephyrSystem mode cfg) PromptClean s) :
    Reach (zephyrSystem mode cfg) CleanStart s := by
  refine h.strengthen (P := CmdSettled) ?_ ?_ ?_
  · rintro _ ⟨t, seg, rfl⟩
    exact cmdSettled_init t seg
  · intro s a s' hinv hg hs
    exact cmdSettled_step hinv hg hs
  · intro s a hinv hg
    exact hinv.cleanStart hg

/-- On plain memory, in every run of calls in turn without timeouts: as long as a
call sets START only when no give is pending or on its way, and the poll thread
does not see `IRQ_DONE` while a call waits with START still set, every call that
returns 0 has the words of its own command. -/
theorem submitCmd_own_result {cfg : HwModelConfig} {s : ZephyrState}
    (h : Reach (zephyrSystem .plain cfg) PromptClean s) {i : Nat} {c : CmdCall}
    {status data0 data1 : UInt32} (hi : s.calls[i]? = some c)
    (hpc : c.pc = .returned status data0 data1) : OwnResult s c status data0 data1 :=
  (reach_cmdInv (reach_promptClean h)).ownResult hi hpc

/-- The calls and the handler invocations of a state. -/
def ZephyrState.view (s : ZephyrState) :
    List CmdCall × List (UInt32 × UInt32 × UInt32 × Reply) :=
  (s.calls, s.hw.log.map Invocation.view)

/-- No invocation that `view` lists for this command had this reply. -/
theorem not_reply_of_view {s : ZephyrState} {cmd : Cmd} {reply : Reply}
    (h : s.view.2.all (fun v => v.1 != cmd.opcode || v.2.1 != cmd.arg0 || v.2.2.1 != cmd.arg1 ||
      v.2.2.2 != reply) = true) {inv : Invocation} (hinv : inv ∈ s.hw.log) (hfor : inv.For cmd) :
    inv.reply ≠ reply :=
  bne_iff_ne.mp (reply_of_views (p := fun r => r != reply) h hinv hfor)

/-- An ECHO that is served, latched and returned. -/
def servedCall (i : Nat) (arg0 arg1 : UInt32) : List ZephyrAct :=
  schedule [(1, .submitCmd 1 arg0 arg1), (5, .call i), (16, .device), (6, .pollThread), (4, .call i)]

/-- Two calls, the second before the poll thread has run again. -/
theorem submitCmd_own_result_two :
    ∃ (s : ZephyrState) (c : CmdCall), s.calls[1]? = some c ∧ (c.arg0, c.arg1) = (3, 4) ∧
      OwnResult s c 0 3 4 := by
  obtain ⟨s, hrun, hcalls⟩ := Option.map_eq_some_iff.mp (show
    (replay (zephyrSystem .plain {}) (fun s a => callsInTurn s a && noTimeout s a &&
      atStart ZephyrState.noGive s a && freshIrq s a) (.initial 0 .zero)
      (servedCall 0 1 2 ++ servedCall 1 3 4)).map (fun s => s.calls) = some
        [⟨1, 1, 2, .returned 0 1 2, 0⟩, ⟨1, 3, 4, .returned 0 3 4, 1⟩] by decide)
  have hguard : ∀ s a, (callsInTurn s a && noTimeout s a && atStart ZephyrState.noGive s a &&
      freshIrq s a) = true → PromptClean s a := by
    intro s a hg
    simp only [Bool.and_eq_true] at hg
    exact ⟨hg.1.1.1, hg.1.1.2, hg.1.2, hg.2⟩
  have hinit : Reach (zephyrSystem .plain {}) PromptClean (.initial 0 .zero) := .init ⟨0, .zero, rfl⟩
  have hreach := replay_reach hguard hinit hrun
  have hi : s.calls[1]? = some ⟨1, 3, 4, .returned 0 3 4, 1⟩ := by rw [hcalls]; rfl
  exact ⟨s, _, hi, rfl, submitCmd_own_result hreach hi rfl⟩

/-- The poll thread runs once more between the calls: it finds `IRQ_DONE` as its own
store has left it, and gives the semaphore to a call that has not been made yet. -/
theorem submitCmd_stale_irq :
    ∃ (s : ZephyrState) (c : CmdCall) (status data0 data1 : UInt32),
      Reach (zephyrSystem .plain {})
        (fun s a => callsInTurn s a = true ∧ noTimeout s a = true) s ∧
      s.calls[1]? = some c ∧ c.pc = .returned status data0 data1 ∧
      ∀ inv ∈ s.hw.log, inv.For c.cmd → inv.reply ≠ ⟨status, data0, data1⟩ := by
  obtain ⟨s, hrun, hview⟩ := Option.map_eq_some_iff.mp (show
    (replay (zephyrSystem .plain {}) (fun s a => callsInTurn s a && noTimeout s a)
      (.initial 0 .zero) (servedCall 0 1 2 ++
        schedule [(6, .pollThread), (1, .submitCmd 1 3 4), (9, .call 1)])).map ZephyrState.view = some
      ([⟨1, 1, 2, .returned 0 1 2, 0⟩, ⟨1, 3, 4, .returned 0 1 2, 1⟩],
        [(1, 1, 2, ⟨0, 1, 2⟩)]) by decide)
  have hinit : Reach (zephyrSystem .plain {})
      (fun s a => callsInTurn s a = true ∧ noTimeout s a = true) (.initial 0 .zero) :=
    .init ⟨0, .zero, rfl⟩
  have hreach := replay_reach (fun _ _ h => Bool.and_eq_true_iff.mp h) hinit hrun
  have hi : s.calls[1]? = some ⟨1, 3, 4, .returned 0 1 2, 1⟩ := by
    rw [show s.calls = _ from congrArg Prod.fst hview]
    rfl
  refine ⟨s, _, 0, 1, 2, hreach, hi, rfl, ?_⟩
  intro inv hinv hfor
  refine not_reply_of_view ?_ hinv hfor
  rw [hview]
  decide

/-! ## 2. Write-1-to-clear, with timeouts -/

/-- Runs of calls in turn, in which nothing is left of an earlier command when a
call sets START. -/
def QuietStart (s : ZephyrState) (a : ZephyrAct) : Prop :=
  callsInTurn s a = true ∧ atStart (fun s => s.noGive && s.quiet) s a = true

/-- While a call waits with START set, no interrupt is pending or about to be
raised. -/
def IrqOk (s : ZephyrState) : Prop :=
  ∀ (i : Nat) (c : CmdCall), s.calls[i]? = some c → c.pc = .take →
    s.hw.seg.reg.started = true → s.hw.seg.reg.irqPending = false ∧ s.hw.pc.inTail = false

theorem irqPending_ack (r : RegMap) (irq : UInt32) :
    { r with irqStatus := AckMode.w1c.store irq irqDone }.irqPending = false := by
  simp only [RegMap.irqPending, AckMode.store, and_not_mask]
  decide

/-- On its way through a command the loop raises no interrupt, and it enters its
tail by clearing START. -/
theorem inTail_step {cfg : HwModelConfig} {hw hw' : HwModel}
    (hs : hw.pollLoopStep cfg = some hw') (hst : hw'.seg.reg.started = true)
    (htail : hw.pc.inTail = false) :
    hw'.seg.reg.irqPending = hw.seg.reg.irqPending ∧ hw'.pc.inTail = false := by
  cases pollLoopStep_cases hs with
  | writeReady hp _ => rw [hp] at htail; cases htail
  | raiseIrq hp => rw [hp] at htail; cases htail
  | clearStart _ => simp [Segment.withReg] at hst
  | _ => exact ⟨rfl, rfl⟩

theorem irqOk_step {cfg : HwModelConfig} {s s' : ZephyrState} {a : ZephyrAct} (h : IrqOk s)
    (hg : QuietStart s a) (hs : s.step .w1c cfg a = some s') : IrqOk s' := by
  intro j b hb hpc hst
  rcases ZephyrState.step_cases hs with ⟨opcode, arg0, arg1, _, rfl⟩ |
      ⟨i, c, c', seg', drv', rfl, hi, hexec, rfl⟩ | ⟨i, c, _, hi, _, _, rfl⟩ |
      ⟨drv', seg', _, hthread, rfl⟩ | ⟨hw', _, hdev, rfl⟩ | ⟨_, rfl⟩
  · rcases getElem?_concat_cases hb with hb | ⟨_, rfl⟩
    · exact h j b hb hpc hst
    · cases hpc
  · obtain ⟨hirq, ⟨hstart, _, _⟩ | ⟨_, hnot, hst', _⟩⟩ := cmdExec_start hexec
    · -- START: the guard says what is left of earlier commands
      have hquiet := atStart_call hg.2 hi hstart
      simp only [ZephyrState.quiet, Bool.and_eq_true, Bool.not_eq_eq_eq_not,
        Bool.not_true] at hquiet
      exact ⟨hirq.trans hquiet.2.1.1, hquiet.2.2⟩
    · rcases getElem?_set_cases hi hb with ⟨rfl, rfl⟩ | ⟨_, hb⟩
      · exact absurd hpc hnot
      · obtain ⟨hclear, htail⟩ := h j b hb hpc (hst'.symm.trans hst)
        exact ⟨hirq.trans hclear, htail⟩
  · rcases getElem?_set_cases hi hb with ⟨rfl, rfl⟩ | ⟨_, hb⟩
    · cases hpc
    · exact h j b hb hpc hst
  · -- the poll thread clears the interrupt, and cannot raise it
    have hstep := hthread
    obtain ⟨irq, rfl⟩ := pollThread_irqStatus hthread
    obtain ⟨hclear, htail⟩ := h j b hb hpc hst
    refine ⟨?_, htail⟩
    unfold Driver.pollThreadStep at hstep
    cases hp : s.drv.thread with
    | ack =>
      simp only [hp, Prod.mk.injEq] at hstep
      rw [← hstep.2]
      exact irqPending_ack ..
    | _ =>
      simp only [hp, Prod.mk.injEq] at hstep
      rw [← hstep.2]
      exact hclear
  · obtain ⟨hclear, htail⟩ := h j b hb hpc (started_step hdev hst)
    obtain ⟨hirq, htail'⟩ := inTail_step hdev hst htail
    exact ⟨hirq.trans hclear, htail'⟩
  · exact h j b hb hpc hst

/-- Then the poll thread sees no interrupt before its time. -/
theorem IrqOk.cleanStart {s : ZephyrState} (h : IrqOk s) {a : ZephyrAct} (hg : QuietStart s a) :
    CleanStart s a := by
  refine ⟨hg.1, atStart_intro ?_, ?_⟩
  · rintro i c rfl hi hpc
    have hquiet := atStart_call hg.2 hi hpc
    simp only [ZephyrState.quiet, Bool.and_eq_true] at hquiet
    exact Bool.and_eq_true_iff.mpr ⟨hquiet.1, hquiet.2.1.2⟩
  · cases a with
    | pollThread =>
      cases hany : s.calls.any (fun c => c.pc == .take) with
      | false => simp only [freshIrq, hany, Bool.and_false, Bool.not_false]
      | true =>
        obtain ⟨c, hc, hpc⟩ := List.any_eq_true.mp hany
        obtain ⟨i, hi⟩ := List.mem_iff_getElem?.mp hc
        cases hst : s.hw.seg.reg.started with
        | false => simp only [freshIrq, hst, Bool.and_false, Bool.false_and, Bool.not_false]
        | true =>
          have hclear := (h i c hi (beq_iff_eq.mp hpc) hst).1
          simp only [freshIrq, hclear, Bool.and_false, Bool.false_and, Bool.not_false]
    | _ => rfl

theorem reach_quietStart {cfg : HwModelConfig} {s : ZephyrState}
    (h : Reach (zephyrSystem .w1c cfg) QuietStart s) :
    Reach (zephyrSystem .w1c cfg) CleanStart s := by
  refine h.strengthen (P := IrqOk) ?_ ?_ ?_
  · rintro _ ⟨t, seg, rfl⟩ i c hc
    cases hc
  · intro s a s' hinv hg hs
    exact irqOk_step hinv hg hs
  · intro s a hinv hg
    exact hinv.cleanStart hg

/-- With a write-1-to-clear register, in every run of calls in turn, timeouts
included: as long as a call sets START only when no give is pending or on its way,
no interrupt is pending, and the hw-model is neither in the middle of an abandoned
command nor about to raise its interrupt, every call that returns 0 has the words
of its own command. -/
theorem submitCmd_own_result_w1c {cfg : HwModelConfig} {s : ZephyrState}
    (h : Reach (zephyrSystem .w1c cfg) QuietStart s) {i : Nat} {c : CmdCall}
    {status data0 data1 : UInt32} (hi : s.calls[i]? = some c)
    (hpc : c.pc = .returned status data0 data1) : OwnResult s c status data0 data1 :=
  (reach_cmdInv (reach_quietStart h)).ownResult hi hpc

/-- A call times out before the hw-model has looked at its command; the next one
overwrites the command. -/
theorem submitCmd_own_result_w1c_overwritten :
    ∃ (s : ZephyrState) (c : CmdCall), s.calls[1]? = some c ∧ (c.arg0, c.arg1) = (3, 4) ∧
      OwnResult s c 0 3 4 := by
  obtain ⟨s, hrun, hcalls⟩ := Option.map_eq_some_iff.mp (show
    (replay (zephyrSystem .w1c {}) (fun s a => callsInTurn s a &&
      atStart (fun s => s.noGive && s.quiet) s a) (.initial 0 .zero)
      (schedule [(1, .submitCmd 1 1 2), (5, .call 0), (1, .timeout 0)] ++
        servedCall 1 3 4)).map (fun s => s.calls) = some
        [⟨1, 1, 2, .timedOut, 0⟩, ⟨1, 3, 4, .returned 0 3 4, 0⟩] by decide)
  have hinit : Reach (zephyrSystem .w1c {}) QuietStart (.initial 0 .zero) := .init ⟨0, .zero, rfl⟩
  have hreach := replay_reach (fun _ _ h => Bool.and_eq_true_iff.mp h) hinit hrun
  have hi : s.calls[1]? = some ⟨1, 3, 4, .returned 0 3 4, 0⟩ := by rw [hcalls]; rfl
  exact ⟨s, _, hi, rfl, submitCmd_own_result_w1c hreach hi rfl⟩

/-- A call times out and its command is completed afterwards: the give stays in the
semaphore, and the next call takes it for its own. -/
theorem submitCmd_stale_give :
    ∃ (s : ZephyrState) (c : CmdCall) (status data0 data1 : UInt32),
      Reach (zephyrSystem .w1c {}) (fun s a => callsInTurn s a = true) s ∧
      s.calls[1]? = some c ∧ c.pc = .returned status data0 data1 ∧
      ∀ inv ∈ s.hw.log, inv.For c.cmd → inv.reply ≠ ⟨status, data0, data1⟩ := by
  obtain ⟨s, hrun, hview⟩ := Option.map_eq_some_iff.mp (show
    (replay (zephyrSystem .w1c {}) callsInTurn (.initial 0 .zero)
      (schedule [(1, .submitCmd 1 1 2), (5, .call 0), (1, .timeout 0), (16, .device),
        (6, .pollThread), (1, .submitCmd 1 3 4), (9, .call 1)])).map ZephyrState.view = some
      ([⟨1, 1, 2, .timedOut, 0⟩, ⟨1, 3, 4, .returned 0 1 2, 1⟩],
        [(1, 1, 2, ⟨0, 1, 2⟩)]) by decide)
  have hinit : Reach (zephyrSystem .w1c {}) (fun s a => callsInTurn s a = true)
      (.initial 0 .zero) := .init ⟨0, .zero, rfl⟩
  have hreach := replay_reach (fun _ _ h => h) hinit hrun
  have hi : s.calls[1]? = some ⟨1, 3, 4, .returned 0 1 2, 1⟩ := by
    rw [show s.calls = _ from congrArg Prod.fst hview]
    rfl
  refine ⟨s, _, 0, 1, 2, hreach, hi, rfl, ?_⟩
  intro inv hinv hfor
  refine not_reply_of_view ?_ hinv hfor
  rw [hview]
  decide

end Deepspan
