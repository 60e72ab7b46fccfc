import Deepspan.Submit.Invariant

/-!
# A submit can always finish

As long as the hw-model runs and its handler answers, a call that has not used up its polls
can be brought to its end: its own steps take it to the poll, the loop's steps to the end
of the command (`PollPc.toClear`), and its own steps to the result. Together they lower
`SubmitState.toGo`, so that `submit_returns` follows by `Reach.progress`.
-/

namespace Deepspan

open Transition

/-- The handler answers every command. -/
def HwModelConfig.Answers (cfg : HwModelConfig) : Prop :=
  ∀ log opcode arg0 arg1 seg, ∃ reply, cfg.cmdHandler log opcode arg0 arg1 seg = some reply

/-- How many steps the loop is away from clearing START, if it is set. -/
def PollPc.toClear : PollPc → Nat
  | .writeReady => 16
  | .raiseIrq => 15
  | .loop => 14
  | .loadCtrl => 13
  | .readOpcode => 12
  | .readArg0 _ => 11
  | .readArg1 _ _ => 10
  | .callHandler _ _ _ => 9
  | .writeData0 _ _ => 8
  | .writeData1 _ _ => 7
  | .writeStatus _ _ => 6
  | .fetchAdd _ _ => 5
  | .storeCount _ _ _ => 4
  | .storeLastOpcode _ _ => 3
  | .storeLastStatus _ => 2
  | .clearStart => 1
  | .exited => 0

/-- How many steps, polls that find START set apart, a call is away from its end. -/
def SubmitPc.toGo : SubmitPc → Nat
  | .lock => 9
  | .copyDma => 8
  | .storeOpcode => 7
  | .storeArg0 => 6
  | .storeArg1 => 5
  | .orStart => 4
  | .poll _ => 3
  | .loadResult0 => 2
  | .loadResult1 _ => 1
  | .returned _ _ | .threw => 0

/-- The steps of the loop that a call may have to wait for. -/
def HwModel.toGo (hw : HwModel) : Nat := if hw.seg.reg.started then hw.pc.toClear else 0

theorem HwModel.toGo_le (hw : HwModel) : hw.toGo ≤ 16 := by
  unfold HwModel.toGo
  split
  · cases hw.pc <;> exact Nat.le_of_ble_eq_true rfl
  · exact Nat.zero_le _

/-- The hw-model runs: `stop` has not been called, and so the loop has not ended. -/
def HwModel.Alive (hw : HwModel) : Prop := hw.running = true ∧ hw.pc ≠ .exited

/-- While START is set, a step of the loop brings its clearing closer. -/
theorem device_progress {cfg : HwModelConfig} (hans : cfg.Answers) {hw : HwModel}
    (halive : hw.Alive) (hst : hw.seg.reg.started = true) :
    ∃ hw', hw.pollLoopStep cfg = some hw' ∧ hw'.Alive ∧ hw'.toGo < hw.toGo := by
  obtain ⟨hrun, hne⟩ := halive
  have hrank : hw.toGo = hw.pc.toClear := by
    rw [HwModel.toGo, if_pos hst]
  -- a step that leaves CTRL alone
  have hkept : ∀ hw' : HwModel, hw'.running = true → hw'.pc ≠ .exited →
      hw'.seg.reg.started = true → hw'.pc.toClear < hw.pc.toClear →
      hw'.Alive ∧ hw'.toGo < hw.toGo := by
    intro hw' hrun' hne' hst' hlt
    refine ⟨⟨hrun', hne'⟩, ?_⟩
    rw [hrank, HwModel.toGo, if_pos hst']
    exact hlt
  unfold HwModel.pollLoopStep
  cases hp : hw.pc with
  | exited => exact absurd hp hne
  | loop =>
    refine ⟨_, rfl, hkept _ hrun ?_ hst ?_⟩ <;> simp [hrun, hp, PollPc.toClear]
  | loadCtrl =>
    refine ⟨_, rfl, hkept _ hrun ?_ hst ?_⟩ <;> simp [hst, hp, PollPc.toClear]
  | callHandler opcode arg0 arg1 =>
    obtain ⟨reply, hreply⟩ := hans hw.log opcode arg0 arg1 hw.seg
    simp only [hreply, Option.map_some]
    refine ⟨_, rfl, hkept _ hrun (by simp) hst ?_⟩
    rw [hp]
    exact Nat.lt_succ_self _
  | clearStart =>
    refine ⟨_, rfl, ⟨hrun, by simp⟩, ?_⟩
    have hclear : (hw.seg.withReg fun r => { r with ctrl := r.ctrl &&& ~~~CtrlBits.start }).reg.started
        = false := started_and_not_start ..
    rw [hrank, hp, HwModel.toGo, hclear]
    exact Nat.zero_lt_one
  | writeReady =>
    refine ⟨_, rfl, hkept _ hrun ?_ hst ?_⟩ <;> cases cfg.autoIrq <;> simp [hp, PollPc.toClear]
  | _ =>
    refine ⟨_, rfl, hkept _ hrun (by simp) hst ?_⟩
    rw [hp]
    exact Nat.lt_succ_self _

/-! ## The call -/

theorem SubmitState.mutexFree_of_ordered {s : SubmitState} (h : Ordered s) {i : Nat} {sub : Sub}
    (hi : s.subs[i]? = some sub) (hpc : sub.pc = .lock) (inst : Nat) : s.mutexFree inst = true := by
  have hnot : sub.pc.ended = false := by
    rw [hpc]
    rfl
  apply List.all_eq_true.mpr
  intro other hother
  obtain ⟨j, hj⟩ := List.mem_iff_getElem?.mp hother
  have hfree : other.pc.locked = false := by
    by_cases hji : j = i
    · subst hji
      cases hi.symm.trans hj
      rw [hpc]
      rfl
    · exact SubmitPc.not_locked_of_ended (h.others hi hnot hj hji)
  rw [hfree, Bool.and_false, Bool.not_false]

/-- A call that is not waiting for START gets closer to its end by a step of its own. -/
theorem exec_progress (kind : PluginKind) {hw : HwModel} {sub : Sub} (hended : sub.pc.ended = false)
    (hlimit : sub.pc.belowLimit = true)
    (hst : (∃ n, sub.pc = .poll n) → hw.seg.reg.started = false) :
    ∃ sub' seg', sub.exec kind hw = some (sub', seg') ∧ sub'.call = sub.call ∧
      sub'.pc.belowLimit = true ∧ sub'.pc ≠ .threw ∧ sub'.pc.toGo + 1 = sub.pc.toGo := by
  unfold Sub.exec
  cases hp : sub.pc with
  | poll n =>
    have hlt : n < kMaxPolls := by simpa [hp, SubmitPc.belowLimit] using hlimit
    simp only [if_pos hlt, hst ⟨n, hp⟩]
    exact ⟨_, _, rfl, rfl, rfl, by simp, rfl⟩
  | orStart => exact ⟨_, _, rfl, rfl, by simp [SubmitPc.belowLimit, kMaxPolls], by simp, rfl⟩
  | returned r0 r1 => rw [hp] at hended; cases hended
  | threw => rw [hp] at hended; cases hended
  | _ => exact ⟨_, _, rfl, rfl, rfl, by simp, rfl⟩

/-- Call `i`, with this request, is under way or has returned. -/
structure OnItsWay (s : SubmitState) (i : Nat) (call : Call) : Prop where
  ordered : Ordered s
  alive : s.hw.Alive
  sub : ∃ sub, s.subs[i]? = some sub ∧ sub.call = call ∧ sub.pc.belowLimit = true ∧
    sub.pc ≠ .threw

/-- The program point of call `i`, and the steps that it and the loop have to go. -/
def SubmitState.toGo (s : SubmitState) (i : Nat) : Nat :=
  17 * ((s.subs[i]?).map fun sub => sub.pc.toGo).getD 0 + s.hw.toGo

theorem OnItsWay.next {kind : PluginKind} {cfg : HwModelConfig} (hans : cfg.Answers)
    {s : SubmitState} {i : Nat} {call : Call} (h : OnItsWay s i call)
    (hnot : ¬∃ sub, s.subs[i]? = some sub ∧ sub.pc.ended = true) :
    ∃ s', Reach ((submitSystem kind cfg).startedAt s) (Sequential noPollLimit) s' ∧
      OnItsWay s' i call ∧ s'.toGo i < s.toGo i := by
  obtain ⟨hord, halive, sub, hi, hcall, hlimit, hthrew⟩ := h
  have hended : sub.pc.ended = false := by
    cases hend : sub.pc.ended with
    | false => rfl
    | true => exact absurd ⟨sub, hi, hend⟩ hnot
  by_cases hwait : (∃ n, sub.pc = .poll n) ∧ s.hw.seg.reg.started = true
  · -- the loop's turn
    obtain ⟨hw', hdev, halive', hlt⟩ := device_progress hans halive hwait.2
    have hstep : s.step kind cfg .device = some { s with hw := hw' } := by
      simp only [SubmitState.step, hdev, Option.map_some]
    refine ⟨_, .step (a := .device) (.init rfl) ⟨rfl, rfl⟩ hstep,
      ⟨hord, halive', sub, hi, hcall, hlimit, hthrew⟩, ?_⟩
    unfold SubmitState.toGo
    exact Nat.add_lt_add_left hlt _
  · -- the call's turn
    have hst : (∃ n, sub.pc = .poll n) → s.hw.seg.reg.started = false := by
      intro hpoll
      cases hst : s.hw.seg.reg.started with
      | false => rfl
      | true => exact absurd ⟨hpoll, hst⟩ hwait
    obtain ⟨sub', seg', hexec, hcall', hlimit', hthrew', hlt⟩ := exec_progress kind hended hlimit hst
    have hfree : (sub.pc == .lock && !s.mutexFree sub.inst) = false := by
      cases hlock : sub.pc == .lock with
      | false => rfl
      | true => rw [SubmitState.mutexFree_of_ordered hord hi (beq_iff_eq.mp hlock)]; rfl
    have hstep : s.step kind cfg (.sub i) =
        some { s with hw := { s.hw with seg := seg' }, subs := s.subs.set i sub' } := by
      simp only [SubmitState.step, SubmitState.subStep, hi, hfree, Bool.false_eq_true, if_false,
        hexec, Option.map_some]
    have hguard : Sequential noPollLimit s (.sub i) := by
      refine ⟨rfl, ?_⟩
      simp only [noPollLimit, hi, Option.all_some, hlimit]
    refine ⟨_, .step (a := .sub i) (.init rfl) hguard hstep, ⟨ordered_step hord rfl hstep, halive, sub',
      getElem?_set_self_of hi, hcall'.trans hcall, hlimit', hthrew'⟩, ?_⟩
    have hle : HwModel.toGo ⟨seg', s.hw.pc, s.hw.running, s.hw.cmdCount, s.hw.log⟩ ≤ 16 :=
      HwModel.toGo_le _
    simp only [SubmitState.toGo, getElem?_set_self_of hi, hi, Option.map_some, Option.getD_some]
    omega

/-- Every call that has not used up its polls can be brought to its end. -/
theorem submit_returns {kind : PluginKind} {cfg : HwModelConfig} (hans : cfg.Answers)
    {s : SubmitState} (hord : Ordered s) (halive : s.hw.Alive) {i : Nat} {sub : Sub}
    (hi : s.subs[i]? = some sub) (hlimit : sub.pc.belowLimit = true) (hthrew : sub.pc ≠ .threw) :
    ∃ s' sub' r0 r1, Reach ((submitSystem kind cfg).startedAt s) (Sequential noPollLimit) s' ∧
      s'.subs[i]? = some sub' ∧ sub'.call = sub.call ∧ sub'.pc = .returned r0 r1 := by
  have hstart : OnItsWay s i sub.call := ⟨hord, halive, sub, hi, rfl, hlimit, hthrew⟩
  have hfinish : ∃ s', Reach ((submitSystem kind cfg).startedAt s) (Sequential noPollLimit) s' ∧
      OnItsWay s' i sub.call ∧ ∃ sub', s'.subs[i]? = some sub' ∧ sub'.pc.ended = true :=
    Reach.progress (fun s => s.toGo i) (fun _ h hnot => OnItsWay.next hans h hnot) hstart
  obtain ⟨s', hreach, ⟨_, _, other, hother, hcall, _, hthrew'⟩, sub', hi', hend⟩ := hfinish
  obtain rfl : sub' = other := Option.some.inj (hi'.symm.trans hother)
  cases hp : sub'.pc with
  | returned r0 r1 => exact ⟨s', sub', r0, r1, hreach, hi', hcall, hp⟩
  | threw => exact absurd hp hthrew'
  | _ => rw [hp] at hend; cases hend

end Deepspan
