import Deepspan.Submit.System

/-!
# `ResetDevice`

`MgmtServiceImpl::ResetDevice` sets the RESET bit of CTRL and answers `success`; the
comment beside it says that the hw-model will acknowledge the bit and clear it.
Nobody looks at the bit. `reset_has_no_effect` says what follows over whole runs, for a
command handler that does not look at it either:

* with the RESET bit taken out of every state, what the server, its plugins and the
  hw-model reach with resets is what they reach without;
* a RESET bit that has been set is set for ever.

The three handlers of the repository are such handlers (`defaultHandler_blind`,
`accelHandler_blind`, `crc32Handler_blind`).
-/

namespace Deepspan

open Transition

/-! ## A segment without the RESET bit -/

def RegMap.eraseReset (r : RegMap) : RegMap := { r with ctrl := r.ctrl &&& ~~~CtrlBits.reset }

def Segment.eraseReset (seg : Segment) : Segment := seg.withReg RegMap.eraseReset

def Invocation.eraseReset (inv : Invocation) : Invocation := { inv with seg := inv.seg.eraseReset }

def HwModel.eraseReset (hw : HwModel) : HwModel :=
  { hw with seg := hw.seg.eraseReset, log := hw.log.map Invocation.eraseReset }

def SubmitState.eraseReset (s : SubmitState) : SubmitState := { s with hw := s.hw.eraseReset }

/-- The handler answers without the RESET bit as it does with it. -/
def CmdHandler.BlindToReset (handler : CmdHandler) : Prop :=
  ∀ log opcode arg0 arg1 seg,
    handler (log.map Invocation.eraseReset) opcode arg0 arg1 seg.eraseReset =
      handler log opcode arg0 arg1 seg

theorem defaultHandler_blind : CmdHandler.BlindToReset defaultHandler :=
  fun _ _ _ _ _ => rfl

theorem accelHandler_blind : CmdHandler.BlindToReset accelHandler :=
  fun _ _ _ _ _ => rfl

/-- COMPUTE reads the DMA window, and nothing else of the segment. -/
theorem crc32Handler_blind (baseSet : Bool) : (crc32Handler baseSet).BlindToReset := by
  intro log opcode arg0 arg1 seg
  cases baseSet <;> rfl

/-! ### The bits of CTRL -/

theorem eraseReset_started (r : RegMap) : r.eraseReset.started = r.started := by
  simp only [RegMap.started, RegMap.eraseReset, UInt32.and_assoc,
    show ~~~CtrlBits.reset &&& CtrlBits.start = CtrlBits.start from rfl]

theorem eraseReset_or_start (c : UInt32) :
    (c &&& ~~~CtrlBits.reset) ||| CtrlBits.start = (c ||| CtrlBits.start) &&& ~~~CtrlBits.reset := by
  rw [or_and_distrib, show CtrlBits.start &&& ~~~CtrlBits.reset = CtrlBits.start from rfl]

theorem eraseReset_and_not_start (c : UInt32) :
    (c &&& ~~~CtrlBits.reset) &&& ~~~CtrlBits.start =
      (c &&& ~~~CtrlBits.start) &&& ~~~CtrlBits.reset := by
  rw [UInt32.and_assoc, UInt32.and_comm (~~~CtrlBits.reset), ← UInt32.and_assoc]

theorem eraseReset_or_reset (c : UInt32) :
    (c ||| CtrlBits.reset) &&& ~~~CtrlBits.reset = c &&& ~~~CtrlBits.reset := by
  rw [or_and_distrib, show CtrlBits.reset &&& ~~~CtrlBits.reset = 0 from rfl, UInt32.or_zero]

/-! ## Nobody looks at the bit -/

variable {kind : PluginKind} {cfg : HwModelConfig} {s s' : SubmitState} {a : SubmitAct}

theorem pollLoopStep_eraseReset (hblind : cfg.cmdHandler.BlindToReset) (hw : HwModel) :
    hw.eraseReset.pollLoopStep cfg = (hw.pollLoopStep cfg).map HwModel.eraseReset := by
  obtain ⟨seg, pc, running, cmdCount, log⟩ := hw
  cases pc with
  | loadCtrl =>
    simp only [HwModel.pollLoopStep, HwModel.eraseReset, Segment.eraseReset, Segment.withReg,
      eraseReset_started, Option.map_some]
  | callHandler opcode arg0 arg1 =>
    simp only [HwModel.pollLoopStep, HwModel.eraseReset, hblind log opcode arg0 arg1 seg,
      Option.map_map]
    congr 1
    funext reply
    simp only [Function.comp, HwModel.eraseReset, List.map_append]
    rfl
  | clearStart =>
    simp only [HwModel.pollLoopStep, HwModel.eraseReset, Segment.eraseReset, Segment.withReg,
      RegMap.eraseReset, eraseReset_and_not_start, Option.map_some]
  | _ => rfl

theorem exec_eraseReset (sub : Sub) (hw : HwModel) :
    sub.exec kind hw.eraseReset =
      (sub.exec kind hw).map fun p => (p.1, p.2.eraseReset) := by
  obtain ⟨inst, call, pc, mark⟩ := sub
  cases pc with
  | orStart =>
    simp only [Sub.exec, HwModel.eraseReset, Segment.eraseReset, Segment.withReg,
      RegMap.eraseReset, eraseReset_or_start, List.length_map, Option.map_some]
  | poll i =>
    simp only [Sub.exec, HwModel.eraseReset, Segment.eraseReset, Segment.withReg,
      eraseReset_started]
    split <;> rfl
  | _ => rfl

/-- A step that is not a reset does the same without the bit. -/
theorem step_eraseReset (hblind : cfg.cmdHandler.BlindToReset) (ha : a ≠ .resetDevice) :
    s.eraseReset.step kind cfg a = (s.step kind cfg a).map SubmitState.eraseReset := by
  cases a with
  | sub i =>
    simp only [SubmitState.step, SubmitState.subStep, SubmitState.eraseReset]
    cases hi : s.subs[i]? with
    | none => rfl
    | some sub =>
      have hfree : SubmitState.mutexFree { s with hw := s.hw.eraseReset } sub.inst =
          s.mutexFree sub.inst := rfl
      simp only [exec_eraseReset, Option.map_map, hfree]
      split
      · rfl
      · rw [Option.map_map]
        rfl
  | device =>
    simp only [SubmitState.step, SubmitState.eraseReset, pollLoopStep_eraseReset hblind,
      Option.map_map]
    rfl
  | resetDevice => exact absurd rfl ha
  | submitRequest _ | pluginSubmit _ | stop | getFirmwareInfo | getTelemetry => rfl

/-- A reset sets the bit and does nothing else. -/
theorem reset_eraseReset (h : s.step kind cfg .resetDevice = some s') :
    s'.eraseReset = s.eraseReset := by
  cases h
  simp only [SubmitState.eraseReset, HwModel.eraseReset, Segment.eraseReset, Segment.withReg,
    RegMap.eraseReset, eraseReset_or_reset]

theorem initial_eraseReset (t : UInt64) :
    (SubmitState.initial t).eraseReset = SubmitState.initial t := by
  have hctrl : (0 : UInt32) &&& ~~~CtrlBits.reset = 0 := UInt32.zero_and
  simp only [SubmitState.initial, SubmitState.eraseReset, HwModel.eraseReset, hwModelInit,
    simTransportInit, Segment.eraseReset, Segment.withReg, Segment.withStats, RegMap.eraseReset,
    RegMap.zero, hctrl, List.map_nil]

/-- The RESET bit is set. -/
def SubmitState.resetSet (s : SubmitState) : Bool := s.hw.seg.reg.ctrl &&& CtrlBits.reset != 0

theorem and_reset_or_start (c : UInt32) :
    (c ||| CtrlBits.start) &&& CtrlBits.reset = c &&& CtrlBits.reset := by
  rw [or_and_distrib, show CtrlBits.start &&& CtrlBits.reset = 0 from rfl, UInt32.or_zero]

theorem and_reset_and_not_start (c : UInt32) :
    (c &&& ~~~CtrlBits.start) &&& CtrlBits.reset = c &&& CtrlBits.reset := by
  rw [UInt32.and_assoc, show ~~~CtrlBits.start &&& CtrlBits.reset = CtrlBits.reset from rfl]

/-- Nobody clears the bit. -/
theorem step_resetSet (h : s.step kind cfg a = some s') (hset : s.resetSet = true) :
    s'.resetSet = true := by
  unfold SubmitState.resetSet at hset ⊢
  cases a with
  | sub i =>
    simp only [SubmitState.step, SubmitState.subStep] at h
    cases hi : s.subs[i]? with
    | none =>
      simp only [hi] at h
      cases h
    | some sub =>
      simp only [hi] at h
      split at h
      · cases h
      · obtain ⟨⟨sub', seg'⟩, hexec, rfl⟩ := Option.map_eq_some_iff.mp h
        cases exec_cases hexec with
        | orStart _ =>
          simp only [Segment.withReg, and_reset_or_start]
          exact hset
        | _ => exact hset
  | device =>
    obtain ⟨hw', hdev, rfl⟩ := Option.map_eq_some_iff.mp h
    cases pollLoopStep_cases hdev with
    | clearStart _ =>
      simp only [Segment.withReg, and_reset_and_not_start]
      exact hset
    | _ => exact hset
  | resetDevice =>
    cases h
    simp only [Segment.withReg, or_and_mask]
    decide
  | submitRequest _ | pluginSubmit _ | stop | getFirmwareInfo | getTelemetry =>
    cases h
    exact hset

/-- Nothing but the bit itself tells of a `ResetDevice`: the runs with resets are, without the bit,
those without, and no run acknowledges a reset by clearing it. -/
theorem reset_has_no_effect (hblind : cfg.cmdHandler.BlindToReset) :
    (∀ s, Reach (submitSystem kind cfg) (fun _ a => a ≠ .resetDevice) s ↔
      ∃ s', s'.eraseReset = s ∧ Reach (submitSystem kind cfg) (fun _ _ => True) s') ∧
    ∀ s0 s, s0.resetSet = true →
      Reach ((submitSystem kind cfg).startedAt s0) (fun _ _ => True) s → s.resetSet = true := by
  refine ⟨fun s => ⟨fun h => ⟨s, ?_, ?_⟩, ?_⟩, fun s0 s hset h => ?_⟩
  · -- without a reset the bit is nowhere
    refine h.invariant (P := fun s => s.eraseReset = s) ?_ ?_
    · rintro _ ⟨t, rfl⟩
      exact initial_eraseReset t
    · intro s a s' hsame ha hs
      have hstep : s.eraseReset.step kind cfg a = (s.step kind cfg a).map SubmitState.eraseReset :=
        step_eraseReset hblind ha
      rw [hsame, show s.step kind cfg a = some s' from hs] at hstep
      exact (Option.some.inj hstep).symm
  · exact h.strengthen (P := fun _ => True) (fun _ _ => trivial) (fun _ _ _ _ _ _ => trivial)
      fun _ _ _ _ => trivial
  · rintro ⟨s', rfl, h⟩
    refine h.erase ?_ ?_
    · rintro _ ⟨t, rfl⟩
      exact ⟨t, initial_eraseReset t⟩
    · intro s a s' _ hs
      by_cases ha : a = .resetDevice
      · subst ha
        exact .inl (reset_eraseReset (show s.step kind cfg .resetDevice = some s' from hs))
      · refine .inr ⟨ha, ?_⟩
        have hstep : s.eraseReset.step kind cfg a =
            (s.step kind cfg a).map SubmitState.eraseReset := step_eraseReset hblind ha
        rw [show s.step kind cfg a = some s' from hs] at hstep
        exact hstep
  · exact h.after (P := fun s => s.resetSet = true) hset fun _ _ _ hset _ hs => step_resetSet hs hset

/-- An echo with two resets, one of them while the hw-model is at work on it. -/
def resetEcho : List SubmitAct :=
  schedule [(1, .pluginSubmit ⟨"accel/0", AccelOp.echo, le32 7⟩), (6, .sub 0), (1, .resetDevice),
    (9, .device), (1, .resetDevice), (7, .device), (3, .sub 0)]

theorem resetEcho_ends :
    (replay (submitSystem .accel { cmdHandler := accelHandler }) (fun _ _ => true) (.initial 0)
      resetEcho).map (fun s => (s.resetSet, s.subs.map fun sub => sub.pc)) =
    some (true, [.returned 7 0]) := by
  decide

/-- The same echo without the resets. -/
theorem reset_has_no_effect_echo : ∃ s : SubmitState, s.resetSet = true ∧
    s.subs.map (fun sub => sub.pc) = [.returned 7 0] ∧
    Reach (submitSystem .accel { cmdHandler := accelHandler }) (fun _ a => a ≠ .resetDevice)
      s.eraseReset := by
  obtain ⟨s, hs, hview⟩ := Option.map_eq_some_iff.mp resetEcho_ends
  obtain ⟨hset, hsubs⟩ := Prod.mk.inj hview
  have hreach : Reach (submitSystem .accel { cmdHandler := accelHandler }) (fun _ _ => True) s :=
    replay_reach (fun _ _ _ => trivial) (.init ⟨0, rfl⟩) hs
  refine ⟨s, hset, hsubs, ?_⟩
  exact ((reset_has_no_effect accelHandler_blind).1 s.eraseReset).mpr ⟨s, rfl, hreach⟩

end Deepspan
