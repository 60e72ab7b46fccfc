import Deepspan.Zephyr.AppCalls

/-!
# What the firmware application logs

The poll thread acknowledges an interrupt by a store that, on shared memory, leaves
`IRQ_DONE` set. From the first command on it therefore latches whatever is in the
result registers and gives `cmd_done` once a millisecond, and a later call may return
before its command has been looked at.

* `app_lines`: what can be relied on nevertheless, whatever the store does. The
  polynomial is right; the test vector's line shows its checksum or the polynomial;
  and once two sleeps of the loop have been long enough for the hw-model and the poll
  thread, every line of the loop is right, because a value that is late is then that
  of the same message.
* `app_lines_w1c`: with the write-1-to-clear register that the driver is written for,
  every line is right up to the first command that times out.
-/

namespace Deepspan

open Transition

variable {mode : AckMode} {cfg : HwModelConfig} {s s' : AppState} {a : AppAct} {hw hw' : HwModel}
  {drv drv' : Driver} {c c' : CmdCall} {seg' : Segment} {task : AppTask} {autoIrq : Bool}

/-! ## The lines, whatever the acknowledging store does -/

/-- The hw-model is idle, and the poll thread has latched the word that `main` logs. -/
def AppState.settled (s : AppState) : Bool :=
  !s.hw.seg.reg.started && !s.hw.pc.inCommand && s.drv.lastResult0 == s.hw.seg.reg.resultData0

/-- The two seconds are enough for the hw-model and the poll thread. -/
def sleepsSuffice (s : AppState) : AppAct → Bool
  | .main => s.pc != .sleep || s.settled
  | _ => true

/-- The task of the `k`-th line. -/
def AppTask.ofLine : Nat → AppTask
  | 0 => .getPoly
  | 1 => .test
  | _ => .loop

/-- GET_POLY has been answered in time. -/
def FirstAnswered (lines : List AppLine) : Prop :=
  ∃ first value, lines[0]? = some first ∧ first.value = some value

/-- The test vector's checksum, or the value of the command before it. -/
def TestValue (value : UInt32) : Prop :=
  value = AppTask.getPoly.right ∨ value = AppTask.test.right

structure LineOk (lines : List AppLine) (k : Nat) (line : AppLine) : Prop where
  task : line.task = .ofLine k
  seq : line.seq = UInt32.ofNat (k - 2)
  right : k = 0 ∨ 4 ≤ k → ∀ value, line.value = some value → value = line.task.right
  test : k = 1 → FirstAnswered lines → ∀ value, line.value = some value → TestValue value

/-- What holds at each point of `main`. Of the loop's first command nothing is known: it may
come while the hw-model is still at work on the test vector. -/
def AppPhase (s : AppState) : Prop :=
  match s.pc with
  | .submitCmd .getPoly => s.lines.length = 0 ∧ RightCall .getPoly s.hw s.drv s.call
  | .setDma .getPoly => False
  | .setDma .test =>
    s.lines.length = 1 ∧ (FirstAnswered s.lines → HwIdle s.hw ∧ Values TestValue s.hw s.drv)
  | .submitCmd .test =>
    s.lines.length = 1 ∧ (FirstAnswered s.lines →
      CallOk .test s.hw s.call ∧ Values TestValue s.hw s.drv ∧ Copied TestValue s.call)
  | .setDma .loop =>
    2 ≤ s.lines.length ∧ (3 ≤ s.lines.length → HwIdle s.hw) ∧
    (4 ≤ s.lines.length → Values (· = AppTask.loop.right) s.hw s.drv)
  | .submitCmd .loop =>
    2 ≤ s.lines.length ∧ (3 ≤ s.lines.length → CallOk .loop s.hw s.call) ∧
    (4 ≤ s.lines.length → Values (· = AppTask.loop.right) s.hw s.drv ∧
      Copied (· = AppTask.loop.right) s.call)
  | .sleep =>
    3 ≤ s.lines.length ∧
    (4 ≤ s.lines.length → CallOk .loop s.hw s.call ∧ s.call.pc.beforeStart = false) ∧
    (5 ≤ s.lines.length → Values (· = AppTask.loop.right) s.hw s.drv)

structure AppInv (s : AppState) : Prop where
  inCommand : s.hw.pc.inCommand = true → s.hw.seg.reg.started = true
  lines : ∀ k line, s.lines[k]? = some line → LineOk s.lines k line
  seq : s.seq = UInt32.ofNat (s.lines.length - 2)
  phase : AppPhase s

/-- Steps of the other threads. -/
theorem AppPhase.env (h : AppPhase s) (hw₁ : HwModel) (drv₁ : Driver)
    (hidle : HwIdle s.hw → HwIdle hw₁)
    (hcall : ∀ task, CallOk task s.hw s.call → CallOk task hw₁ s.call)
    (hright : RightCall .getPoly s.hw s.drv s.call → RightCall .getPoly hw₁ drv₁ s.call)
    (hvalues : ∀ S task, HwIdle s.hw ∨ CallOk task s.hw s.call → S task.right →
      Values S s.hw s.drv → Values S hw₁ drv₁) :
    AppPhase { s with hw := hw₁, drv := drv₁ } := by
  unfold AppPhase at h ⊢
  split at h
  · next hp =>
    simp only [hp]
    exact ⟨h.1, hright h.2⟩
  · exact h.elim
  · next hp =>
    simp only [hp]
    refine ⟨h.1, fun hfirst => ?_⟩
    obtain ⟨hi, hv⟩ := h.2 hfirst
    exact ⟨hidle hi, hvalues _ .test (.inl hi) (.inr rfl) hv⟩
  · next hp =>
    simp only [hp]
    refine ⟨h.1, fun hfirst => ?_⟩
    obtain ⟨hc, hv, hcopied⟩ := h.2 hfirst
    exact ⟨hcall _ hc, hvalues _ .test (.inr hc) (.inr rfl) hv, hcopied⟩
  · next hp =>
    simp only [hp]
    obtain ⟨hlen, hi, hv⟩ := h
    exact ⟨hlen, fun h3 => hidle (hi h3),
      fun h4 => hvalues _ .loop (.inl (hi (Nat.le_of_succ_le h4))) rfl (hv h4)⟩
  · next hp =>
    simp only [hp]
    obtain ⟨hlen, hc, hv⟩ := h
    exact ⟨hlen, fun h3 => hcall _ (hc h3), fun h4 =>
      ⟨hvalues _ .loop (.inr (hc (Nat.le_of_succ_le h4))) rfl (hv h4).1, (hv h4).2⟩⟩
  · next hp =>
    simp only [hp]
    obtain ⟨hlen, hc, hv⟩ := h
    exact ⟨hlen, fun h4 => ⟨hcall _ (hc h4).1, (hc h4).2⟩,
      fun h5 => hvalues _ .loop (.inr (hc (Nat.le_of_succ_le h5)).1) rfl (hv h5)⟩

theorem AppPhase.device (h : AppPhase s)
    (hin : s.hw.pc.inCommand = true → s.hw.seg.reg.started = true)
    (hlog : Logged (crc32Config autoIrq) s.hw.log)
    (hs : s.hw.pollLoopStep (crc32Config autoIrq) = some hw') : AppPhase { s with hw := hw' } := by
  refine h.env hw' s.drv (fun hidle => hidle.device hs) (fun _ hc => hc.device hs)
    (fun hr => hr.device hin hs) ?_
  intro S task hwhere hright hvalues
  rcases hwhere with hidle | hcall
  · exact hvalues.idle hidle hs
  · exact hvalues.device hcall hlog hright hs

theorem AppPhase.pollThread (h : AppPhase s)
    (hs : s.drv.pollThreadStep mode s.hw.seg = (drv', seg')) :
    AppPhase { s with hw := { s.hw with seg := seg' }, drv := drv' } :=
  h.env _ _ (fun hidle => hidle.pollThread hs) (fun _ hc => hc.pollThread hs)
    (fun hr => hr.pollThread hs) fun _ _ _ _ hvalues => hvalues.pollThread hs

theorem AppPhase.stop (h : AppPhase s) :
    AppPhase { s with hw := { s.hw with running := false } } :=
  h.env _ s.drv (fun hidle => ⟨hidle.started, hidle.inCommand⟩) (fun _ hc => hc.stop)
    (fun hr => hr.stop) fun _ _ _ _ hvalues => ⟨hvalues.result, hvalues.latched⟩

/-- The next step of the call that `main` is in. -/
theorem AppPhase.exec (h : AppPhase s) (hlog : Logged (crc32Config autoIrq) s.hw.log)
    (hp : s.pc = .submitCmd task) (hs : s.call.exec s.hw s.drv = some (c', seg', drv')) :
    AppPhase { s with hw := { s.hw with seg := seg' }, drv := drv', call := c' } := by
  unfold AppPhase at h ⊢
  cases task with
  | getPoly =>
    simp only [hp] at h ⊢
    exact ⟨h.1, h.2.exec hlog hs⟩
  | test =>
    simp only [hp] at h ⊢
    refine ⟨h.1, fun hfirst => ?_⟩
    obtain ⟨hc, hv, hcopied⟩ := h.2 hfirst
    exact ⟨hc.exec hs, hv.exec hs, hcopied.exec hv hs⟩
  | loop =>
    simp only [hp] at h ⊢
    obtain ⟨hlen, hc, hv⟩ := h
    exact ⟨hlen, fun h3 => (hc h3).exec hs,
      fun h4 => ⟨(hv h4).1.exec hs, (hv h4).2.exec (hv h4).1 hs⟩⟩

theorem AppPhase.timeout (h : AppPhase s) (hp : s.call.pc = .take) :
    AppPhase { s with call := { s.call with pc := .timedOut } } := by
  unfold AppPhase at h ⊢
  split at h
  · next hpc =>
    simp only [hpc]
    exact ⟨h.1, h.2.timeout hp⟩
  · exact h.elim
  · next hpc =>
    simp only [hpc]
    exact h
  · next hpc =>
    simp only [hpc]
    refine ⟨h.1, fun hfirst => ?_⟩
    obtain ⟨hc, hv, _⟩ := h.2 hfirst
    exact ⟨hc.timeout hp, hv, trivial⟩
  · next hpc =>
    simp only [hpc]
    exact h
  · next hpc =>
    simp only [hpc]
    obtain ⟨hlen, hc, hv⟩ := h
    exact ⟨hlen, fun h3 => (hc h3).timeout hp, fun h4 => ⟨(hv h4).1, trivial⟩⟩
  · next hpc =>
    simp only [hpc]
    obtain ⟨hlen, hc, hv⟩ := h
    exact ⟨hlen, fun h4 => ⟨(hc h4).1.timeout hp, rfl⟩, hv⟩

/-- `main` stages the data of its next task. -/
theorem AppPhase.stage (h : AppPhase s) (hp : s.pc = .setDma task) :
    AppPhase { s with hw := { s.hw with seg := s.hw.seg.copyDma task.data }
                      pc := .submitCmd task, call := task.call } := by
  unfold AppPhase at h ⊢
  cases task with
  | getPoly =>
    simp only [hp] at h
  | test =>
    simp only [hp] at h ⊢
    refine ⟨h.1, fun hfirst => ?_⟩
    obtain ⟨hidle, hv⟩ := h.2 hfirst
    exact ⟨callOk_new hidle .test, ⟨hv.result, hv.latched⟩, trivial⟩
  | loop =>
    simp only [hp] at h ⊢
    obtain ⟨hlen, hidle, hv⟩ := h
    exact ⟨hlen, fun h3 => callOk_new (hidle h3) .loop,
      fun h4 => ⟨⟨(hv h4).result, (hv h4).latched⟩, trivial⟩⟩

/-- Two sleeps that were long enough, and the loop's values have settled. -/
theorem AppPhase.wake (h : AppPhase s) (hlog : Logged (crc32Config autoIrq) s.hw.log)
    (hp : s.pc = .sleep) (hsettled : s.settled = true) : AppPhase { s with pc := .setDma .loop } := by
  unfold AppPhase at h ⊢
  simp only [hp] at h
  obtain ⟨hlen, hcall, _⟩ := h
  simp only [AppState.settled, Bool.and_eq_true, Bool.not_eq_true', beq_iff_eq] at hsettled
  obtain ⟨⟨hst, hin⟩, hlatched⟩ := hsettled
  refine ⟨Nat.le_of_succ_le hlen, fun _ => ⟨hst, hin⟩, fun h4 => ?_⟩
  obtain ⟨hc, hpast⟩ := hcall h4
  have hresult : s.hw.seg.reg.resultData0 = AppTask.loop.right :=
    hlog.task_reply (hc.served hpast hst).answered
  exact ⟨hresult, hlatched.trans hresult⟩

theorem ret_past {value : Option UInt32} (h : c.pc.ret? = some value) :
    c.pc.beforeStart = false := by
  cases hp : c.pc with
  | returned _ _ _ | timedOut => rfl
  | _ => simp [hp, CmdPc.ret?] at h

theorem Copied.ret {S : UInt32 → Prop} (h : Copied S c) {value : UInt32}
    (hret : c.pc.ret? = some (some value)) : S value := by
  unfold Copied at h
  obtain ⟨status, data1, hp⟩ := ret?_eq_some hret
  simp only [hp] at h
  exact h

theorem FirstAnswered.of_concat {lines : List AppLine} {line : AppLine}
    (h : FirstAnswered (lines ++ [line])) (hlen : 0 < lines.length) : FirstAnswered lines := by
  obtain ⟨first, value, hfirst, hvalue⟩ := h
  rw [List.getElem?_append_left hlen] at hfirst
  exact ⟨first, value, hfirst, hvalue⟩

theorem linesOk_concat {lines : List AppLine} {line : AppLine}
    (h : ∀ k line, lines[k]? = some line → LineOk lines k line)
    (hnew : LineOk (lines ++ [line]) lines.length line) :
    ∀ k l, (lines ++ [line])[k]? = some l → LineOk (lines ++ [line]) k l := by
  intro k l hk
  rcases getElem?_concat_cases hk with hold | ⟨rfl, rfl⟩
  · have hok := h k l hold
    have hlen := (List.getElem?_eq_some_iff.mp hold).1
    exact ⟨hok.task, hok.seq, hok.right,
      fun hone hfirst => hok.test hone (hfirst.of_concat (Nat.zero_lt_of_lt hlen))⟩
  · exact hnew

/-- The line that `main` adds. -/
theorem AppInv.print (h : AppInv s) {value : Option UInt32} (hp : s.pc = .submitCmd task)
    (hret : s.call.pc.ret? = some value) : AppInv (s.print task value) := by
  have hphase := h.phase
  have hseq := h.seq
  unfold AppPhase at hphase
  cases task with
  | getPoly =>
    simp only [hp] at hphase
    obtain ⟨hlen, hcall⟩ := hphase
    refine ⟨h.inCommand, linesOk_concat h.lines ⟨?_, ?_, ?_, ?_⟩, ?_, ?_, ?_⟩
    · rw [hlen]
      rfl
    · exact hseq
    · rintro _ v rfl
      exact (hcall.ret hret).1
    · intro hone
      rw [hlen] at hone
      cases hone
    · rw [hlen] at hseq
      simp only [AppState.print, List.length_append, hlen]
      exact hseq
    · simp only [AppState.print, List.length_append, hlen, List.length_singleton]
    · rintro ⟨first, v, hfirst, hv⟩
      simp only [AppState.print, List.eq_nil_of_length_eq_zero hlen] at hfirst
      cases hfirst
      cases hv
      obtain ⟨_, hidle, hvalues⟩ := hcall.ret hret
      exact ⟨hidle, .inl hvalues.result, .inl hvalues.latched⟩
  | test =>
    simp only [hp] at hphase
    obtain ⟨hlen, hcall⟩ := hphase
    refine ⟨h.inCommand, linesOk_concat h.lines ⟨?_, ?_, ?_, ?_⟩, ?_, ?_, ?_, ?_⟩
    · rw [hlen]
      rfl
    · exact hseq
    · intro hk
      rw [hlen] at hk
      exact absurd hk (by decide)
    · rintro _ hfirst v rfl
      obtain ⟨_, _, hcopied⟩ := hcall (hfirst.of_concat (hlen ▸ Nat.one_pos))
      exact hcopied.ret hret
    · rw [hlen] at hseq
      simp only [AppState.print, List.length_append, hlen]
      exact hseq
    · simp only [AppState.print, List.length_append, hlen, List.length_singleton]
      exact Nat.le_refl 2
    · intro hthree
      simp only [AppState.print, List.length_append, hlen, List.length_singleton] at hthree
      exact absurd hthree (by decide)
    · intro hfour
      simp only [AppState.print, List.length_append, hlen, List.length_singleton] at hfour
      exact absurd hfour (by decide)
  | loop =>
    simp only [hp] at hphase
    obtain ⟨hlen, hcall, hvalues⟩ := hphase
    obtain ⟨n, hn⟩ := Nat.exists_eq_add_of_le' hlen
    refine ⟨h.inCommand, linesOk_concat h.lines ⟨?_, hseq, ?_, ?_⟩, ?_, ?_, ?_, ?_⟩
    · rw [hn]
      rfl
    · rintro hk v rfl
      rcases hk with hzero | hfour
      · rw [hzero] at hlen
        cases hlen
      · exact (hvalues hfour).2.ret hret
    · intro hone
      rw [hone] at hlen
      exact absurd hlen (by decide)
    · rw [hn] at hseq
      simp only [AppState.print, List.length_append, hn, List.length_singleton, hseq]
      exact (UInt32.ofNat_add n 1).symm
    · simp only [AppState.print, List.length_append, List.length_singleton]
      exact Nat.succ_le_succ hlen
    · intro hfour
      simp only [AppState.print, List.length_append, List.length_singleton] at hfour
      exact ⟨hcall (Nat.le_of_succ_le_succ hfour), ret_past hret⟩
    · intro hfive
      simp only [AppState.print, List.length_append, List.length_singleton] at hfive
      exact (hvalues (Nat.le_of_succ_le_succ hfive)).1

theorem appInv_step (h : AppInv s) (hlog : Logged (crc32Config autoIrq) s.hw.log)
    (hg : sleepsSuffice s a = true) (hs : s.step mode (crc32Config autoIrq) a = some s') :
    AppInv s' := by
  cases appStep_cases hs with
  | stage hp => exact ⟨h.inCommand, h.lines, h.seq, h.phase.stage hp⟩
  | exec hp hexec =>
    refine ⟨fun hin => ?_, h.lines, h.seq, h.phase.exec hlog hp hexec⟩
    exact cmdExec_started hexec (h.inCommand hin)
  | print hp hret => exact h.print hp hret
  | wake hp =>
    have hsettled : s.settled = true := by
      simpa only [sleepsSuffice, hp, bne_self_eq_false, Bool.false_or] using hg
    exact ⟨h.inCommand, h.lines, h.seq, h.phase.wake hlog hp hsettled⟩
  | timeout hp _ => exact ⟨h.inCommand, h.lines, h.seq, h.phase.timeout hp⟩
  | pollThread hpoll =>
    refine ⟨fun hin => ?_, h.lines, h.seq, h.phase.pollThread hpoll⟩
    obtain ⟨irq, rfl⟩ := pollThread_irqStatus hpoll
    exact h.inCommand hin
  | device hdev =>
    exact ⟨inCommand_step h.inCommand hdev, h.lines, h.seq, h.phase.device h.inCommand hlog hdev⟩
  | stop => exact ⟨h.inCommand, h.lines, h.seq, h.phase.stop⟩

theorem clean_initial (t : UInt64) (seg : Segment) :
    HwIdle (AppState.initial t seg).hw ∧ Clean (AppState.initial t seg).hw
      (AppState.initial t seg).drv :=
  ⟨⟨(by decide : ((0 : UInt32) &&& CtrlBits.start != 0) = false), rfl⟩,
    ⟨⟨(by decide : ((0 : UInt32) &&& irqDone != 0) = false), rfl, rfl⟩, rfl⟩⟩

theorem rightCall_initial (t : UInt64) (seg : Segment) :
    RightCall .getPoly (AppState.initial t seg).hw (AppState.initial t seg).drv
      (AppState.initial t seg).call where
  call := ⟨rfl, holdsDma_nil _, (clean_initial t seg).1⟩
  clean := ⟨trivial, clean_initial t seg⟩
  settles := trivial
  copied := trivial

theorem reach_appInv (h : Reach (appSystem mode (crc32Config autoIrq))
    (fun s a => sleepsSuffice s a = true) s) : AppInv s := by
  have hinv : AppInv s ∧ Logged (crc32Config autoIrq) s.hw.log := by
    refine h.invariant (P := fun s => AppInv s ∧ Logged (crc32Config autoIrq) s.hw.log) ?_ ?_
    · rintro _ ⟨t, seg, rfl⟩
      refine ⟨⟨fun hin => ?_, fun k line hk => ?_, rfl, rfl, rightCall_initial t seg⟩,
        fun i inv hinv => ?_⟩
      · rw [(clean_initial t seg).1.inCommand] at hin
        cases hin
      · cases hk
      · cases hinv
    · rintro s a s' ⟨hinv, hlog⟩ hg hs
      exact ⟨appInv_step hinv hlog hg hs, appStep_logged hlog hs⟩
  exact hinv.1

/-- Of the values that `main` logs, as long as the sleeps of its loop are long enough: the
polynomial is right, and so is every line of the loop from the third on. The test vector's line
shows its checksum or, late, the polynomial, unless GET_POLY has timed out. -/
theorem app_lines (h : Reach (appSystem mode (crc32Config autoIrq))
      (fun s a => sleepsSuffice s a = true) s) {k : Nat} {line : AppLine} {value : UInt32}
    (hk : s.lines[k]? = some line) (hvalue : line.value = some value) :
    line.task = .ofLine k ∧ line.seq = UInt32.ofNat (k - 2) ∧
    (k = 0 ∨ 4 ≤ k → value = line.task.right) ∧
    (k = 1 → FirstAnswered s.lines →
      value = AppTask.getPoly.right ∨ value = AppTask.test.right) := by
  have hline := (reach_appInv h).lines k line hk
  exact ⟨hline.task, hline.seq, fun hk => hline.right hk value hvalue,
    fun hone hfirst => hline.test hone hfirst value hvalue⟩

/-- A call of `main` up to its wait, a command of the hw-model, a round of the poll thread, and
the rest of the call with its line. -/
def lateLines : List AppAct :=
  schedule [(5, .main), (16, .device), (6, .pollThread), (5, .main),
    (6, .main), (6, .pollThread), (5, .main),
    (16, .device), (6, .pollThread), (11, .main),
    (16, .device), (6, .pollThread), (12, .main),
    (16, .device), (6, .pollThread), (12, .main)]

theorem lateLines_run :
    (replay (appSystem .plain (crc32Config true)) sleepsSuffice (.initial 0 .zero) lateLines).map
      (fun s => s.lines.map fun line => (line.seq, line.value)) =
    some [(0, some 0xEDB88320), (0, some 0xEDB88320), (0, some 0xCBF43926), (1, some 0x1D04DBD1),
      (2, some 0x1D04DBD1)] := by
  decide +kernel

/-- On shared memory: the second and the third line are one command late, and the fifth is
right. -/
theorem app_lines_late : ∃ s, Reach (appSystem .plain (crc32Config true))
      (fun s a => sleepsSuffice s a = true) s ∧
    s.lines.map (fun line => line.value) =
      [some 0xEDB88320, some 0xEDB88320, some 0xCBF43926, some 0x1D04DBD1, some 0x1D04DBD1] ∧
    crc32Ieee loopData = 0x1D04DBD1 := by
  obtain ⟨s, hs, hview⟩ := Option.map_eq_some_iff.mp lateLines_run
  have hreach : Reach (appSystem .plain (crc32Config true)) (fun s a => sleepsSuffice s a = true) s :=
    replay_reach (fun _ _ h => h) (.init ⟨0, .zero, rfl⟩) hs
  have hfifth : (s.lines[4]?).map (fun line => (line.seq, line.value)) =
      some (2, some 0x1D04DBD1) := by
    rw [← List.getElem?_map, hview]
    rfl
  obtain ⟨line, hline, hpair⟩ := Option.map_eq_some_iff.mp hfifth
  obtain ⟨htask, _, hright, _⟩ := app_lines hreach hline (congrArg Prod.snd hpair)
  refine ⟨s, hreach, ?_, ?_⟩
  · have hvalues := congrArg (List.map Prod.snd) hview
    rw [List.map_map] at hvalues
    exact hvalues
  · have hvalue := hright (.inr (Nat.le_refl 4))
    rw [htask] at hvalue
    exact hvalue.symm

/-! ## The lines with a write-1-to-clear register -/

/-- One completion is passed on from the interrupt to the poll thread to the semaphore. -/
def Passed (hw : HwModel) (drv : Driver) : Prop :=
  match drv.thread with
  | .load => hw.seg.reg.irqPending = true → drv.cmdDone = false
  | .give => hw.seg.reg.irqPending = false ∧ drv.cmdDone = false
  | _ => hw.seg.reg.irqPending = true ∧ drv.cmdDone = false

/-- What is left of the completion of a call at each of its program points. -/
def Spent (hw : HwModel) (drv : Driver) (c : CmdCall) : Prop :=
  match c.pc with
  | .take => hw.seg.reg.started = false →
    Passed hw drv ∧ (hw.pc.inTail = true → NoneGiven hw drv)
  | .copyStatus | .copyData0 _ | .copyData1 _ _ | .returned _ _ _ => Clean hw drv
  | _ => True

theorem Passed.pollThread (h : Passed hw drv)
    (hs : drv.pollThreadStep .w1c hw.seg = (drv', seg')) : Passed { hw with seg := seg' } drv' := by
  unfold Passed at h
  unfold Driver.pollThreadStep at hs
  cases hp : drv.thread with
  | load =>
    simp only [hp, Prod.mk.injEq] at h hs
    obtain ⟨rfl, rfl⟩ := hs
    by_cases hirq : hw.seg.reg.irqPending = true
    · simp only [hirq, if_true, Passed]
      exact ⟨trivial, h hirq⟩
    · rw [if_neg hirq]
      exact fun hset => absurd hset hirq
  | readStatus | readData0 | readData1 =>
    simp only [hp, Prod.mk.injEq] at h hs
    obtain ⟨rfl, rfl⟩ := hs
    exact h
  | ack =>
    simp only [hp, Prod.mk.injEq] at h hs
    obtain ⟨rfl, rfl⟩ := hs
    exact ⟨irqPending_ack hw.seg.reg hw.seg.reg.irqStatus, h.2⟩
  | give =>
    simp only [hp, Prod.mk.injEq] at h hs
    obtain ⟨rfl, rfl⟩ := hs
    intro hirq
    rw [show ({ hw with seg := hw.seg } : HwModel).seg.reg.irqPending = false from h.1] at hirq
    cases hirq

theorem NoneGiven.passed (h : NoneGiven hw drv) : Passed hw drv := by
  simp only [Passed, h.thread]
  exact fun _ => h.sem

/-- The hw-model raises the interrupt of a command once, after it has cleared START. -/
theorem Spent.device (h : Spent hw drv c) (hcall : RightCall task hw drv c)
    (hin : hw.pc.inCommand = true → hw.seg.reg.started = true)
    (hs : hw.pollLoopStep cfg = some hw') : Spent hw' drv c := by
  unfold Spent at h ⊢
  have hsettles := hcall.settles
  unfold Settles at hsettles
  cases hp : c.pc with
  | take =>
    simp only [hp] at h ⊢
    intro hclear
    by_cases hst : hw.seg.reg.started = true
    · have hwaits := hcall.clean.waits
      simp only [Waits, hp] at hwaits
      obtain ⟨⟨hirq, hsem, hthread⟩, htail⟩ := hwaits hst
      cases pollLoopStep_cases hs with
      | clearStart _ =>
        have hnone : NoneGiven { hw with
            pc := .writeReady
            seg := hw.seg.withReg fun r => { r with ctrl := r.ctrl &&& ~~~CtrlBits.start } } drv :=
          ⟨hirq, hsem, hthread⟩
        exact ⟨hnone.passed, fun _ => hnone⟩
      | _ => exact absurd hst (Bool.not_eq_true _ ▸ hclear)
    · have hserved := hcall.call.served (by rw [hp]; rfl) (Bool.not_eq_true _ ▸ hst)
      obtain ⟨hpassed, htail⟩ := h (Bool.not_eq_true _ ▸ hst)
      have hidle := hserved.idle
      cases pollLoopStep_cases hs with
      | stay hq _ | leave hq _ | unseen hq _ => exact ⟨hpassed, fun ht => by cases ht⟩
      | seen _ hset => exact absurd hset hst
      | writeReady hq hpc =>
        have hnone := htail (by rw [hq]; rfl)
        exact ⟨hpassed, fun _ => ⟨hnone.irq, hnone.sem, hnone.thread⟩⟩
      | raiseIrq hq =>
        obtain ⟨_, hsem, hthread⟩ := htail (by rw [hq]; rfl)
        refine ⟨?_, fun ht => by cases ht⟩
        simp only [Passed, hthread]
        exact fun _ => hsem
      | callHandler hq _ => rw [hq] at hidle; cases hidle
      | readOpcode hq | readArg0 hq | readArg1 hq | writeData0 hq | writeData1 hq | writeStatus hq
      | fetchAdd hq | storeCount hq | storeLastOpcode hq | storeLastStatus hq | clearStart hq =>
        rw [hq] at hidle
        cases hidle
  | copyStatus | copyData0 _ | copyData1 _ _ | returned _ _ _ =>
    simp only [hp] at h hsettles ⊢
    exact h.device hs ((hsettles.1.device hs).started.trans hsettles.1.started.symm) hin
  | _ => trivial

theorem Spent.pollThread (h : Spent hw drv c)
    (hs : drv.pollThreadStep .w1c hw.seg = (drv', seg')) :
    Spent { hw with seg := seg' } drv' c := by
  unfold Spent at h ⊢
  cases hp : c.pc with
  | take =>
    simp only [hp] at h ⊢
    intro hclear
    have hst : hw.seg.reg.started = false := by
      obtain ⟨irq, rfl⟩ := pollThread_irqStatus hs
      exact hclear
    refine ⟨(h hst).1.pollThread hs, fun ht => ?_⟩
    have hnone := (h hst).2 ht
    obtain ⟨rfl, rfl⟩ := hnone.pollThread hs
    exact hnone
  | copyStatus | copyData0 _ | copyData1 _ _ | returned _ _ _ =>
    simp only [hp] at h ⊢
    obtain ⟨rfl, rfl⟩ := h.pollThread hs
    exact h
  | _ => trivial

theorem Spent.stop (h : Spent hw drv c) : Spent { hw with running := false } drv c := by
  unfold Spent at h ⊢
  cases hp : c.pc with
  | take =>
    simp only [hp] at h ⊢
    intro hst
    exact ⟨(h hst).1, fun ht => ⟨((h hst).2 ht).irq, ((h hst).2 ht).sem, ((h hst).2 ht).thread⟩⟩
  | copyStatus | copyData0 _ | copyData1 _ _ | returned _ _ _ =>
    simp only [hp] at h ⊢
    exact ⟨⟨h.irq, h.sem, h.thread⟩, h.tail⟩
  | _ => trivial

/-- The call that takes the semaphore takes the last that is left of its completion. -/
theorem Spent.exec (h : Spent hw drv c) (hcall : RightCall task hw drv c)
    (hs : c.exec hw drv = some (c', seg', drv')) : Spent { hw with seg := seg' } drv' c' := by
  unfold Spent at h
  cases cmdExec_cases hs with
  | orStart _ =>
    intro hclear
    simp [Segment.withReg] at hclear
  | take hp hsem =>
    have hcmd := hcall.clean.cmd
    simp only [CmdOk, hp] at hcmd
    simp only [hp] at h
    rcases hcmd.2 with ⟨_, hnot, _⟩ | ⟨hdone, _⟩
    · rw [hsem] at hnot
      cases hnot
    · obtain ⟨hpassed, htail⟩ := h hdone.served.started
      have hnotail : hw.pc.inTail = false := by
        cases ht : hw.pc.inTail with
        | false => rfl
        | true => exact absurd ((htail ht).sem.symm.trans hsem) (by decide)
      unfold Passed at hpassed
      cases hthread : drv.thread with
      | load =>
        simp only [hthread] at hpassed
        have hirq : hw.seg.reg.irqPending = false := by
          cases hset : hw.seg.reg.irqPending with
          | false => rfl
          | true => exact absurd ((hpassed hset).symm.trans hsem) (by decide)
        exact ⟨⟨hirq, rfl, rfl⟩, hnotail⟩
      | _ =>
        simp only [hthread] at hpassed
        exact absurd (hpassed.2.symm.trans hsem) (by decide)
  | copyStatus hp | copyData0 hp | copyData1 hp =>
    simp only [hp] at h
    exact ⟨⟨h.irq, h.sem, h.thread⟩, h.tail⟩
  | writeOpcode _ | writeArg0 _ | writeArg1 _ | writeFlags _ => trivial

theorem Spent.ret (h : Spent hw drv c) {value : UInt32}
    (hret : c.pc.ret? = some (some value)) : Clean hw drv := by
  unfold Spent at h
  obtain ⟨status, data1, hp⟩ := ret?_eq_some hret
  simp only [hp] at h
  exact h

/-- No command of these lines has failed. -/
def AllAnswered (lines : List AppLine) : Prop := ∀ line ∈ lines, line.value.isSome = true

/-- Between the commands nothing is left over, as long as none has timed out. -/
def CleanPhase (s : AppState) : Prop :=
  match s.pc with
  | .submitCmd task => RightCall task s.hw s.drv s.call ∧ Spent s.hw s.drv s.call
  | .setDma _ | .sleep => HwIdle s.hw ∧ Clean s.hw s.drv

structure CleanInv (s : AppState) : Prop where
  inCommand : s.hw.pc.inCommand = true → s.hw.seg.reg.started = true
  lines : ∀ k line value, s.lines[k]? = some line → line.value = some value →
    AllAnswered (s.lines.take k) → value = line.task.right
  phase : AllAnswered s.lines → CleanPhase s

theorem CleanPhase.device (h : CleanPhase s)
    (hin : s.hw.pc.inCommand = true → s.hw.seg.reg.started = true)
    (hs : s.hw.pollLoopStep cfg = some hw') : CleanPhase { s with hw := hw' } := by
  unfold CleanPhase at h ⊢
  cases hp : s.pc with
  | submitCmd task =>
    simp only [hp] at h ⊢
    exact ⟨h.1.device hin hs, h.2.device h.1 hin hs⟩
  | setDma _ | sleep =>
    simp only [hp] at h ⊢
    have hidle := h.1.device hs
    exact ⟨hidle, h.2.device hs (hidle.started.trans h.1.started.symm) hin⟩

theorem CleanPhase.pollThread (h : CleanPhase s)
    (hs : s.drv.pollThreadStep .w1c s.hw.seg = (drv', seg')) :
    CleanPhase { s with hw := { s.hw with seg := seg' }, drv := drv' } := by
  unfold CleanPhase at h ⊢
  cases hp : s.pc with
  | submitCmd task =>
    simp only [hp] at h ⊢
    exact ⟨h.1.pollThread hs, h.2.pollThread hs⟩
  | setDma _ | sleep =>
    simp only [hp] at h ⊢
    obtain ⟨rfl, rfl⟩ := h.2.pollThread hs
    exact h

theorem CleanPhase.stop (h : CleanPhase s) :
    CleanPhase { s with hw := { s.hw with running := false } } := by
  unfold CleanPhase at h ⊢
  cases hp : s.pc with
  | submitCmd task =>
    simp only [hp] at h ⊢
    exact ⟨h.1.stop, h.2.stop⟩
  | setDma _ | sleep =>
    simp only [hp] at h ⊢
    exact ⟨⟨h.1.started, h.1.inCommand⟩, ⟨h.2.irq, h.2.sem, h.2.thread⟩, h.2.tail⟩

theorem CleanPhase.timeout (h : CleanPhase s) (hp : s.call.pc = .take) :
    CleanPhase { s with call := { s.call with pc := .timedOut } } := by
  unfold CleanPhase at h ⊢
  cases hpc : s.pc with
  | submitCmd task =>
    simp only [hpc] at h ⊢
    exact ⟨h.1.timeout hp, trivial⟩
  | setDma _ | sleep =>
    simp only [hpc] at h ⊢
    exact h

theorem CleanInv.print (h : CleanInv s) {value : Option UInt32} (hp : s.pc = .submitCmd task)
    (hret : s.call.pc.ret? = some value) : CleanInv (s.print task value) := by
  have hlines : (s.print task value).lines = s.lines ++ [⟨task, s.seq, value⟩] := by
    cases task <;> rfl
  have hhw : (s.print task value).hw = s.hw := by
    cases task <;> rfl
  have hdrv : (s.print task value).drv = s.drv := by
    cases task <;> rfl
  have hphase := h.phase
  simp only [CleanPhase, hp] at hphase
  refine ⟨by rw [hhw]; exact h.inCommand, ?_, ?_⟩
  · intro k line v hk hv hbefore
    rw [hlines] at hk hbefore
    rcases getElem?_concat_cases hk with hold | ⟨rfl, rfl⟩
    · have hlen := (List.getElem?_eq_some_iff.mp hold).1
      rw [List.take_append_of_le_length (Nat.le_of_lt hlen)] at hbefore
      exact h.lines k line v hold hv hbefore
    · rw [List.take_left] at hbefore
      have hvalue : value = some v := hv
      rw [hvalue] at hret
      exact ((hphase hbefore).1.ret hret).1
  · intro hall
    rw [hlines] at hall
    have hbefore : AllAnswered s.lines := fun line hline => hall line (List.mem_append_left _ hline)
    obtain ⟨hcall, hspent⟩ := hphase hbefore
    obtain ⟨v, hv⟩ := Option.isSome_iff_exists.mp (hall _ (List.mem_append_right _ (.head _)))
    have hvalue : value = some v := hv
    rw [hvalue] at hret
    have hafter : HwIdle s.hw ∧ Clean s.hw s.drv := ⟨(hcall.ret hret).2.1, hspent.ret hret⟩
    cases task <;> exact hafter

theorem cleanInv_step (h : CleanInv s) (hlog : Logged (crc32Config autoIrq) s.hw.log)
    (hs : s.step .w1c (crc32Config autoIrq) a = some s') : CleanInv s' := by
  cases appStep_cases hs with
  | stage hp =>
    refine ⟨h.inCommand, h.lines, fun hall => ?_⟩
    have hphase := h.phase hall
    simp only [CleanPhase, hp] at hphase
    exact ⟨rightCall_new hphase.1 hphase.2 _, trivial⟩
  | exec hp hexec =>
    refine ⟨fun hin => cmdExec_started hexec (h.inCommand hin), h.lines, fun hall => ?_⟩
    have hphase := h.phase hall
    simp only [CleanPhase, hp] at hphase ⊢
    exact ⟨hphase.1.exec hlog hexec, hphase.2.exec hphase.1 hexec⟩
  | print hp hret => exact h.print hp hret
  | wake hp =>
    refine ⟨h.inCommand, h.lines, fun hall => ?_⟩
    have hphase := h.phase hall
    simp only [CleanPhase, hp] at hphase
    exact hphase
  | timeout hp _ => exact ⟨h.inCommand, h.lines, fun hall => (h.phase hall).timeout hp⟩
  | pollThread hpoll =>
    refine ⟨fun hin => ?_, h.lines, fun hall => (h.phase hall).pollThread hpoll⟩
    obtain ⟨irq, rfl⟩ := pollThread_irqStatus hpoll
    exact h.inCommand hin
  | device hdev =>
    exact ⟨inCommand_step h.inCommand hdev, h.lines,
      fun hall => (h.phase hall).device h.inCommand hdev⟩
  | stop => exact ⟨h.inCommand, h.lines, fun hall => (h.phase hall).stop⟩

/-- With a write-1-to-clear register every line is right up to the first command that times out,
in every interleaving and however long the sleeps are. -/
theorem app_lines_w1c (h : Reach (appSystem .w1c (crc32Config autoIrq)) (fun _ _ => True) s)
    {k : Nat} {line : AppLine} {value : UInt32} (hk : s.lines[k]? = some line)
    (hvalue : line.value = some value) (hbefore : AllAnswered (s.lines.take k)) :
    value = line.task.right := by
  have hinv : CleanInv s ∧ Logged (crc32Config autoIrq) s.hw.log := by
    refine h.invariant (P := fun s => CleanInv s ∧ Logged (crc32Config autoIrq) s.hw.log) ?_ ?_
    · rintro _ ⟨t, seg, rfl⟩
      refine ⟨⟨fun hin => ?_, fun k line value hk => ?_,
        fun _ => ⟨rightCall_initial t seg, trivial⟩⟩, fun i inv hinv => ?_⟩
      · rw [(clean_initial t seg).1.inCommand] at hin
        cases hin
      · cases hk
      · cases hinv
    · rintro s a s' ⟨hinv, hlog⟩ _ hs
      exact ⟨cleanInv_step hinv hlog hs, appStep_logged hlog hs⟩
  exact hinv.1.lines k line value hk hvalue hbefore

/-- Each call waits for its own command. -/
def promptLines : List AppAct :=
  schedule [(5, .main), (16, .device), (6, .pollThread), (5, .main),
    (6, .main), (16, .device), (6, .pollThread), (5, .main),
    (6, .main), (16, .device), (6, .pollThread), (5, .main)]

theorem promptLines_run :
    (replay (appSystem .w1c (crc32Config true)) (fun _ _ => true) (.initial 0 .zero)
      promptLines).map (fun s => s.lines) =
    some [⟨.getPoly, 0, some 0xEDB88320⟩, ⟨.test, 0, some 0xCBF43926⟩,
      ⟨.loop, 0, some 0x1D04DBD1⟩] := by
  decide +kernel

theorem app_lines_w1c_prompt : ∃ s,
    Reach (appSystem .w1c (crc32Config true)) (fun _ _ => True) s ∧ s.lines.length = 3 ∧
    crc32Ieee testData = 0xCBF43926 ∧ crc32Ieee loopData = 0x1D04DBD1 := by
  obtain ⟨s, hs, hlines⟩ := Option.map_eq_some_iff.mp promptLines_run
  have hreach : Reach (appSystem .w1c (crc32Config true)) (fun _ _ => True) s :=
    replay_reach (fun _ _ _ => trivial) (.init ⟨0, .zero, rfl⟩) hs
  have hanswered : AllAnswered s.lines := by
    rw [hlines]
    exact List.forall_mem_cons.mpr ⟨rfl, List.forall_mem_cons.mpr ⟨rfl, List.forall_mem_singleton.mpr rfl⟩⟩
  have hbefore (k : Nat) : AllAnswered (s.lines.take k) :=
    fun line hline => hanswered line (List.mem_of_mem_take hline)
  have htest := app_lines_w1c (k := 1) hreach (by rw [hlines]; rfl) rfl (hbefore 1)
  have hloop := app_lines_w1c (k := 2) hreach (by rw [hlines]; rfl) rfl (hbefore 2)
  exact ⟨s, hreach, by rw [hlines]; rfl, htest.symm, hloop.symm⟩

end Deepspan
