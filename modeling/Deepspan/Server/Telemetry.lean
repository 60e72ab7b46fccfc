import Deepspan.Lib.Transition
import Deepspan.Server.Services

/-!
# What the telemetry counts

A hw-model server on a segment that may have been there before it, and `GetTelemetry` reading
`irq_count` from it at any time. The count lives twice: in `cmd_count_`, which starts at 0
with the server, and in `ShmStats`, from where it is read. `SimTransport::init` clears the
registers and `HwModelServer::init` writes the start time; the count in `ShmStats` is left as
it was until the first command overwrites it.

`telemetry_counts_iff` says for which previous contents the telemetry is that of this server.
-/

namespace Deepspan

open Transition

/-! ## A server and the others -/

inductive TelemetryAct where
  /-- A step of the poll loop. -/
  | pollLoop
  /-- Other processes store to the segment. -/
  | others (seg : Segment)
  /-- `stop` -/
  | stop
  /-- `run` or `run_async`, after the loop has ended. -/
  | run

/-- Of `ShmStats`, only `fw_cmd_count` is written by others. -/
def telemetryStep (cfg : HwModelConfig) (hw : HwModel) : TelemetryAct → Option HwModel
  | .pollLoop => hw.pollLoopStep cfg
  | .others seg =>
    if seg.stats = { hw.seg.stats with fwCmdCount := seg.stats.fwCmdCount } then
      some { hw with seg := seg }
    else none
  | .stop => some { hw with running := false }
  | .run =>
    match hw.pc with
    | .exited => some { hw with pc := .loop, running := true }
    | _ => none

/-- A server that has been started at `startTimeSec` on a segment with these previous
contents. -/
def telemetrySystem (cfg : HwModelConfig) (startTimeSec : UInt64) (previous : Segment) :
    System HwModel TelemetryAct where
  init hw := hw = hwModelInit startTimeSec previous
  step := telemetryStep cfg

/-- The commands that the loop has counted, each from the store of its count on. -/
def HwModel.counted (hw : HwModel) : Nat :=
  match hw.pc with
  | .writeData0 _ _ | .writeData1 _ _ | .writeStatus _ _ | .fetchAdd _ _ | .storeCount _ _ _ =>
    hw.log.length - 1
  | _ => hw.log.length

/-- `GetTelemetry` returns `n` as `irq_count`, at any time and for any id that names the
server's segment. -/
def HwModel.ReportsIrqCount (hw : HwModel) (n : UInt64) : Prop :=
  ∀ called now shm deviceId, 0 ≤ telemetryParseDeviceIndex deviceId →
    shm (telemetryParseDeviceIndex deviceId) = .mapped hw.seg →
    (getTelemetry called now shm deviceId).result.telemetry.map Telemetry.irqCount = some n

/-- The telemetry counts the commands of this server: none at first, in every state those
that the loop has counted, and never fewer than before (as long as the 64 bits of the count
are enough). -/
structure CountsOwnCommands (cfg : HwModelConfig) (startTimeSec : UInt64) (previous : Segment) :
    Prop where
  starts : (hwModelInit startTimeSec previous).ReportsIrqCount 0
  counts : ∀ hw, Reach (telemetrySystem cfg startTimeSec previous) (fun _ _ => True) hw →
    hw.ReportsIrqCount (UInt64.ofNat hw.counted)
  monotone : ∀ hw hw' n n', Reach (telemetrySystem cfg startTimeSec previous) (fun _ _ => True) hw →
    Reach ((telemetrySystem cfg startTimeSec previous).startedAt hw) (fun _ _ => True) hw' →
    hw'.counted < 2 ^ 64 → hw.ReportsIrqCount n → hw'.ReportsIrqCount n' → n ≤ n'

/-! ## What a step does to the count -/

variable {cfg : HwModelConfig} {hw hw' : HwModel} {n : UInt64} {t : UInt64} {previous : Segment}

theorem reportsIrqCount_iff : hw.ReportsIrqCount n ↔ hw.seg.stats.cmdCount = n := by
  constructor
  · intro h
    have hread := h 0 0 (fun _ => .mapped hw.seg) "accel/0".toList (by decide) rfl
    exact Option.some.inj hread
  · intro h called now shm deviceId hidx hseg
    rw [← h]
    simp only [getTelemetry, hidx, hseg, if_true, Option.map_some]
    rfl

/-- The stored count is that of the commands counted, and `StatsOk` says what comes next. -/
structure CountOk (hw : HwModel) : Prop where
  stored : hw.seg.stats.cmdCount = UInt64.ofNat hw.counted
  stats : StatsOk hw

theorem CountOk.pollLoop (h : CountOk hw) (hs : hw.pollLoopStep cfg = some hw') : CountOk hw' := by
  refine ⟨?_, statsOk_step h.stats hs⟩
  have hstored := h.stored
  have hstats := h.stats
  unfold HwModel.counted at hstored ⊢
  unfold StatsOk at hstats
  cases pollLoopStep_cases hs with
  | callHandler hp _ =>
    simp only [hp] at hstored ⊢
    rw [hstored, List.length_append, List.length_singleton, Nat.add_sub_cancel]
  | storeCount hp =>
    simp only [hp] at hstats ⊢
    exact hstats.2.2.trans hstats.2.1
  | writeReady hp hpc =>
    simp only [hp] at hstored
    rcases hpc with rfl | rfl <;> exact hstored
  | stay hp _ | leave hp _ | seen hp _ | unseen hp _ | readOpcode hp | readArg0 hp | readArg1 hp
  | writeData0 hp | writeData1 hp | writeStatus hp | fetchAdd hp | storeLastOpcode hp
  | storeLastStatus hp | clearStart hp | raiseIrq hp =>
    simp only [hp] at hstored ⊢
    exact hstored

theorem counted_pollLoop (hs : hw.pollLoopStep cfg = some hw') : hw.counted ≤ hw'.counted := by
  unfold HwModel.counted
  cases pollLoopStep_cases hs with
  | callHandler hp _ =>
    simp only [hp, List.length_append, List.length_singleton]
    exact Nat.le_refl _
  | storeCount hp =>
    simp only [hp]
    exact Nat.sub_le _ _
  | writeReady hp hpc =>
    simp only [hp]
    rcases hpc with rfl | rfl <;> exact Nat.le_refl _
  | stay hp _ | leave hp _ | seen hp _ | unseen hp _ | readOpcode hp | readArg0 hp | readArg1 hp
  | writeData0 hp | writeData1 hp | writeStatus hp | fetchAdd hp | storeLastOpcode hp
  | storeLastStatus hp | clearStart hp | raiseIrq hp =>
    simp only [hp]
    exact Nat.le_refl _

/-- Nobody looks at `fw_cmd_count`. -/
theorem CountOk.others (h : CountOk hw) {seg : Segment}
    (hseg : seg.stats = { hw.seg.stats with fwCmdCount := seg.stats.fwCmdCount }) :
    CountOk { hw with seg := seg } := by
  have hcount : seg.stats.cmdCount = hw.seg.stats.cmdCount := by rw [hseg]
  have hopcode : seg.stats.lastOpcode = hw.seg.stats.lastOpcode := by rw [hseg]
  have hstatus : seg.stats.lastResultStatus = hw.seg.stats.lastResultStatus := by rw [hseg]
  refine ⟨hcount.trans h.stored, ?_⟩
  have hstats := h.stats
  unfold StatsOk StatsMatch at hstats ⊢
  simp only [hcount, hopcode, hstatus]
  exact hstats

theorem run_of_exited (hs : telemetryStep cfg hw .run = some hw') :
    hw.pc = .exited ∧ hw' = { hw with pc := .loop, running := true } := by
  simp only [telemetryStep] at hs
  split at hs
  · next hp => exact ⟨hp, (Option.some.inj hs).symm⟩
  · cases hs

theorem CountOk.step (h : CountOk hw) {a : TelemetryAct} (hs : telemetryStep cfg hw a = some hw') :
    CountOk hw' := by
  cases a with
  | pollLoop => exact h.pollLoop hs
  | others seg =>
    simp only [telemetryStep] at hs
    split at hs
    · next hseg =>
      cases hs
      exact h.others hseg
    · cases hs
  | stop =>
    cases hs
    exact ⟨h.stored, h.stats.congr rfl rfl rfl rfl⟩
  | run =>
    obtain ⟨hp, rfl⟩ := run_of_exited hs
    have hmatch : StatsMatch hw := h.stats.statsMatch (by rw [hp]; rfl)
    exact ⟨hmatch.2.1, hmatch⟩

theorem counted_step {a : TelemetryAct} (hs : telemetryStep cfg hw a = some hw') :
    hw.counted ≤ hw'.counted := by
  cases a with
  | pollLoop => exact counted_pollLoop hs
  | others seg =>
    simp only [telemetryStep] at hs
    split at hs
    · cases hs
      exact Nat.le_refl _
    · cases hs
  | stop =>
    cases hs
    exact Nat.le_refl _
  | run =>
    obtain ⟨hp, rfl⟩ := run_of_exited hs
    simp only [HwModel.counted, hp]
    exact Nat.le_refl _

/-! ## Whole runs -/

theorem countOk_init (h : previous.stats.cmdCount = 0) : CountOk (hwModelInit t previous) :=
  ⟨h, rfl, h, fun _ hlast => nomatch hlast⟩

theorem reach_countOk (h : previous.stats.cmdCount = 0)
    (hreach : Reach (telemetrySystem cfg t previous) (fun _ _ => True) hw) : CountOk hw := by
  refine hreach.invariant (fun s h0 => ?_) fun _ _ _ hs _ hstep => hs.step hstep
  cases h0
  exact countOk_init h

/-- The telemetry counts the commands of the server that serves the segment exactly when the
segment held no count before. -/
theorem telemetry_counts_iff (cfg : HwModelConfig) (startTimeSec : UInt64) (previous : Segment) :
    CountsOwnCommands cfg startTimeSec previous ↔ previous.stats.cmdCount = 0 := by
  constructor
  · intro h
    exact reportsIrqCount_iff.mp h.starts
  · intro h
    refine ⟨reportsIrqCount_iff.mpr h, ?_, ?_⟩
    · intro hw hreach
      exact reportsIrqCount_iff.mpr (reach_countOk h hreach).stored
    · intro hw hw' n n' hreach hlater hlt hn hn'
      have hle : hw.counted ≤ hw'.counted :=
        hlater.after (P := fun s => hw.counted ≤ s.counted) (Nat.le_refl _)
          fun _ _ _ hs _ hstep => Nat.le_trans hs (counted_step hstep)
      rw [reportsIrqCount_iff, (reach_countOk h hreach).stored] at hn
      rw [reportsIrqCount_iff, (reach_countOk h (hreach.continues hlater)).stored] at hn'
      rw [← hn, ← hn', UInt64.le_iff_toNat_le, UInt64.toNat_ofNat_of_lt' hlt,
        UInt64.toNat_ofNat_of_lt' (Nat.lt_of_le_of_lt hle hlt)]
      exact hle

/-- A segment that a hw-model has left behind after five commands. -/
def leftBehind : Segment := Segment.zero.withStats fun st => { st with cmdCount := 5 }

/-- The next server starts with the count of the one before. -/
theorem telemetry_counts_previous :
    ¬∀ cfg startTimeSec previous, CountsOwnCommands cfg startTimeSec previous := by
  intro h
  have hstarts := (h {} 0 leftBehind).starts
  cases reportsIrqCount_iff.mp hstarts

end Deepspan
