import Deepspan.FirmwareSim.System

/-!
# What the firmware simulator prints

`Rest` says where the hw-model stands between two commands of the firmware, and `FirmwareOk` what holds
at each point of its program. `firmware_sim_results`: as long as no wait of the firmware runs out,
every result it prints is the reply to its own command, and both count the same commands.

When a wait does run out, START stays set and the next command is written over the one that is
being served. What is left then is `firmware_sim_at_most_once`: no START is served twice.
-/

namespace Deepspan

open Transition

/-! ## The hw-model as the firmware sees it -/

/-- The hw-model is between commands and has served `n` of them. -/
structure Rest (hw : HwModel) (n : Nat) : Prop where
  started : hw.seg.reg.started = false
  idle : hw.pc.inCommand = false
  length : hw.log.length = n

/-- Command number `n` is on its way, or answered. -/
structure Waiting (cmd : Cmd) (n : Nat) (hw : HwModel) : Prop where
  serving : Serving cmd n hw ∨ Served cmd n hw
  length : hw.log.length ≤ n + 1

variable {cfg : HwModelConfig} {hw hw' : HwModel} {cmd : Cmd} {n : Nat}

theorem Rest.device (h : Rest hw n) (hs : hw.pollLoopStep cfg = some hw') : Rest hw' n := by
  obtain ⟨hst, hidle, hlen⟩ := h
  cases pollLoopStep_cases hs with
  | stay _ _ | leave _ _ | unseen _ _ | raiseIrq _ => exact ⟨hst, rfl, hlen⟩
  | writeReady _ hpc => rcases hpc with rfl | rfl <;> exact ⟨hst, rfl, hlen⟩
  | seen _ hset =>
    rw [hst] at hset
    cases hset
  | callHandler hp _ => rw [hp] at hidle; cases hidle
  | readOpcode hp | readArg0 hp | readArg1 hp | writeData0 hp | writeData1 hp | writeStatus hp
  | fetchAdd hp | storeCount hp | storeLastOpcode hp | storeLastStatus hp | clearStart hp =>
    rw [hp] at hidle
    cases hidle

theorem Waiting.device (hheld : cmd.Held hw.seg) (h : Waiting cmd n hw)
    (hs : hw.pollLoopStep cfg = some hw') : Waiting cmd n hw' := by
  refine ⟨served_or_serving_step hheld h.serving hs, ?_⟩
  rcases log_step_cases hs with hlog | ⟨opcode, arg0, arg1, reply, hp, _, hlog⟩
  · rw [hlog]
    exact h.length
  · rcases h.serving with ⟨_, hserving⟩ | hserved
    · simp only [hp] at hserving
      rw [hlog, List.length_append, hserving.1]
      exact Nat.le_refl _
    · have hidle := hserved.idle
      rw [hp] at hidle
      cases hidle

/-- An answered command is the last one. -/
theorem Waiting.rest (h : Waiting cmd n hw) (hserved : Served cmd n hw) : Rest hw (n + 1) := by
  obtain ⟨inv, hinv, _⟩ := hserved.answered
  have hlt := (List.getElem?_eq_some_iff.mp hinv).1
  exact ⟨hserved.started, hserved.idle, Nat.le_antisymm h.length hlt⟩

theorem Waiting.served (h : Waiting cmd n hw) (hst : hw.seg.reg.started = false) :
    Served cmd n hw := by
  rcases h.serving with hserving | hserved
  · rw [hserving.1] at hst
    cases hst
  · exact hserved

/-- Of a new segment, what the firmware looks at has not changed. -/
structure SameView (hw hw' : HwModel) : Prop where
  cmd : SameCmd hw.seg hw'.seg
  started : hw'.seg.reg.started = hw.seg.reg.started
  result : hw'.seg.reg.result = hw.seg.reg.result
  pc : hw'.pc = hw.pc
  log : hw'.log = hw.log

theorem SameView.rest (h : SameView hw hw') (hrest : Rest hw n) : Rest hw' n :=
  ⟨h.started.trans hrest.started, h.pc ▸ hrest.idle, h.log ▸ hrest.length⟩

theorem SameView.served (h : SameView hw hw') (hserved : Served cmd n hw) : Served cmd n hw' :=
  ⟨h.started.trans hserved.started, h.pc ▸ hserved.idle, h.result ▸ h.log ▸ hserved.answered⟩

theorem SameView.serving (h : SameView hw hw') (hserving : Serving cmd n hw) : Serving cmd n hw' := by
  have hdata0 : hw'.seg.reg.resultData0 = hw.seg.reg.resultData0 := congrArg Reply.r0 h.result
  have hdata1 : hw'.seg.reg.resultData1 = hw.seg.reg.resultData1 := congrArg Reply.r1 h.result
  unfold Serving at hserving ⊢
  rw [h.started, h.pc, h.log, h.result, hdata0, hdata1]
  exact hserving

theorem SameView.waiting (h : SameView hw hw') (hwait : Waiting cmd n hw) : Waiting cmd n hw' :=
  ⟨hwait.serving.imp h.serving h.served, h.log ▸ hwait.length⟩

/-! ## The firmware's part of the invariant -/

/-- What the firmware prints first. -/
def hwBanner : UInt32 × UInt32 := (hwVersion, hwCapsDma ||| hwCapsIrq ||| hwCapsMulti)

/-- The firmware has counted its results, and told the hw-model's version. -/
structure FwSim.Counts (fw : FwSim) (st : ShmStats) : Prop where
  banner : fw.banner = some hwBanner
  count : fw.fwCount = UInt64.ofNat fw.results.length
  stored : st.fwCmdCount = fw.fwCount

/-- Nothing has been sent. -/
structure FwSim.Fresh (fw : FwSim) (hw : HwModel) : Prop where
  results : fw.results = []
  count : fw.fwCount = 0
  stored : hw.seg.stats.fwCmdCount = 0
  rest : Rest hw 0

/-- What holds at each point of the firmware. After a signal nothing more is claimed once the
firmware has given up its last command. -/
def FirmwareOk (hw : HwModel) (fw : FwSim) : Prop :=
  let n := fw.results.length
  let cmd := fwCmd fw.fwCount
  match fw.pc with
  | .shmOpen _ | .mmap | .loadStatus _ | .loadVersion => fw.Fresh hw
  | .loadCapabilities version => fw.Fresh hw ∧ (fw.running = true → version = hwVersion)
  | .loop => fw.running = true → fw.Counts hw.seg.stats ∧ Rest hw n
  | .writeOpcode => fw.Counts hw.seg.stats ∧ Rest hw n
  | .writeArg0 => (fw.Counts hw.seg.stats ∧ Rest hw n) ∧ hw.seg.reg.cmdOpcode = cmd.opcode
  | .writeArg1 =>
    (fw.Counts hw.seg.stats ∧ Rest hw n) ∧ hw.seg.reg.cmdOpcode = cmd.opcode ∧
    hw.seg.reg.cmdArg0 = cmd.arg0
  | .orStart => (fw.Counts hw.seg.stats ∧ Rest hw n) ∧ cmd.Held hw.seg
  | .poll _ => fw.Counts hw.seg.stats ∧ cmd.Held hw.seg ∧ Waiting cmd n hw
  | .readStatus => fw.Counts hw.seg.stats ∧ Rest hw (n + 1) ∧ Served cmd n hw
  | .readData0 rs =>
    (fw.Counts hw.seg.stats ∧ Rest hw (n + 1) ∧ Served cmd n hw) ∧ hw.seg.reg.resultStatus = rs
  | .readData1 rs r0 =>
    (fw.Counts hw.seg.stats ∧ Rest hw (n + 1) ∧ Served cmd n hw) ∧ hw.seg.reg.resultStatus = rs ∧
    hw.seg.reg.resultData0 = r0
  | .storeCount =>
    fw.running = true → fw.banner = some hwBanner ∧ fw.fwCount + 1 = UInt64.ofNat n ∧ Rest hw n
  | .returned _ | .crashed => True

variable {fw fw' : FwSim}

/-- What others have to keep for the firmware. -/
theorem FirmwareOk.frame (h : FirmwareOk hw fw)
    (hcount : hw'.seg.stats.fwCmdCount = hw.seg.stats.fwCmdCount) (hsame : SameCmd hw.seg hw'.seg)
    (hrest : ∀ {n : Nat}, Rest hw n → Rest hw' n)
    (hwait : ∀ {cmd : Cmd} {n : Nat}, cmd.Held hw.seg → Waiting cmd n hw → Waiting cmd n hw')
    (hserved : ∀ {cmd : Cmd} {n : Nat}, Served cmd n hw →
      Served cmd n hw' ∧ hw'.seg.reg.result = hw.seg.reg.result) : FirmwareOk hw' fw := by
  have hcounts (hc : fw.Counts hw.seg.stats) : fw.Counts hw'.seg.stats :=
    ⟨hc.banner, hc.count, hcount.trans hc.stored⟩
  have hfresh (hf : fw.Fresh hw) : fw.Fresh hw' :=
    ⟨hf.results, hf.count, hcount.trans hf.stored, hrest hf.rest⟩
  have hsent {n : Nat} (hc : fw.Counts hw.seg.stats ∧ Rest hw n) :
      fw.Counts hw'.seg.stats ∧ Rest hw' n := ⟨hcounts hc.1, hrest hc.2⟩
  have hanswered {n m : Nat} {cmd : Cmd}
      (hc : fw.Counts hw.seg.stats ∧ Rest hw m ∧ Served cmd n hw) :
      (fw.Counts hw'.seg.stats ∧ Rest hw' m ∧ Served cmd n hw') ∧
        hw'.seg.reg.result = hw.seg.reg.result :=
    ⟨⟨hcounts hc.1, hrest hc.2.1, (hserved hc.2.2).1⟩, (hserved hc.2.2).2⟩
  unfold FirmwareOk at h ⊢
  cases hp : fw.pc with
  | returned | crashed => trivial
  | shmOpen | mmap | loadStatus | loadVersion =>
    simp only [hp] at h ⊢
    exact hfresh h
  | loadCapabilities version =>
    simp only [hp] at h ⊢
    exact ⟨hfresh h.1, h.2⟩
  | loop =>
    simp only [hp] at h ⊢
    exact fun hrun => hsent (h hrun)
  | writeOpcode =>
    simp only [hp] at h ⊢
    exact hsent h
  | writeArg0 =>
    simp only [hp] at h ⊢
    exact ⟨hsent h.1, hsame.opcode.trans h.2⟩
  | writeArg1 =>
    simp only [hp] at h ⊢
    exact ⟨hsent h.1, hsame.opcode.trans h.2.1, hsame.arg0.trans h.2.2⟩
  | orStart =>
    simp only [hp] at h ⊢
    exact ⟨hsent h.1, h.2.of_same hsame⟩
  | poll t =>
    simp only [hp] at h ⊢
    exact ⟨hcounts h.1, h.2.1.of_same hsame, hwait h.2.1 h.2.2⟩
  | readStatus =>
    simp only [hp] at h ⊢
    exact (hanswered h).1
  | readData0 rs =>
    simp only [hp] at h ⊢
    obtain ⟨hans, hresult⟩ := hanswered h.1
    exact ⟨hans, (congrArg Reply.status hresult).trans h.2⟩
  | readData1 rs r0 =>
    simp only [hp] at h ⊢
    obtain ⟨hans, hresult⟩ := hanswered h.1
    exact ⟨hans, (congrArg Reply.status hresult).trans h.2.1,
      (congrArg Reply.r0 hresult).trans h.2.2⟩
  | storeCount =>
    simp only [hp] at h ⊢
    exact fun hrun => ⟨(h hrun).1, (h hrun).2.1, hrest (h hrun).2.2⟩

/-- Nobody but the firmware writes `fw_cmd_count`. -/
theorem fwCmdCount_step (hs : hw.pollLoopStep cfg = some hw') :
    hw'.seg.stats.fwCmdCount = hw.seg.stats.fwCmdCount := by
  cases pollLoopStep_cases hs <;> rfl

theorem FirmwareOk.device (h : FirmwareOk hw fw) (hs : hw.pollLoopStep cfg = some hw') : FirmwareOk hw' fw :=
  h.frame (fwCmdCount_step hs) (sameCmd_step hs) (fun hrest => hrest.device hs)
    (fun hheld hwait => hwait.device hheld hs)
    (fun hserved => ⟨served_step hserved hs, result_step_idle hserved.idle hs⟩)

theorem FirmwareOk.same (h : FirmwareOk hw fw) (hsame : SameView hw hw')
    (hcount : hw'.seg.stats.fwCmdCount = hw.seg.stats.fwCmdCount) : FirmwareOk hw' fw :=
  h.frame hcount hsame.cmd hsame.rest (fun _ => hsame.waiting)
    (fun hserved => ⟨hsame.served hserved, hsame.result⟩)

/-! ### A step of its own -/

/-- The registers that `init` sets and nobody changes. -/
structure SetUp (r : RegMap) : Prop where
  version : r.version = hwVersion
  capabilities : r.capabilities = hwCapsDma ||| hwCapsIrq ||| hwCapsMulti

/-- The firmware takes the registers to be set up. -/
def FwSim.relies (fw : FwSim) : Bool :=
  match fw.pc with
  | .shmOpen _ | .mmap | .loadStatus _ | .returned _ | .crashed => false
  | .loadVersion | .loadCapabilities _ | .loop | .storeCount => fw.running
  | _ => true

/-- The wait that the firmware is in has not run out. -/
def FwPc.belowLimit : FwPc → Bool
  | .loadStatus i => i < 20
  | .poll t => t < 2000
  | _ => true

theorem FwSim.Fresh.of_pc (h : fw.Fresh hw) (pc : FwPc) : { fw with pc := pc }.Fresh hw :=
  ⟨h.results, h.count, h.stored, h.rest⟩

theorem FwSim.Counts.of_pc {st : ShmStats} (h : fw.Counts st) (pc : FwPc) (mark : Nat) :
    { fw with pc := pc, mark := mark }.Counts st :=
  ⟨h.banner, h.count, h.stored⟩

theorem Rest.of_seg {seg : Segment} (h : Rest hw n) (hst : seg.reg.started = hw.seg.reg.started) :
    Rest { hw with seg := seg } n :=
  ⟨hst.trans h.started, h.idle, h.length⟩

theorem FirmwareOk.exec {linked sized : Bool} {seg' : Segment} (h : FirmwareOk hw fw)
    (hset : fw.relies = true → SetUp hw.seg.reg) (hlimit : fw.pc.belowLimit = true)
    (hs : FwStep linked sized hw fw fw' seg') : FirmwareOk { hw with seg := seg' } fw' := by
  unfold FirmwareOk at h
  cases hs with
  | opened hp | retried hp | mmap hp | ready hp _ | notReady hp | notAwaited hp _ =>
    simp only [hp] at h
    exact h.of_pc _
  | notOpened _ | crashed _ | leave _ _ => trivial
  | loadVersion hp =>
    simp only [hp] at h
    refine ⟨h.of_pc _, fun hrun => (hset ?_).version⟩
    simp only [FwSim.relies, hp]
    exact hrun
  | loadCapabilities hp =>
    simp only [hp] at h
    intro hrun
    obtain ⟨hfresh, hversion⟩ := h
    have hcaps := (hset (by simp only [FwSim.relies, hp]; exact hrun)).capabilities
    refine ⟨⟨?_, ?_, hfresh.stored.trans hfresh.count.symm⟩, ?_⟩
    · simp only [hversion hrun, hcaps, hwBanner]
    · simp only [hfresh.results, hfresh.count]
      rfl
    · simp only [hfresh.results]
      exact hfresh.rest
  | again hp hrun =>
    simp only [hp] at h
    exact ⟨(h hrun).1.of_pc _ _, (h hrun).2⟩
  | writeOpcode hp =>
    simp only [hp] at h
    exact ⟨⟨h.1.of_pc _ _, h.2.of_seg rfl⟩, rfl⟩
  | writeArg0 hp =>
    simp only [hp] at h
    exact ⟨⟨h.1.1.of_pc _ _, h.1.2.of_seg rfl⟩, h.2, rfl⟩
  | writeArg1 hp =>
    simp only [hp] at h
    exact ⟨⟨h.1.1.of_pc _ _, h.1.2.of_seg rfl⟩, h.2.1, h.2.2, rfl, holdsDma_nil _⟩
  | orStart hp =>
    simp only [hp] at h
    obtain ⟨⟨hcounts, hrest⟩, hheld⟩ := h
    have hfree : hw.pc.midCommand = false := by
      rw [PollPc.midCommand, hrest.idle]
      rfl
    have hserving : Serving (fwCmd fw.fwCount) hw.log.length { hw with
        seg := hw.seg.withReg fun r => { r with ctrl := r.ctrl ||| CtrlBits.start } } :=
      serving_of_start (started_or_start ..) hfree
    rw [hrest.length] at hserving
    refine ⟨hcounts.of_pc _ _, ⟨hheld.opcode, hheld.arg0, hheld.arg1, holdsDma_nil _⟩,
      .inl hserving, ?_⟩
    exact Nat.le_trans (Nat.le_of_eq hrest.length) (Nat.le_succ _)
  | pollSet hp _ =>
    simp only [hp] at h
    exact ⟨h.1.of_pc _ _, h.2⟩
  | pollClear hp hst =>
    simp only [hp] at h
    obtain ⟨hcounts, _, hwait⟩ := h
    have hserved := hwait.served hst
    exact ⟨hcounts.of_pc _ _, hwait.rest hserved, hserved⟩
  | timedOut hp hout =>
    rw [hp] at hlimit
    intro hrun
    rcases hout with hout | hout
    · exact absurd (of_decide_eq_true hlimit) hout
    · cases hrun.symm.trans hout
  | readStatus hp =>
    simp only [hp] at h
    exact ⟨⟨h.1.of_pc _ _, h.2⟩, rfl⟩
  | readData0 hp =>
    simp only [hp] at h
    exact ⟨⟨h.1.1.of_pc _ _, h.1.2⟩, h.2, rfl⟩
  | readData1 hp =>
    simp only [hp] at h
    intro _
    refine ⟨h.1.1.banner, ?_, ?_⟩
    · simp only [h.1.1.count, List.length_append, List.length_singleton, UInt64.ofNat_add]
      rfl
    · simp only [List.length_append, List.length_singleton]
      exact h.1.2.1
  | storeCount hp =>
    simp only [hp] at h
    intro hrun
    obtain ⟨hbanner, hcount, hrest⟩ := h hrun
    exact ⟨⟨hbanner, hcount, rfl⟩, hrest.of_seg rfl⟩

/-! ## The results -/

/-- Result number `k` is the reply of invocation number `k`, made for command number `k`. -/
def ResultsOk (log : List Invocation) (results : List (UInt64 × Reply)) : Prop :=
  ∀ k label reply, results[k]? = some (label, reply) →
    label = UInt64.ofNat k ∧ Answered (fwCmd label) k log reply

theorem ResultsOk.append {log : List Invocation} {results : List (UInt64 × Reply)}
    (h : ResultsOk log results) (l : List Invocation) : ResultsOk (log ++ l) results := by
  intro k label reply hk
  obtain ⟨hlabel, hans⟩ := h k label reply hk
  exact ⟨hlabel, hans.append l⟩

theorem ResultsOk.exec {linked sized : Bool} {seg' : Segment} (h : ResultsOk hw.log fw.results)
    (hfw : FirmwareOk hw fw) (hs : FwStep linked sized hw fw fw' seg') : ResultsOk hw.log fw'.results := by
  cases hs with
  | @readData1 rs r0 hp =>
    unfold FirmwareOk at hfw
    simp only [hp] at hfw
    obtain ⟨⟨hcounts, _, hserved⟩, rfl, rfl⟩ := hfw
    intro k label reply hk
    rcases getElem?_concat_cases hk with hk | ⟨rfl, heq⟩
    · exact h k label reply hk
    · cases heq
      exact ⟨hcounts.count, hserved.answered⟩
  | _ => exact h

/-- The first result comes after the banner. -/
theorem banner_exec {linked sized : Bool} {seg' : Segment} (hfw : FirmwareOk hw fw)
    (h : fw.results ≠ [] → fw.banner = some hwBanner) (hs : FwStep linked sized hw fw fw' seg') :
    fw'.results ≠ [] → fw'.banner = some hwBanner := by
  unfold FirmwareOk at hfw
  cases hs with
  | loadCapabilities hp =>
    simp only [hp] at hfw
    exact fun hne => absurd hfw.1.results hne
  | readData1 hp =>
    simp only [hp] at hfw
    exact fun _ => hfw.1.1.banner
  | _ => exact h

/-! ## Both processes -/

/-- `init` has not yet written READY. -/
def BootPc.early : BootPc → Bool
  | .shmOpen | .ftruncate | .mmap | .memset | .writeVersion | .writeCapabilities
  | .writeStatus => true
  | .eventfd | .storeStartTime | .storeReady | .run | .pollLoop | .gone => false

/-- The registers of a new segment at each point of `init`: READY is the last of them. -/
def BootOk (boot : BootPc) (r : RegMap) : Prop :=
  match boot with
  | .shmOpen | .ftruncate | .mmap | .memset | .writeVersion => r.status = 0
  | .writeCapabilities => r.status = 0 ∧ r.version = hwVersion
  | .writeStatus => r.status = 0 ∧ SetUp r
  | .eventfd | .storeStartTime | .storeReady | .run | .pollLoop => SetUp r
  | .gone => r.status = 0 ∨ SetUp r

/-- Whoever sees READY finds the registers set up. -/
theorem BootOk.ready {boot : BootPc} {r : RegMap} (h : BootOk boot r)
    (hready : r.status &&& StatusBits.ready ≠ 0) : boot.early = false ∧ SetUp r := by
  have hnot (h0 : r.status = 0) : False := by
    rw [h0] at hready
    exact hready (by decide)
  unfold BootOk at h
  cases boot with
  | shmOpen | ftruncate | mmap | memset | writeVersion => exact (hnot h).elim
  | writeCapabilities | writeStatus => exact (hnot h.1).elim
  | eventfd | storeStartTime | storeReady | run | pollLoop => exact ⟨rfl, h⟩
  | gone => exact ⟨rfl, h.resolve_left hnot⟩

/-- Only the registers that `init` sets count. -/
theorem BootOk.congr {boot : BootPc} {r r' : RegMap} (h : BootOk boot r)
    (hstatus : r'.status = r.status) (hversion : r'.version = r.version)
    (hcaps : r'.capabilities = r.capabilities) : BootOk boot r' := by
  have hset (hs : SetUp r) : SetUp r' := ⟨hversion.trans hs.version, hcaps.trans hs.capabilities⟩
  unfold BootOk at h ⊢
  cases boot with
  | shmOpen | ftruncate | mmap | memset | writeVersion => exact hstatus.trans h
  | writeCapabilities => exact ⟨hstatus.trans h.1, hversion.trans h.2⟩
  | writeStatus => exact ⟨hstatus.trans h.1, hset h.2⟩
  | eventfd | storeStartTime | storeReady | run | pollLoop => exact hset h
  | gone => exact h.imp hstatus.trans hset

/-- The loop leaves the registers set up. -/
theorem SetUp.device (h : SetUp hw.seg.reg) (hs : hw.pollLoopStep cfg = some hw') :
    SetUp hw'.seg.reg := by
  cases pollLoopStep_cases hs <;> exact ⟨h.version, h.capabilities⟩

theorem SetUp.exec {linked sized : Bool} {seg' : Segment} (h : SetUp hw.seg.reg)
    (hs : FwStep linked sized hw fw fw' seg') : SetUp seg'.reg := by
  cases hs <;> exact ⟨h.version, h.capabilities⟩

theorem BootOk.exec {boot : BootPc} {linked sized : Bool} {seg' : Segment}
    (h : BootOk boot hw.seg.reg) (hs : FwStep linked sized hw fw fw' seg') :
    BootOk boot seg'.reg := by
  cases hs <;> exact h.congr rfl rfl rfl

/-- Only the words that the loop writes count. -/
theorem StatsOk.of_words (h : StatsOk hw) (hpc : hw'.pc = hw.pc) (hc : hw'.cmdCount = hw.cmdCount)
    (hl : hw'.log = hw.log) (hcount : hw'.seg.stats.cmdCount = hw.seg.stats.cmdCount)
    (hop : hw'.seg.stats.lastOpcode = hw.seg.stats.lastOpcode)
    (hst : hw'.seg.stats.lastResultStatus = hw.seg.stats.lastResultStatus) : StatsOk hw' := by
  unfold StatsOk StatsMatch at h ⊢
  rw [hpc, hc, hl, hcount, hop, hst]
  exact h

theorem StatsOk.fwExec {linked sized : Bool} {seg' : Segment} (h : StatsOk hw)
    (hs : FwStep linked sized hw fw fw' seg') : StatsOk { hw with seg := seg' } := by
  cases hs <;> exact h.of_words rfl rfl rfl rfl rfl rfl

/-- The invariant of runs in which no wait runs out. -/
structure FwInv (s : FwSimState) : Prop where
  boot : BootOk s.boot s.hw.seg.reg
  relies : s.fw.relies = true → s.boot.early = false ∧ SetUp s.hw.seg.reg
  stats : StatsOk s.hw
  fw : FirmwareOk s.hw s.fw
  results : ResultsOk s.hw.log s.fw.results
  told : s.fw.results ≠ [] → s.fw.banner = some hwBanner

/-- A firmware that does not rely on the registers does not mind that they are cleared. -/
theorem FirmwareOk.cleared (h : FirmwareOk hw fw) (hnot : fw.relies = false) {seg : Segment}
    (hst : seg.reg.started = false) (hcount : seg.stats.fwCmdCount = hw.seg.stats.fwCmdCount) :
    FirmwareOk { hw with seg := seg } fw := by
  have hfresh (hf : fw.Fresh hw) : fw.Fresh { hw with seg := seg } :=
    ⟨hf.results, hf.count, hcount.trans hf.stored, hst, hf.rest.idle, hf.rest.length⟩
  unfold FwSim.relies at hnot
  unfold FirmwareOk at h ⊢
  cases hp : fw.pc with
  | shmOpen | mmap | loadStatus | loadVersion =>
    simp only [hp] at h ⊢
    exact hfresh h
  | loadCapabilities =>
    simp only [hp] at h ⊢
    exact ⟨hfresh h.1, h.2⟩
  | loop | storeCount =>
    simp only [hp] at hnot ⊢
    rw [hnot]
    exact fun hrun => by cases hrun
  | returned | crashed => trivial
  | _ => simp only [hp] at hnot; cases hnot

/-- A firmware comes to rely on the registers by having seen READY. -/
theorem relies_exec {linked sized : Bool} {seg' : Segment} (hlimit : fw.pc.belowLimit = true)
    (hs : FwStep linked sized hw fw fw' seg') (hr : fw'.relies = true) :
    fw.relies = true ∨ hw.seg.reg.status &&& StatusBits.ready ≠ 0 := by
  cases hs with
  | ready _ hready => exact .inr hready
  | notAwaited hp hout =>
    rw [hp] at hlimit
    rcases hout with hout | hout
    · exact absurd (of_decide_eq_true hlimit) hout
    · cases hr.symm.trans hout
  | opened _ | retried _ | notOpened _ | mmap _ | notReady _ | crashed _ | leave _ _ => cases hr
  | again hp hrun =>
    simp only [FwSim.relies, hp]
    exact .inl hrun
  | loadVersion hp | loadCapabilities hp | storeCount hp =>
    simp only [FwSim.relies, hp]
    exact .inl hr
  | pollSet hp _ | pollClear hp _ | timedOut hp _ =>
    simp only [FwSim.relies, hp]
    exact .inl trivial
  | writeOpcode hp | writeArg0 hp | writeArg1 hp | orStart hp | readStatus hp | readData0 hp
  | readData1 hp =>
    simp only [FwSim.relies, hp]
    exact .inl trivial

theorem relies_signal : { fw with running := false }.relies = true → fw.relies = true := by
  unfold FwSim.relies
  cases fw.pc with
  | loadVersion | loadCapabilities | loop | storeCount => exact fun hr => by cases hr
  | _ => exact id

theorem FirmwareOk.signal (h : FirmwareOk hw fw) : FirmwareOk hw { fw with running := false } := by
  have hcounts {st : ShmStats} {pc : FwPc} (hc : fw.Counts st) :
      { fw with pc := pc, running := false }.Counts st :=
    ⟨hc.banner, hc.count, hc.stored⟩
  have hfresh {pc : FwPc} (hf : fw.Fresh hw) : { fw with pc := pc, running := false }.Fresh hw :=
    ⟨hf.results, hf.count, hf.stored, hf.rest⟩
  unfold FirmwareOk at h ⊢
  cases hp : fw.pc with
  | shmOpen | mmap | loadStatus | loadVersion =>
    simp only [hp] at h ⊢
    exact hfresh h
  | loadCapabilities =>
    simp only [hp] at h ⊢
    exact ⟨hfresh h.1, fun hrun => by cases hrun⟩
  | loop | storeCount => exact fun hrun => by cases hrun
  | writeOpcode | poll | readStatus =>
    simp only [hp] at h ⊢
    exact ⟨hcounts h.1, h.2⟩
  | writeArg0 | writeArg1 | orStart | readData0 | readData1 =>
    simp only [hp] at h ⊢
    exact ⟨⟨hcounts h.1.1, h.1.2⟩, h.2⟩
  | returned | crashed => trivial

variable {s s' : FwSimState} {a : FwSimAct} {startTimeSec : UInt64}

/-- A change of the segment that the firmware does not see, and that leaves alone what `init` has
set up. -/
theorem FwInv.seg (h : FwInv s) {boot : BootPc} {linked sized : Bool} {hw' : HwModel}
    (hboot : BootOk boot hw'.seg.reg)
    (hearly : s.boot.early = false → SetUp s.hw.seg.reg → boot.early = false ∧ SetUp hw'.seg.reg)
    (hsame : SameView s.hw hw') (hcount : hw'.seg.stats.fwCmdCount = s.hw.seg.stats.fwCmdCount)
    (hstats : StatsOk hw') : FwInv ⟨boot, linked, sized, hw', s.fw⟩ where
  boot := hboot
  relies hr := hearly (h.relies hr).1 (h.relies hr).2
  stats := hstats
  fw := h.fw.same hsame hcount
  results := by
    have hlog : hw'.log = s.hw.log := hsame.log
    rw [hlog]
    exact h.results
  told := h.told

theorem fwInv_init (h : FwInv s) (hs : s.init startTimeSec = some s') : FwInv s' := by
  have hboot := h.boot
  have hrefl : SameView s.hw s.hw := ⟨⟨rfl, rfl, rfl, rfl, rfl⟩, rfl, rfl, rfl, rfl⟩
  have hlate {boot : BootPc} (hb : boot.early = false) {r : RegMap} (hr : SetUp s.hw.seg.reg → SetUp r)
      (_ : s.boot.early = false) (hset : SetUp s.hw.seg.reg) : boot.early = false ∧ SetUp r :=
    ⟨hb, hr hset⟩
  have hnever {P : Prop} (hb : s.boot.early = true) (he : s.boot.early = false)
      (_ : SetUp s.hw.seg.reg) : P := by
    cases hb.symm.trans he
  unfold FwSimState.init at hs
  cases hp : s.boot with
  | shmOpen =>
    simp only [hp] at hs hboot
    cases hs
    exact h.seg hboot (hnever (by rw [hp]; rfl)) hrefl rfl h.stats
  | ftruncate =>
    simp only [hp] at hs hboot
    cases hs
    exact h.seg hboot (hnever (by rw [hp]; rfl)) hrefl rfl h.stats
  | mmap =>
    simp only [hp] at hs hboot
    cases hs
    exact h.seg hboot (hnever (by rw [hp]; rfl)) hrefl rfl h.stats
  | memset =>
    simp only [hp] at hs
    cases hs
    -- nobody relies on the registers yet
    have hnot : s.fw.relies = false := by
      cases hr : s.fw.relies with
      | false => rfl
      | true =>
        have he := (h.relies hr).1
        rw [hp] at he
        cases he
    have hclear : RegMap.zero.started = false := by decide
    refine ⟨rfl, fun hr => ?_, h.stats.of_words rfl rfl rfl rfl rfl rfl,
      h.fw.cleared hnot hclear rfl, h.results, h.told⟩
    cases hnot.symm.trans hr
  | writeVersion =>
    simp only [hp] at hs hboot
    cases hs
    exact h.seg ⟨hboot, rfl⟩ (hnever (by rw [hp]; rfl)) ⟨⟨rfl, rfl, rfl, rfl, rfl⟩, rfl, rfl, rfl, rfl⟩
      rfl (h.stats.of_words rfl rfl rfl rfl rfl rfl)
  | writeCapabilities =>
    simp only [hp] at hs hboot
    cases hs
    exact h.seg ⟨hboot.1, hboot.2, rfl⟩ (hnever (by rw [hp]; rfl))
      ⟨⟨rfl, rfl, rfl, rfl, rfl⟩, rfl, rfl, rfl, rfl⟩ rfl (h.stats.of_words rfl rfl rfl rfl rfl rfl)
  | writeStatus =>
    simp only [hp] at hs hboot
    cases hs
    exact h.seg ⟨hboot.2.version, hboot.2.capabilities⟩ (hnever (by rw [hp]; rfl))
      ⟨⟨rfl, rfl, rfl, rfl, rfl⟩, rfl, rfl, rfl, rfl⟩ rfl (h.stats.of_words rfl rfl rfl rfl rfl rfl)
  | eventfd =>
    simp only [hp] at hs hboot
    cases hs
    exact h.seg hboot (hlate rfl id) hrefl rfl h.stats
  | storeStartTime =>
    simp only [hp] at hs hboot
    cases hs
    exact h.seg hboot (hlate rfl id) ⟨⟨rfl, rfl, rfl, rfl, rfl⟩, rfl, rfl, rfl, rfl⟩ rfl
      (h.stats.of_words rfl rfl rfl rfl rfl rfl)
  | storeReady =>
    simp only [hp] at hs hboot
    cases hs
    exact h.seg ⟨hboot.version, hboot.capabilities⟩
      (hlate rfl fun hset => ⟨hset.version, hset.capabilities⟩)
      ⟨⟨rfl, rfl, rfl, rfl, rfl⟩, rfl, rfl, rfl, rfl⟩ rfl (h.stats.of_words rfl rfl rfl rfl rfl rfl)
  | run =>
    simp only [hp] at hs hboot
    cases hs
    exact h.seg hboot (hlate rfl id) ⟨⟨rfl, rfl, rfl, rfl, rfl⟩, rfl, rfl, rfl, rfl⟩ rfl
      (h.stats.of_words rfl rfl rfl rfl rfl rfl)
  | pollLoop | gone => simp only [hp] at hs; cases hs

theorem fwInv_step (h : FwInv s) (hwait : waitsSuffice s a = true)
    (hs : s.step cfg startTimeSec a = some s') : FwInv s' := by
  have hrefl : SameView s.hw s.hw := ⟨⟨rfl, rfl, rfl, rfl, rfl⟩, rfl, rfl, rfl, rfl⟩
  cases a with
  | init => exact fwInv_init h hs
  | initFails =>
    have hboot := h.boot
    simp only [FwSimState.step, FwSimState.initFails] at hs
    cases hp : s.boot with
    | shmOpen | ftruncate | mmap =>
      simp only [hp] at hs hboot
      cases hs
      exact h.seg (.inl hboot) (fun _ hset => ⟨rfl, hset⟩) hrefl rfl h.stats
    | eventfd =>
      simp only [hp] at hs hboot
      cases hs
      exact h.seg (.inr hboot) (fun _ hset => ⟨rfl, hset⟩) hrefl rfl h.stats
    | _ => simp only [hp] at hs; cases hs
  | device =>
    simp only [FwSimState.step] at hs
    split at hs
    · next hp =>
      obtain ⟨hw', hdev, rfl⟩ := Option.map_eq_some_iff.mp hs
      have hboot := h.boot
      rw [hp] at hboot
      have hset := SetUp.device hboot hdev
      refine ⟨?_, fun _ => ⟨?_, hset⟩, statsOk_step h.stats hdev, h.fw.device hdev, ?_, h.told⟩
      · rw [hp]
        exact hset
      · rw [hp]
        rfl
      · obtain ⟨l, hl⟩ := log_step hdev
        rw [hl]
        exact h.results.append l
    · cases hs
  | stop =>
    cases hs
    exact h.seg h.boot (fun he hset => ⟨he, hset⟩) ⟨⟨rfl, rfl, rfl, rfl, rfl⟩, rfl, rfl, rfl, rfl⟩ rfl
      (h.stats.of_words rfl rfl rfl rfl rfl rfl)
  | hwReturns =>
    simp only [FwSimState.step] at hs
    split at hs
    · next hp =>
      cases hs
      have hboot := h.boot
      rw [hp.1] at hboot
      exact h.seg (.inr hboot) (fun _ hset => ⟨rfl, hset⟩) hrefl rfl h.stats
    · cases hs
  | fw =>
    obtain ⟨⟨fw', seg'⟩, hexec, rfl⟩ := Option.map_eq_some_iff.mp hs
    have hstep := fwExec_cases hexec
    have hlimit : s.fw.pc.belowLimit = true := by
      simp only [waitsSuffice] at hwait
      unfold FwPc.belowLimit
      exact hwait
    refine ⟨h.boot.exec hstep, fun hr => ?_, h.stats.fwExec hstep,
      h.fw.exec (fun hr => (h.relies hr).2) hlimit hstep, h.results.exec h.fw hstep,
      banner_exec h.fw h.told hstep⟩
    rcases relies_exec hlimit hstep hr with hr | hready
    · exact ⟨(h.relies hr).1, (h.relies hr).2.exec hstep⟩
    · exact ⟨(h.boot.ready hready).1, (h.boot.ready hready).2.exec hstep⟩
  | fwMmapFails =>
    simp only [FwSimState.step] at hs
    split at hs
    · cases hs
      exact ⟨h.boot, (fun hr => by cases hr), h.stats, trivial, h.results, h.told⟩
    · cases hs
  | signal =>
    cases hs
    exact ⟨h.boot, fun hr => h.relies (relies_signal hr), h.stats, h.fw.signal, h.results, h.told⟩
  | resetDevice =>
    cases hs
    exact h.seg (h.boot.congr rfl rfl rfl) (fun he hset => ⟨he, hset.version, hset.capabilities⟩)
      ⟨⟨rfl, rfl, rfl, rfl, rfl⟩, started_or_reset _, rfl, rfl, rfl⟩ rfl
      (h.stats.of_words rfl rfl rfl rfl rfl rfl)

theorem reach_fwInv (h : Reach (fwSimSystem cfg startTimeSec none)
    (fun s a => waitsSuffice s a = true) s) : FwInv s := by
  refine h.invariant ?_ fun s a s' hinv hg hs => fwInv_step hinv hg hs
  rintro s rfl
  refine ⟨rfl, (fun hr => by cases hr), ⟨rfl, rfl, fun inv hinv => by cases hinv⟩,
    ⟨rfl, rfl, rfl, rfl, rfl, rfl⟩, ?_, fun hne => absurd rfl hne⟩
  intro k label reply hk
  cases hk

/-- On a new segment, and as long as no wait of the firmware runs out: every result that the
firmware prints is the reply of the handler invocation made for the command of the same number, it
has printed the version and the capabilities of the hw-model before it, and each time it is about to
send a command it and the hw-model have counted the same number of commands. -/
theorem firmware_sim_results (h : Reach (fwSimSystem cfg startTimeSec none)
      (fun s a => waitsSuffice s a = true) s) :
    (∀ k label reply, s.fw.results[k]? = some (label, reply) → label = UInt64.ofNat k ∧
      ∃ inv, s.hw.log[k]? = some inv ∧ inv.For (fwCmd label) ∧ inv.reply = reply) ∧
    (s.fw.results ≠ [] → s.fw.banner = some hwBanner) ∧
    (s.fw.pc = .loop → s.fw.running = true →
      s.hw.seg.stats.fwCmdCount = UInt64.ofNat s.fw.results.length ∧
      s.hw.seg.stats.cmdCount = s.hw.seg.stats.fwCmdCount) := by
  have hinv := reach_fwInv h
  refine ⟨hinv.results, hinv.told, fun hp hrun => ?_⟩
  have hfw := hinv.fw
  unfold FirmwareOk at hfw
  simp only [hp] at hfw
  obtain ⟨hcounts, hrest⟩ := hfw hrun
  have hstored := hcounts.stored.trans hcounts.count
  have hmatch := (hinv.stats.statsMatch hrest.idle).2.1
  rw [hrest.length] at hmatch
  exact ⟨hstored, hmatch.trans hstored.symm⟩

/-- The firmware is started first and finds the segment before it is ready; one command. -/
def oneEcho : List FwSimAct :=
  schedule [(2, .init), (4, .fw), (9, .init), (9, .fw), (14, .device), (5, .fw)]

theorem oneEcho_ends :
    (replay (fwSimSystem {} 1700000000 none) waitsSuffice (.initial none) oneEcho).map
      (fun s => (s.fw.pc, s.fw.running, s.fw.results)) =
    some (.loop, true, [(0, ⟨0, 0xDEAD0000, 0⟩)]) := by
  decide

/-- With the default handler, the first result is the echo of the first command. -/
theorem firmware_sim_results_echo : ∃ s,
    Reach (fwSimSystem {} 1700000000 none) (fun s a => waitsSuffice s a = true) s ∧
    s.fw.results = [(0, ⟨0, 0xDEAD0000, 0⟩)] ∧ s.fw.banner = some hwBanner ∧
    s.hw.seg.stats.cmdCount = s.hw.seg.stats.fwCmdCount ∧
    ∃ inv, s.hw.log[0]? = some inv ∧ inv.For (fwCmd 0) ∧ inv.reply = ⟨0, 0xDEAD0000, 0⟩ := by
  obtain ⟨s, hrun, hs⟩ := Option.map_eq_some_iff.mp oneEcho_ends
  obtain ⟨hpc, hs⟩ := Prod.mk.inj hs
  obtain ⟨hrunning, hresults⟩ := Prod.mk.inj hs
  have hreach : Reach (fwSimSystem {} 1700000000 none) (fun s a => waitsSuffice s a = true) s :=
    replay_reach (fun _ _ h => h) (.init rfl) hrun
  obtain ⟨hall, hbanner, hcounts⟩ := firmware_sim_results hreach
  refine ⟨s, hreach, hresults, hbanner (by rw [hresults]; exact List.cons_ne_nil _ _),
    (hcounts hpc hrunning).2, ?_⟩
  exact (hall 0 0 ⟨0, 0xDEAD0000, 0⟩ (by rw [hresults]; rfl)).2

/-! ## When waits run out -/

/-- The loop has seen START and has not yet called the handler for it. -/
def PollPc.fetching : PollPc → Bool
  | .readOpcode | .readArg0 _ | .readArg1 _ _ | .callHandler _ _ _ => true
  | _ => false

/-- The loop has called the handler and has not yet cleared START. -/
def PollPc.replying : PollPc → Bool
  | .writeData0 _ _ | .writeData1 _ _ | .writeStatus _ _ | .fetchAdd _ _ | .storeCount _ _ _
  | .storeLastOpcode _ _ | .storeLastStatus _ | .clearStart => true
  | _ => false

/-- The invocation that is still to come without a further START. -/
def HwModel.pending (hw : HwModel) : Nat :=
  if hw.pc.fetching || (hw.seg.reg.started && !hw.pc.replying) then 1 else 0

theorem pending_le (hw : HwModel) : hw.pending ≤ 1 := by
  unfold HwModel.pending
  split
  · exact Nat.le_refl 1
  · exact Nat.zero_le 1

/-- An invocation uses up a pending one, and no step of the loop adds one. -/
theorem pending_device (hs : hw.pollLoopStep cfg = some hw') :
    hw'.log.length + hw'.pending ≤ hw.log.length + hw.pending := by
  unfold HwModel.pending
  cases pollLoopStep_cases hs with
  | callHandler hp _ =>
    simp only [hp, PollPc.fetching, PollPc.replying, List.length_append, List.length_singleton,
      Bool.not_true, Bool.and_false, Bool.or_false, Bool.true_or, Bool.false_eq_true, if_true,
      if_false]
    exact Nat.le_refl _
  | seen hp hst =>
    simp only [hp, hst, PollPc.fetching, PollPc.replying]
    exact Nat.le_refl _
  | clearStart hp =>
    have hclear : (hw.seg.withReg fun r => { r with ctrl := r.ctrl &&& ~~~CtrlBits.start }).reg.started
        = false := started_and_not_start ..
    simp only [hp, hclear, PollPc.fetching, PollPc.replying]
    exact Nat.le_add_right _ _
  | writeReady hp hpc =>
    rcases hpc with rfl | rfl <;>
      simp only [hp, PollPc.fetching, PollPc.replying] <;> exact Nat.le_refl _
  | stay hp _ | leave hp _ | unseen hp _ =>
    simp only [hp, PollPc.fetching, PollPc.replying]
    exact Nat.le_refl _
  | readOpcode hp | readArg0 hp | readArg1 hp | writeData0 hp | writeData1 hp | writeStatus hp
  | fetchAdd hp | storeCount hp | storeLastOpcode hp | storeLastStatus hp | raiseIrq hp =>
    simp only [hp, PollPc.fetching, PollPc.replying]
    exact Nat.le_refl _

/-- The commands that the firmware is done with, answered or not. -/
def FwSim.finished (fw : FwSim) : Nat := fw.results.length + fw.warnings.length

/-- The firmware has set START and is not yet done with its command. -/
def FwPc.awaiting : FwPc → Bool
  | .poll _ | .readStatus | .readData0 _ | .readData1 _ _ => true
  | _ => false

/-- How often the firmware has set START. -/
def FwSim.sent (fw : FwSim) : Nat := fw.finished + if fw.pc.awaiting then 1 else 0

theorem pending_exec {linked sized : Bool} {seg' : Segment}
    (hs : FwStep linked sized hw fw fw' seg') (h : hw.log.length + hw.pending ≤ fw.sent) :
    hw.log.length + { hw with seg := seg' }.pending ≤ fw'.sent := by
  unfold FwSim.sent FwSim.finished at h ⊢
  cases hs with
  | orStart hp =>
    simp only [hp, FwPc.awaiting, Bool.false_eq_true, if_false, if_true] at h ⊢
    have hlog := Nat.le_trans (Nat.le_add_right _ _) h
    exact Nat.add_le_add hlog (pending_le _)
  | readData1 hp =>
    simp only [hp, FwPc.awaiting, if_true, List.length_append, List.length_singleton] at h ⊢
    exact Nat.le_trans h (by omega)
  | timedOut hp _ =>
    simp only [hp, FwPc.awaiting, if_true, List.length_append, List.length_singleton] at h ⊢
    exact h
  | crashed hp =>
    rcases hp with hp | ⟨i, hp⟩ <;> simp only [hp, FwPc.awaiting] at h <;> exact h
  | ready hp _ | notAwaited hp _ | again hp _ | leave hp _ | pollSet hp _ | pollClear hp _ =>
    simp only [hp, FwPc.awaiting] at h
    exact h
  | opened hp | retried hp | notOpened hp | mmap hp | notReady hp | loadVersion hp
  | loadCapabilities hp | writeOpcode hp | writeArg0 hp | writeArg1 hp | readStatus hp
  | readData0 hp | storeCount hp =>
    simp only [hp, FwPc.awaiting] at h
    exact h

/-- What `fw_count` is at each point. -/
def FwSim.CountOk (fw : FwSim) : Prop :=
  match fw.pc with
  | .storeCount => fw.fwCount + 1 = UInt64.ofNat fw.finished
  | _ => fw.fwCount = UInt64.ofNat fw.finished

theorem count_succ {c : UInt64} {n m : Nat} (h : c = UInt64.ofNat n) (hm : m = n + 1) :
    c + 1 = UInt64.ofNat m := by
  rw [h, hm, UInt64.ofNat_add]
  rfl

theorem countOk_exec {linked sized : Bool} {seg' : Segment} (h : fw.CountOk)
    (hs : FwStep linked sized hw fw fw' seg') : fw'.CountOk := by
  unfold FwSim.CountOk at h
  cases hs with
  | readData1 hp =>
    simp only [hp] at h
    refine count_succ h ?_
    simp only [FwSim.finished, List.length_append, List.length_singleton]
    exact Nat.add_right_comm _ _ _
  | timedOut hp _ =>
    simp only [hp] at h
    refine count_succ h ?_
    simp only [FwSim.finished, List.length_append, List.length_singleton]
    exact (Nat.add_assoc _ _ _).symm
  | storeCount hp =>
    simp only [hp] at h
    exact h
  | crashed hp => rcases hp with hp | ⟨i, hp⟩ <;> simp only [hp] at h <;> exact h
  | ready hp _ | notAwaited hp _ | again hp _ | leave hp _ | pollSet hp _ | pollClear hp _ =>
    simp only [hp] at h
    exact h
  | opened hp | retried hp | notOpened hp | mmap hp | notReady hp | loadVersion hp
  | loadCapabilities hp | writeOpcode hp | writeArg0 hp | writeArg1 hp | orStart hp | readStatus hp
  | readData0 hp =>
    simp only [hp] at h
    exact h

/-- `init` has not come to clear the registers. -/
def BootPc.uncleared : BootPc → Bool
  | .shmOpen | .ftruncate | .mmap | .memset | .gone => true
  | _ => false

/-- Clearing START leaves no more pending than before. -/
theorem pending_cleared {seg : Segment} (hst : seg.reg.started = false) :
    { hw with seg := seg }.pending ≤ hw.pending := by
  unfold HwModel.pending
  simp only [hst, Bool.false_and, Bool.or_false]
  cases hw.pc.fetching with
  | false => exact Nat.zero_le _
  | true => exact Nat.le_refl _

/-- The invariant of all runs. Until the registers are cleared, START may be a relic, but the loop
does not run. -/
structure AtMostOnce (s : FwSimState) : Prop where
  count : s.fw.CountOk
  pending : (s.boot.uncleared = true ∧ s.hw.log = [] ∧ s.hw.pc = .loop) ∨
    s.hw.log.length + s.hw.pending ≤ s.fw.sent

theorem atMostOnce_init (h : AtMostOnce s) (hs : s.init startTimeSec = some s') : AtMostOnce s' := by
  have hpending := h.pending
  unfold FwSimState.init at hs
  cases hp : s.boot with
  | shmOpen | ftruncate | mmap =>
    simp only [hp] at hs
    cases hs
    exact ⟨h.count, hpending.imp_left fun hl => ⟨rfl, hl.2⟩⟩
  | memset =>
    simp only [hp] at hs
    cases hs
    have hclear : RegMap.zero.started = false := by decide
    refine ⟨h.count, .inr ?_⟩
    rcases hpending with ⟨_, hlog, hpc⟩ | hpending
    · simp only [FwSimState.withSeg, HwModel.pending, Segment.withReg, hlog, hpc, hclear]
      exact Nat.zero_le _
    · exact Nat.le_trans (Nat.add_le_add_left (pending_cleared hclear) _) hpending
  | writeVersion | writeCapabilities | writeStatus | eventfd | storeStartTime | storeReady | run =>
    simp only [hp] at hs hpending
    cases hs
    refine ⟨h.count, .inr (hpending.resolve_left ?_)⟩
    rintro ⟨hb, _⟩
    cases hb
  | pollLoop | gone => simp only [hp] at hs; cases hs

theorem atMostOnce_step (h : AtMostOnce s) (hs : s.step cfg startTimeSec a = some s') :
    AtMostOnce s' := by
  cases a with
  | init => exact atMostOnce_init h hs
  | initFails =>
    simp only [FwSimState.step, FwSimState.initFails] at hs
    cases hp : s.boot with
    | shmOpen | ftruncate | mmap | eventfd =>
      simp only [hp] at hs
      cases hs
      exact ⟨h.count, h.pending.imp_left fun hl => ⟨rfl, hl.2⟩⟩
    | _ => simp only [hp] at hs; cases hs
  | device =>
    simp only [FwSimState.step] at hs
    split at hs
    · next hp =>
      obtain ⟨hw', hdev, rfl⟩ := Option.map_eq_some_iff.mp hs
      refine ⟨h.count, .inr ?_⟩
      rcases h.pending with ⟨hb, _⟩ | hpending
      · rw [hp] at hb
        cases hb
      · exact Nat.le_trans (pending_device hdev) hpending
    · cases hs
  | stop =>
    cases hs
    exact ⟨h.count, h.pending⟩
  | hwReturns =>
    simp only [FwSimState.step] at hs
    split at hs
    · cases hs
      exact ⟨h.count, h.pending.imp_left fun hl => ⟨rfl, hl.2⟩⟩
    · cases hs
  | fw =>
    obtain ⟨⟨fw', seg'⟩, hexec, rfl⟩ := Option.map_eq_some_iff.mp hs
    have hstep := fwExec_cases hexec
    refine ⟨countOk_exec h.count hstep, ?_⟩
    rcases h.pending with hrelic | hpending
    · exact .inl hrelic
    · have hafter := pending_exec hstep hpending
      exact .inr hafter
  | fwMmapFails =>
    simp only [FwSimState.step] at hs
    split at hs
    · next hp =>
      cases hs
      obtain ⟨hcount, hpending⟩ := h
      simp only [FwSim.CountOk, FwSim.sent, hp, FwPc.awaiting] at hcount hpending
      exact ⟨hcount, hpending⟩
    · cases hs
  | signal =>
    cases hs
    exact ⟨h.count, h.pending⟩
  | resetDevice =>
    cases hs
    refine ⟨h.count, h.pending.imp_right fun hpending => ?_⟩
    have hst := started_or_reset s.hw.seg.reg
    simp only [FwSimState.withSeg, HwModel.pending, Segment.withReg, hst]
    exact hpending

/-- In every run, whatever a previous hw-model has left and whatever waits run out: the hw-model
calls its handler at most once for each START of the firmware, and the firmware counts every command
it is done with, answered or not. -/
theorem firmware_sim_at_most_once {previous : Option Segment}
    (h : Reach (fwSimSystem cfg startTimeSec previous) (fun _ _ => True) s) :
    s.hw.log.length ≤ s.fw.sent ∧
    (s.fw.pc ≠ .storeCount → s.fw.fwCount = UInt64.ofNat s.fw.finished) := by
  have hinv : AtMostOnce s := by
    refine h.invariant ?_ fun s a s' hinv _ hs => atMostOnce_step hinv hs
    rintro s rfl
    exact ⟨rfl, .inl ⟨rfl, rfl, rfl⟩⟩
  constructor
  · rcases hinv.pending with ⟨_, hlog, _⟩ | hpending
    · rw [hlog]
      exact Nat.zero_le _
    · exact Nat.le_trans (Nat.le_add_right _ _) hpending
  · intro hpc
    have hcount := hinv.count
    unfold FwSim.CountOk at hcount
    split at hcount
    · next hp => exact absurd hp hpc
    · exact hcount

/-- The firmware takes READY from a relic of an earlier hw-model, and the new one clears START. -/
def relicCleared : List FwSimAct := schedule [(10, .fw), (4, .init), (1, .signal), (2, .fw)]

theorem relicCleared_ends :
    (replay (fwSimSystem {} 1700000000 (some (simTransportInit .zero))) (fun _ _ => true)
      (.initial (some (simTransportInit .zero))) relicCleared).map (fun s => (s.fw.pc, s.fw.sent)) =
    some (.loop, 1) := by
  decide

/-- The lost command counts as sent. -/
theorem firmware_sim_at_most_once_relic : ∃ s,
    Reach (fwSimSystem {} 1700000000 (some (simTransportInit .zero))) (fun _ _ => True) s ∧
    s.fw.sent = 1 ∧ s.hw.log.length ≤ 1 ∧ s.fw.fwCount = UInt64.ofNat s.fw.finished := by
  obtain ⟨s, hrun, hs⟩ := Option.map_eq_some_iff.mp relicCleared_ends
  obtain ⟨hpc, hsent⟩ := Prod.mk.inj hs
  have hreach : Reach (fwSimSystem {} 1700000000 (some (simTransportInit .zero)))
      (fun _ _ => True) s := replay_reach (fun _ _ _ => trivial) (.init rfl) hrun
  obtain ⟨hlog, hcount⟩ := firmware_sim_at_most_once hreach
  refine ⟨s, hreach, hsent, hsent ▸ hlog, hcount ?_⟩
  rw [hpc]
  exact fun h => by cases h

end Deepspan
