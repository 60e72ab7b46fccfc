import Deepspan.Segment

/-!
# The hw-model server

`HwModelServer::poll_loop` (`sim/hw-model/src/hw_model_server.cpp`) as a step
function: `HwModel.pollLoopStep` takes the loop from one access of a register
(or of a statistics word, or of `cmd_count_`) to the next, so that the steps of
other threads can come between any two of them. The latency sleep and the 100 µs
sleep are the freedom of a scheduler not to take a step.

The command handler is whatever was installed by `set_cmd_handler`. It may keep
state: its reply may depend on the invocations before it (`CmdHandler`). It
reads the segment as it stands when it is called, and may fault (`none`), after
which the loop takes no further step.

`HwModel.log` is history: one entry for each call of the handler.
`StatsOk` says what the counters of the loop and of `ShmStats` hold at every
point of the loop; it needs no assumption on the other threads, because nobody
else writes them.
-/

namespace Deepspan

/-- What one call of the command handler returns: its status and `*r0`, `*r1`. -/
structure Reply where
  status : UInt32
  r0 : UInt32
  r1 : UInt32
deriving DecidableEq, Repr

/-- One call of the command handler: its arguments, the segment it could read,
and its reply. -/
structure Invocation where
  opcode : UInt32
  arg0 : UInt32
  arg1 : UInt32
  seg : Segment
  reply : Reply

/-- `HwModelServer::CmdHandler`, with the earlier invocations as its state. -/
abbrev CmdHandler := List Invocation → UInt32 → UInt32 → UInt32 → Segment → Option Reply

/-- `HwModelServer::default_handler`: echo. -/
def defaultHandler : CmdHandler := fun _ _ arg0 arg1 _ => some ⟨0, arg0, arg1⟩

/-- `HwModelConfig`, with the installed handler. -/
structure HwModelConfig where
  autoIrq : Bool := true
  cmdHandler : CmdHandler := defaultHandler

/-- Program points of `poll_loop`, each named after the access it is about to
make, with the local variables that are still live there. -/
inductive PollPc where
  | loop
  | loadCtrl
  | readOpcode
  | readArg0 (opcode : UInt32)
  | readArg1 (opcode arg0 : UInt32)
  | callHandler (opcode arg0 arg1 : UInt32)
  | writeData0 (opcode : UInt32) (reply : Reply)
  | writeData1 (opcode : UInt32) (reply : Reply)
  | writeStatus (opcode : UInt32) (reply : Reply)
  | fetchAdd (opcode : UInt32) (reply : Reply)
  | storeCount (opcode : UInt32) (reply : Reply) (count : UInt64)
  | storeLastOpcode (opcode : UInt32) (reply : Reply)
  | storeLastStatus (reply : Reply)
  | clearStart
  | writeReady
  | raiseIrq
  | exited
deriving DecidableEq, Repr

/-- The hw-model process and the segment it serves. -/
structure HwModel where
  seg : Segment
  pc : PollPc
  running : Bool
  cmdCount : UInt64
  log : List Invocation

/-- A store to, or read-modify-write of, one register. -/
def Segment.withReg (seg : Segment) (f : RegMap → RegMap) : Segment :=
  { seg with reg := f seg.reg }

/-- A store to one word of `ShmStats`. -/
def Segment.withStats (seg : Segment) (f : ShmStats → ShmStats) : Segment :=
  { seg with stats := f seg.stats }

/-- `SimTransport::init`: clears the register map, nothing else. -/
def simTransportInit (seg : Segment) : Segment :=
  seg.withReg fun _ =>
    { RegMap.zero with
      version := hwVersion
      capabilities := hwCapsDma ||| hwCapsIrq ||| hwCapsMulti
      status := StatusBits.ready }

/-- `HwModelServer::init` on a segment with the given previous contents, started
at `startTimeSec`, and the poll loop about to run. -/
def hwModelInit (startTimeSec : UInt64) (seg : Segment) : HwModel where
  seg := ((simTransportInit seg).withStats fun st => { st with startTimeSec := startTimeSec }).withReg
    fun r => { r with status := StatusBits.ready }
  pc := .loop
  running := true
  cmdCount := 0
  log := []

/-- One step of `HwModelServer::poll_loop`. -/
def HwModel.pollLoopStep (cfg : HwModelConfig) (hw : HwModel) : Option HwModel :=
  match hw.pc with
  | .loop => some { hw with pc := if hw.running then .loadCtrl else .exited }
  | .loadCtrl => some { hw with pc := if hw.seg.reg.started then .readOpcode else .loop }
  | .readOpcode => some { hw with pc := .readArg0 hw.seg.reg.cmdOpcode }
  | .readArg0 opcode => some { hw with pc := .readArg1 opcode hw.seg.reg.cmdArg0 }
  | .readArg1 opcode arg0 => some { hw with pc := .callHandler opcode arg0 hw.seg.reg.cmdArg1 }
  | .callHandler opcode arg0 arg1 =>
    (cfg.cmdHandler hw.log opcode arg0 arg1 hw.seg).map fun reply =>
      { hw with pc := .writeData0 opcode reply
                log := hw.log ++ [⟨opcode, arg0, arg1, hw.seg, reply⟩] }
  | .writeData0 opcode reply =>
    some { hw with pc := .writeData1 opcode reply
                   seg := hw.seg.withReg fun r => { r with resultData0 := reply.r0 } }
  | .writeData1 opcode reply =>
    some { hw with pc := .writeStatus opcode reply
                   seg := hw.seg.withReg fun r => { r with resultData1 := reply.r1 } }
  | .writeStatus opcode reply =>
    some { hw with pc := .fetchAdd opcode reply
                   seg := hw.seg.withReg fun r => { r with resultStatus := reply.status } }
  | .fetchAdd opcode reply =>
    some { hw with pc := .storeCount opcode reply (hw.cmdCount + 1)
                   cmdCount := hw.cmdCount + 1 }
  | .storeCount opcode reply count =>
    some { hw with pc := .storeLastOpcode opcode reply
                   seg := hw.seg.withStats fun st => { st with cmdCount := count } }
  | .storeLastOpcode opcode reply =>
    some { hw with pc := .storeLastStatus reply
                   seg := hw.seg.withStats fun st => { st with lastOpcode := opcode } }
  | .storeLastStatus reply =>
    some { hw with pc := .clearStart
                   seg := hw.seg.withStats fun st => { st with lastResultStatus := reply.status } }
  | .clearStart =>
    some { hw with pc := .writeReady
                   seg := hw.seg.withReg fun r => { r with ctrl := r.ctrl &&& ~~~CtrlBits.start } }
  | .writeReady =>
    some { hw with pc := if cfg.autoIrq then .raiseIrq else .loop
                   seg := hw.seg.withReg fun r => { r with status := StatusBits.ready } }
  | .raiseIrq =>
    -- `SimTransport::raise_irq(1u)`; the eventfd write behind it has no reader here
    some { hw with pc := .loop
                   seg := hw.seg.withReg fun r => { r with irqStatus := r.irqStatus ||| irqDone } }
  | .exited => none

/-- The loop has seen START set and has not yet cleared it. -/
def PollPc.inCommand : PollPc → Bool
  | .readOpcode | .readArg0 _ | .readArg1 _ _ | .callHandler _ _ _ | .writeData0 _ _
  | .writeData1 _ _ | .writeStatus _ _ | .fetchAdd _ _ | .storeCount _ _ _ | .storeLastOpcode _ _
  | .storeLastStatus _ | .clearStart => true
  | .loop | .loadCtrl | .writeReady | .raiseIrq | .exited => false

/-- The loop has already fetched a part of the command it is in. -/
def PollPc.midCommand (pc : PollPc) : Bool := pc.inCommand && pc != .readOpcode

/-! ## What a step of the loop does -/

/-- The steps of the loop, each with the program point it is taken at. -/
inductive PollStep (cfg : HwModelConfig) (hw : HwModel) : HwModel → Prop
  | stay : hw.pc = .loop → hw.running = true → PollStep cfg hw { hw with pc := .loadCtrl }
  | leave : hw.pc = .loop → hw.running = false → PollStep cfg hw { hw with pc := .exited }
  | seen : hw.pc = .loadCtrl → hw.seg.reg.started = true →
      PollStep cfg hw { hw with pc := .readOpcode }
  | unseen : hw.pc = .loadCtrl → hw.seg.reg.started = false →
      PollStep cfg hw { hw with pc := .loop }
  | readOpcode : hw.pc = .readOpcode →
      PollStep cfg hw { hw with pc := .readArg0 hw.seg.reg.cmdOpcode }
  | readArg0 {opcode : UInt32} : hw.pc = .readArg0 opcode →
      PollStep cfg hw { hw with pc := .readArg1 opcode hw.seg.reg.cmdArg0 }
  | readArg1 {opcode arg0 : UInt32} : hw.pc = .readArg1 opcode arg0 →
      PollStep cfg hw { hw with pc := .callHandler opcode arg0 hw.seg.reg.cmdArg1 }
  | callHandler {opcode arg0 arg1 : UInt32} {reply : Reply} :
      hw.pc = .callHandler opcode arg0 arg1 →
      cfg.cmdHandler hw.log opcode arg0 arg1 hw.seg = some reply →
      PollStep cfg hw { hw with pc := .writeData0 opcode reply
                                log := hw.log ++ [⟨opcode, arg0, arg1, hw.seg, reply⟩] }
  | writeData0 {opcode : UInt32} {reply : Reply} : hw.pc = .writeData0 opcode reply →
      PollStep cfg hw { hw with
        pc := .writeData1 opcode reply
        seg := hw.seg.withReg fun r => { r with resultData0 := reply.r0 } }
  | writeData1 {opcode : UInt32} {reply : Reply} : hw.pc = .writeData1 opcode reply →
      PollStep cfg hw { hw with
        pc := .writeStatus opcode reply
        seg := hw.seg.withReg fun r => { r with resultData1 := reply.r1 } }
  | writeStatus {opcode : UInt32} {reply : Reply} : hw.pc = .writeStatus opcode reply →
      PollStep cfg hw { hw with
        pc := .fetchAdd opcode reply
        seg := hw.seg.withReg fun r => { r with resultStatus := reply.status } }
  | fetchAdd {opcode : UInt32} {reply : Reply} : hw.pc = .fetchAdd opcode reply →
      PollStep cfg hw { hw with pc := .storeCount opcode reply (hw.cmdCount + 1)
                                cmdCount := hw.cmdCount + 1 }
  | storeCount {opcode : UInt32} {reply : Reply} {count : UInt64} :
      hw.pc = .storeCount opcode reply count →
      PollStep cfg hw { hw with
        pc := .storeLastOpcode opcode reply
        seg := hw.seg.withStats fun st => { st with cmdCount := count } }
  | storeLastOpcode {opcode : UInt32} {reply : Reply} : hw.pc = .storeLastOpcode opcode reply →
      PollStep cfg hw { hw with
        pc := .storeLastStatus reply
        seg := hw.seg.withStats fun st => { st with lastOpcode := opcode } }
  | storeLastStatus {reply : Reply} : hw.pc = .storeLastStatus reply →
      PollStep cfg hw { hw with
        pc := .clearStart
        seg := hw.seg.withStats fun st => { st with lastResultStatus := reply.status } }
  | clearStart : hw.pc = .clearStart →
      PollStep cfg hw { hw with
        pc := .writeReady
        seg := hw.seg.withReg fun r => { r with ctrl := r.ctrl &&& ~~~CtrlBits.start } }
  | writeReady {pc : PollPc} : hw.pc = .writeReady → pc = .raiseIrq ∨ pc = .loop →
      PollStep cfg hw { hw with
        pc := pc
        seg := hw.seg.withReg fun r => { r with status := StatusBits.ready } }
  | raiseIrq : hw.pc = .raiseIrq →
      PollStep cfg hw { hw with
        pc := .loop
        seg := hw.seg.withReg fun r => { r with irqStatus := r.irqStatus ||| irqDone } }

theorem pollLoopStep_cases {cfg : HwModelConfig} {hw hw' : HwModel}
    (hs : hw.pollLoopStep cfg = some hw') : PollStep cfg hw hw' := by
  unfold HwModel.pollLoopStep at hs
  cases hp : hw.pc with
  | loop =>
    simp only [hp, Option.some.injEq] at hs
    subst hs
    by_cases hrun : hw.running = true
    · rw [if_pos hrun]
      exact .stay hp hrun
    · rw [if_neg hrun]
      exact .leave hp (Bool.not_eq_true _ ▸ hrun)
  | loadCtrl =>
    simp only [hp, Option.some.injEq] at hs
    subst hs
    by_cases hst : hw.seg.reg.started = true
    · rw [if_pos hst]
      exact .seen hp hst
    · rw [if_neg hst]
      exact .unseen hp (Bool.not_eq_true _ ▸ hst)
  | callHandler opcode arg0 arg1 =>
    simp only [hp, Option.map_eq_some_iff] at hs
    obtain ⟨reply, hreply, rfl⟩ := hs
    exact .callHandler hp hreply
  | writeReady =>
    simp only [hp, Option.some.injEq] at hs
    subst hs
    refine .writeReady hp ?_
    cases cfg.autoIrq with
    | true => exact .inl rfl
    | false => exact .inr rfl
  | exited => simp only [hp] at hs; cases hs
  | _ =>
    simp only [hp, Option.some.injEq] at hs
    subst hs
    constructor
    exact hp

/-- A step of the loop leaves the log alone, or calls the handler and logs the call. -/
theorem log_step_cases {cfg : HwModelConfig} {hw hw' : HwModel}
    (hs : hw.pollLoopStep cfg = some hw') :
    hw'.log = hw.log ∨ ∃ opcode arg0 arg1 reply, hw.pc = .callHandler opcode arg0 arg1 ∧
      cfg.cmdHandler hw.log opcode arg0 arg1 hw.seg = some reply ∧
      hw'.log = hw.log ++ [⟨opcode, arg0, arg1, hw.seg, reply⟩] := by
  cases pollLoopStep_cases hs with
  | callHandler hp hreply => exact .inr ⟨_, _, _, _, hp, hreply, rfl⟩
  | _ => exact .inl rfl

/-! ## The counters -/

/-- The last invocation had this opcode and this reply. -/
def LastCall (log : List Invocation) (opcode : UInt32) (reply : Reply) : Prop :=
  ∃ inv, log.getLast? = some inv ∧ inv.opcode = opcode ∧ inv.reply = reply

/-- The statistics words describe exactly the invocations so far. -/
def StatsMatch (hw : HwModel) : Prop :=
  hw.cmdCount = UInt64.ofNat hw.log.length ∧
  hw.seg.stats.cmdCount = UInt64.ofNat hw.log.length ∧
  ∀ inv, hw.log.getLast? = some inv →
    hw.seg.stats.lastOpcode = inv.opcode ∧ hw.seg.stats.lastResultStatus = inv.reply.status

/-- What `cmd_count_` and the statistics words hold at each point of the loop. -/
def StatsOk (hw : HwModel) : Prop :=
  match hw.pc with
  | .writeData0 opcode reply | .writeData1 opcode reply | .writeStatus opcode reply
  | .fetchAdd opcode reply =>
    LastCall hw.log opcode reply ∧ hw.cmdCount + 1 = UInt64.ofNat hw.log.length
  | .storeCount opcode reply count =>
    LastCall hw.log opcode reply ∧ hw.cmdCount = UInt64.ofNat hw.log.length ∧ count = hw.cmdCount
  | .storeLastOpcode opcode reply =>
    LastCall hw.log opcode reply ∧ hw.cmdCount = UInt64.ofNat hw.log.length ∧
    hw.seg.stats.cmdCount = UInt64.ofNat hw.log.length
  | .storeLastStatus reply =>
    LastCall hw.log hw.seg.stats.lastOpcode reply ∧ hw.cmdCount = UInt64.ofNat hw.log.length ∧
    hw.seg.stats.cmdCount = UInt64.ofNat hw.log.length
  | _ => StatsMatch hw

theorem statsOk_init (t : UInt64) : StatsOk (hwModelInit t .zero) := by
  refine ⟨rfl, rfl, ?_⟩
  intro inv h
  cases h

/-- Between commands the statistics words are those of the last command. -/
theorem StatsOk.statsMatch {hw : HwModel} (h : StatsOk hw) (hpc : hw.pc.inCommand = false) :
    StatsMatch hw := by
  unfold StatsOk at h
  cases hp : hw.pc <;> simp only [hp, PollPc.inCommand, Bool.true_eq_false] at h hpc <;> exact h

/-- Other threads may change the registers and the DMA window, not the counters. -/
theorem StatsOk.congr {hw hw' : HwModel} (h : StatsOk hw) (hpc : hw'.pc = hw.pc)
    (hc : hw'.cmdCount = hw.cmdCount) (hl : hw'.log = hw.log) (hs : hw'.seg.stats = hw.seg.stats) :
    StatsOk hw' := by
  unfold StatsOk StatsMatch at h ⊢
  rw [hpc, hc, hl, hs]
  exact h

theorem statsOk_step {cfg : HwModelConfig} {hw hw' : HwModel} (h : StatsOk hw)
    (hs : hw.pollLoopStep cfg = some hw') : StatsOk hw' := by
  unfold StatsOk at h
  cases pollLoopStep_cases hs with
  | callHandler hp _ =>
    simp only [hp] at h
    -- the log grows here, `cmd_count_` only at the `fetch_add`
    refine ⟨⟨_, List.getLast?_concat .., rfl, rfl⟩, ?_⟩
    simp only [h.1, List.length_append, List.length_singleton, UInt64.ofNat_add]
    rfl
  | fetchAdd hp =>
    simp only [hp] at h
    exact ⟨h.1, h.2, rfl⟩
  | storeCount hp =>
    simp only [hp] at h
    exact ⟨h.1, h.2.1, h.2.2.trans h.2.1⟩
  | storeLastStatus hp =>
    simp only [hp] at h
    obtain ⟨⟨inv, hlast, hop, hrep⟩, hc, hsc⟩ := h
    refine ⟨hc, hsc, ?_⟩
    intro inv' hlast'
    cases Option.some.inj (hlast.symm.trans hlast')
    exact ⟨hop.symm, hrep ▸ rfl⟩
  | writeReady hp hpc =>
    simp only [hp] at h
    rcases hpc with rfl | rfl <;> exact h
  | stay hp _ | leave hp _ | seen hp _ | unseen hp _ | readOpcode hp | readArg0 hp | readArg1 hp
  | writeData0 hp | writeData1 hp | writeStatus hp | storeLastOpcode hp | clearStart hp
  | raiseIrq hp =>
    simp only [hp] at h
    exact h

end Deepspan
