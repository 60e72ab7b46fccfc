import Deepspan.Submit.Handlers
import Deepspan.Zephyr.Completion

/-!
# The firmware beside the server

The stack of the user manual with the firmware simulator running beside the server:
the Zephyr driver of one process and the CRC32 plugin of another on the segment of one
hw-model. The firmware stages its bytes with `deepspan_hwip_set_dma` and submits COMPUTE
with their length; the server submits COMPUTE through `Crc32Plugin::submit`. A register
access and the copy of a buffer is one step. `IRQ_STATUS` is write-1-to-clear, and
nothing times out.

This module has the system, the kinds of runs and what holds of one call of the
firmware (`FwOk`): the invariant of its command, as for the driver alone, and that its
bytes are in the window until the handler has read them.
-/

namespace Deepspan

open Transition

/-- A COMPUTE of the firmware: `deepspan_hwip_set_dma` and, once it has staged the
bytes, `deepspan_hwip_submit_cmd` with their length. -/
structure FwCall where
  data : List UInt8
  staged : Bool
  call : CmdCall
deriving DecidableEq, Repr

def FwCall.new (data : List UInt8) (arg1 : UInt32) : FwCall :=
  ⟨data, false, ⟨Crc32Op.compute, UInt32.ofNat data.length, arg1, .writeOpcode, 0⟩⟩

/-- The bytes are staged and the command has not returned. -/
def FwCall.active (f : FwCall) : Bool := f.staged && !f.call.pc.ended

structure SharedState where
  server : SubmitState
  drv : Driver
  fws : List FwCall

inductive SharedAct where
  | server (a : SubmitAct)
  | compute (data : List UInt8) (arg1 : UInt32)
  | fw (i : Nat)
  | pollThread
deriving DecidableEq, Repr

/-- The server's view of a new segment. -/
def SharedState.withSeg (s : SharedState) (seg : Segment) : SharedState :=
  { s with server := { s.server with hw := { s.server.hw with seg := seg } } }

def SharedState.fwStep (s : SharedState) (i : Nat) : Option SharedState :=
  match s.fws[i]? with
  | none => none
  | some f =>
    if f.staged then
      (f.call.exec s.server.hw s.drv).map fun p =>
        { s.withSeg p.2.1 with drv := p.2.2, fws := s.fws.set i { f with call := p.1 } }
    else
      some { s.withSeg (s.server.hw.seg.copyDma f.data) with
        fws := s.fws.set i { f with staged := true } }

def SharedState.step (cfg : HwModelConfig) (s : SharedState) : SharedAct → Option SharedState
  | .server a => (s.server.step .crc32 cfg a).map fun t => { s with server := t }
  | .compute data arg1 =>
    -- `deepspan_hwip_set_dma` returns `-EINVAL` for more than fits
    if data.length ≤ shmDmaMaxLen then some { s with fws := s.fws ++ [.new data arg1] } else some s
  | .fw i => s.fwStep i
  | .pollThread =>
    let p := s.drv.pollThreadStep .w1c s.server.hw.seg
    some { s.withSeg p.2 with drv := p.1 }

/-- The hw-model has been started, then the firmware, and the server. -/
def SharedState.initial (startTimeSec : UInt64) : SharedState where
  server := { SubmitState.initial startTimeSec with hw := (ZephyrState.initial startTimeSec .zero).hw }
  drv := (ZephyrState.initial startTimeSec .zero).drv
  fws := []

def sharedSystem (cfg : HwModelConfig) : System SharedState SharedAct where
  init s := ∃ t, s = .initial t
  step := SharedState.step cfg

variable {cfg : HwModelConfig} {s s' : SharedState} {a : SharedAct}

/-- What a step can do. -/
inductive SharedStep (cfg : HwModelConfig) (s : SharedState) : SharedAct → SharedState → Prop
  | server {a : SubmitAct} {t : SubmitState} : s.server.step .crc32 cfg a = some t →
      SharedStep cfg s (.server a) { s with server := t }
  | compute {data : List UInt8} {arg1 : UInt32} : data.length ≤ shmDmaMaxLen →
      SharedStep cfg s (.compute data arg1) { s with fws := s.fws ++ [.new data arg1] }
  | oversize {data : List UInt8} {arg1 : UInt32} : SharedStep cfg s (.compute data arg1) s
  | setDma {i : Nat} {f : FwCall} : s.fws[i]? = some f → f.staged = false →
      SharedStep cfg s (.fw i) { s.withSeg (s.server.hw.seg.copyDma f.data) with
        fws := s.fws.set i { f with staged := true } }
  | submitCmd {i : Nat} {f : FwCall} {c : CmdCall} {seg : Segment} {drv : Driver} :
      s.fws[i]? = some f → f.staged = true → f.call.exec s.server.hw s.drv = some (c, seg, drv) →
      SharedStep cfg s (.fw i)
        { s.withSeg seg with drv := drv, fws := s.fws.set i { f with call := c } }
  | pollThread {drv : Driver} {seg : Segment} :
      s.drv.pollThreadStep .w1c s.server.hw.seg = (drv, seg) →
      SharedStep cfg s .pollThread { s.withSeg seg with drv := drv }

theorem sharedStep_cases (h : s.step cfg a = some s') : SharedStep cfg s a s' := by
  cases a with
  | server a =>
    obtain ⟨t, ht, rfl⟩ := Option.map_eq_some_iff.mp h
    exact .server ht
  | compute data arg1 =>
    simp only [SharedState.step] at h
    split at h
    · next hle =>
      cases h
      exact .compute hle
    · cases h
      exact .oversize
  | fw i =>
    simp only [SharedState.step, SharedState.fwStep] at h
    cases hi : s.fws[i]? with
    | none =>
      simp only [hi] at h
      cases h
    | some f =>
      simp only [hi] at h
      split at h
      · next hstaged =>
        obtain ⟨⟨c, seg, drv⟩, hexec, rfl⟩ := Option.map_eq_some_iff.mp h
        exact .submitCmd hi hstaged hexec
      · next hstaged =>
        cases h
        exact .setDma hi (Bool.not_eq_true _ ▸ hstaged)
  | pollThread =>
    cases h
    exact .pollThread rfl

/-! ## Kinds of runs -/

/-- Neither the firmware nor the server has a COMPUTE in progress. -/
def SharedState.idle (s : SharedState) : Bool :=
  s.fws.all (fun f => !f.active) && s.server.subs.all fun sub => !sub.pc.locked

/-- The firmware stages its bytes, and the plugin takes its mutex, only while nothing is
in progress. -/
def keptApart (s : SharedState) : SharedAct → Bool
  | .server (.sub i) => (s.server.subs[i]?).all fun sub => sub.pc != .lock || s.idle
  | .fw i => (s.fws[i]?).all fun f => f.staged || s.idle
  | _ => true

/-- Nothing is left of an earlier completion: `cmd_done` is not available, the poll thread
is not about to give it, and no interrupt is pending or about to be raised. -/
def SharedState.quiet (s : SharedState) : Bool :=
  !s.drv.cmdDone && s.drv.thread == .load && !s.server.hw.seg.reg.irqPending &&
    !s.server.hw.pc.inTail

/-- The firmware sets START only then. -/
def quietCompute (s : SharedState) : SharedAct → Bool
  | .fw i => (s.fws[i]?).all fun f => !(f.staged && f.call.pc == .orStart) || s.quiet
  | _ => true

/-- The payload fits into the window. -/
def Call.fits (call : Call) : Bool := decide (call.payload.length ≤ shmDmaMaxLen)

/-- The server submits payloads that fit, and no submit reaches its poll limit. -/
def serverFits (s : SharedState) : SharedAct → Bool
  | .server (.submitRequest call) | .server (.pluginSubmit call) => call.fits
  | .server a => noPollLimit s.server a
  | _ => true

/-! ## A call of the firmware -/

/-- The call has set START. -/
def CmdPc.pastStart : CmdPc → Bool
  | .take | .copyStatus | .copyData0 _ | .copyData1 _ _ | .returned _ _ _ => true
  | .writeOpcode | .writeArg0 | .writeArg1 | .writeFlags | .orStart | .timedOut => false

/-- What holds of a call of the firmware: what holds of its command, its bytes are in the
window, and they were there when the handler was called for it. -/
structure FwOk (hw : HwModel) (drv : Driver) (f : FwCall) : Prop where
  cmd : CmdOk hw drv f.call
  compute : f.call.opcode = Crc32Op.compute ∧ f.call.arg0 = UInt32.ofNat f.data.length
  fits : f.data.length ≤ shmDmaMaxLen
  fresh : f.staged = false → f.call.pc = .writeOpcode
  window : f.active = true → hw.seg.HoldsDma f.data
  read : f.call.pc.pastStart = true → ∀ inv, hw.log[f.call.mark]? = some inv →
    inv.seg.HoldsDma f.data

variable {hw hw' : HwModel} {drv drv' : Driver} {f : FwCall}

theorem fwOk_new {data : List UInt8} (h : data.length ≤ shmDmaMaxLen) (arg1 : UInt32) :
    FwOk hw drv (.new data arg1) where
  cmd := trivial
  compute := ⟨rfl, rfl⟩
  fits := h
  fresh := fun _ => rfl
  window := by
    intro hact
    cases hact
  read := by
    intro hpast
    cases hpast

/-- A call that is waiting for its interrupt is in progress. -/
theorem FwOk.active_of_take (h : FwOk hw drv f) (hpc : f.call.pc = .take) : f.active = true := by
  rw [FwCall.active, hpc]
  cases hstaged : f.staged with
  | true => rfl
  | false =>
    have hfresh := h.fresh hstaged
    rw [hpc] at hfresh
    cases hfresh

/-- A call that is not in progress has not begun, or is over. -/
theorem FwOk.of_not_active (h : FwOk hw drv f) (hact : f.active = false) :
    f.call.pc = .writeOpcode ∨ f.call.pc.ended = true := by
  rw [FwCall.active, Bool.and_eq_false_iff, Bool.not_eq_false'] at hact
  exact hact.imp h.fresh id

/-- Such a call depends on the log only. -/
theorem FwOk.passive (h : FwOk hw drv f) (hact : f.active = false) (hl : hw'.log = hw.log) :
    FwOk hw' drv' f where
  cmd := by
    rcases h.of_not_active hact with hpc | hended
    · simp only [CmdOk, hpc]
    · exact h.cmd.of_ended hended hl
  compute := h.compute
  fits := h.fits
  fresh := h.fresh
  window := by
    intro hact'
    rw [hact] at hact'
    cases hact'
  read := by
    rw [hl]
    exact h.read

/-- A call past START that is not in progress has been answered. -/
theorem FwOk.mark_lt (h : FwOk hw drv f) (hact : f.active = false)
    (hpast : f.call.pc.pastStart = true) : f.call.mark < hw.log.length := by
  have hcmd := h.cmd
  unfold CmdOk at hcmd
  cases hp : f.call.pc with
  | returned status data0 data1 =>
    simp only [hp] at hcmd
    obtain ⟨inv, hinv, _⟩ := hcmd
    exact (List.getElem?_eq_some_iff.mp hinv).1
  | timedOut =>
    rw [hp] at hpast
    cases hpast
  | _ =>
    rcases h.of_not_active hact with hpc | hended
    · rw [hpc] at hpast
      cases hpast
    · rw [hp] at hended
      cases hended

theorem fwOk_device (h : FwOk hw drv f) (hs : hw.pollLoopStep cfg = some hw') : FwOk hw' drv f where
  cmd := cmdOk_device h.cmd hs
  compute := h.compute
  fits := h.fits
  fresh := h.fresh
  window := by
    intro hact
    have hsame := sameCmd_step hs
    exact (h.window hact).congr hsame.dma hsame.tail
  read := by
    intro hpast inv hinv
    rcases log_step_cases hs with hl | ⟨_, _, _, _, _, _, hl⟩
    · rw [hl] at hinv
      exact h.read hpast inv hinv
    · rw [hl] at hinv
      rcases getElem?_concat_cases hinv with hinv | ⟨hmark, rfl⟩
      · exact h.read hpast inv hinv
      · -- the handler has seen the segment as it is
        cases hact : f.active with
        | true => exact h.window hact
        | false =>
          have hlt := h.mark_lt hact hpast
          rw [hmark] at hlt
          exact absurd hlt (Nat.lt_irrefl _)

theorem fwOk_pollThread {seg' : Segment} (h : FwOk hw drv f)
    (hs : drv.pollThreadStep .w1c hw.seg = (drv', seg'))
    (hfresh : f.call.pc = .take → hw.seg.reg.started = true → drv.thread = .load →
      hw.seg.reg.irqPending = false) :
    FwOk { hw with seg := seg' } drv' f where
  cmd := cmdOk_pollThread h.cmd hs hfresh
  compute := h.compute
  fits := h.fits
  fresh := h.fresh
  window := by
    intro hact
    obtain ⟨irq, rfl⟩ := pollThread_irqStatus hs
    exact (h.window hact).congr rfl rfl
  read := h.read

/-- A change of CTRL that leaves START alone, and a change of `running_`. -/
theorem cmdOk_ctrl {c : CmdCall} {ctrl : UInt32} {running : Bool}
    (hst : { hw.seg.reg with ctrl := ctrl }.started = hw.seg.reg.started) (h : CmdOk hw drv c) :
    CmdOk { hw with
      running := running, seg := hw.seg.withReg fun r => { r with ctrl := ctrl } } drv c := by
  have hdone : Done c.cmd c.mark hw drv → Done c.cmd c.mark { hw with
      running := running, seg := hw.seg.withReg fun r => { r with ctrl := ctrl } } drv :=
    fun hd => ⟨⟨hst.trans hd.served.started, hd.served.idle, hd.served.answered⟩, hd.thread⟩
  refine h.frame ⟨rfl, rfl, rfl, rfl, rfl⟩ ⟨[], (List.append_nil _).symm⟩ hdone (fun _ => rfl)
    (fun _ hlat => hlat) ?_
  intro hp
  simp only [CmdOk, hp] at h ⊢
  refine ⟨h.1.of_same ⟨rfl, rfl, rfl, rfl, rfl⟩, ?_⟩
  rcases h.2 with ⟨⟨hstarted, hpc⟩, hsem⟩ | ⟨hd, hsem⟩
  · exact .inl ⟨⟨hst.trans hstarted, hpc⟩, hsem⟩
  · exact .inr ⟨hdone hd, hsem⟩

theorem fwOk_ctrl {ctrl : UInt32} {running : Bool}
    (hst : { hw.seg.reg with ctrl := ctrl }.started = hw.seg.reg.started) (h : FwOk hw drv f) :
    FwOk { hw with
      running := running, seg := hw.seg.withReg fun r => { r with ctrl := ctrl } } drv f where
  cmd := cmdOk_ctrl hst h.cmd
  compute := h.compute
  fits := h.fits
  fresh := h.fresh
  window := fun hact => (h.window hact).congr rfl rfl
  read := h.read

/-- A call of the driver leaves the window alone, and says at START how many commands
came before it. -/
theorem cmdExec_window {c c' : CmdCall} {seg' : Segment}
    (hs : c.exec hw drv = some (c', seg', drv')) :
    seg'.dma = hw.seg.dma ∧ seg'.tail = hw.seg.tail ∧ c'.opcode = c.opcode ∧ c'.arg0 = c.arg0 ∧
      (c'.pc.pastStart = true →
        (c.pc = .orStart ∧ c'.mark = hw.log.length) ∨
          (c.pc.pastStart = true ∧ c'.mark = c.mark)) := by
  cases cmdExec_cases hs with
  | orStart hp => exact ⟨rfl, rfl, rfl, rfl, fun _ => .inl ⟨hp, rfl⟩⟩
  | take hp _ => exact ⟨rfl, rfl, rfl, rfl, fun _ => .inr ⟨by rw [hp]; rfl, rfl⟩⟩
  | copyStatus hp | copyData0 hp | copyData1 hp =>
    exact ⟨rfl, rfl, rfl, rfl, fun _ => .inr ⟨by rw [hp]; rfl, rfl⟩⟩
  | writeOpcode _ | writeArg0 _ | writeArg1 _ | writeFlags _ =>
    exact ⟨rfl, rfl, rfl, rfl, fun hpast => by cases hpast⟩

theorem fwOk_exec {c' : CmdCall} {seg' : Segment} (h : FwOk hw drv f) (hstaged : f.staged = true)
    (hs : f.call.exec hw drv = some (c', seg', drv'))
    (hclean : f.call.pc = .orStart →
      hw.pc.midCommand = false ∧ drv.cmdDone = false ∧ drv.thread = .load) :
    FwOk { hw with seg := seg' } drv' { f with call := c' } := by
  obtain ⟨hdma, htail, hop, harg, hmark⟩ := cmdExec_window hs
  refine ⟨cmdOk_exec h.cmd hs hclean, ⟨hop.trans h.compute.1, harg.trans h.compute.2⟩, h.fits, ?_,
    ?_, ?_⟩
  · intro hfresh
    rw [hstaged] at hfresh
    cases hfresh
  · intro _
    have hact : f.active = true := by
      rw [FwCall.active, hstaged, cmdExec_not_ended hs]
      rfl
    exact (h.window hact).congr hdma htail
  · intro hpast inv hinv
    rcases hmark hpast with ⟨_, hm⟩ | ⟨hpast', hm⟩
    · -- nobody has been called for the command yet
      simp only [hm, List.getElem?_eq_none (Nat.le_refl _)] at hinv
      cases hinv
    · simp only [hm] at hinv
      exact h.read hpast' inv hinv

theorem fwOk_setDma (h : FwOk hw drv f) (hstaged : f.staged = false) :
    FwOk { hw with seg := hw.seg.copyDma f.data } drv { f with staged := true } where
  cmd := by
    simp only [CmdOk, h.fresh hstaged]
  compute := h.compute
  fits := h.fits
  fresh := by
    intro hfresh
    cases hfresh
  window := fun _ => holdsDma_copyDma hw.seg h.fits
  read := by
    intro hpast
    simp only [h.fresh hstaged] at hpast
    cases hpast

end Deepspan
