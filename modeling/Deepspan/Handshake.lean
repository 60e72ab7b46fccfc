import Deepspan.HwModel

/-!
# The device half of the command handshake

A client of the segment writes a command, sets START and waits. This module says
what the hw-model does with that command from then on, whoever the client is:

* `Cmd.Held`: the command registers and the DMA window still hold the command;
* `Serving cmd mark hw`: START is set and the loop is on its way through this
  command, `mark` being the number of invocations before START was set;
* `Served cmd mark hw`: START is clear, invocation number `mark` was made for
  this command and its reply is in the result registers.

`Serving` at a program point fixes exactly what the loop has fetched or written
by then, so that `served_or_serving_step` needs no other invariant: as long as
nobody overwrites the command, the loop takes `Serving` to `Served` and stays
there.
-/

namespace Deepspan

/-- A command as the client puts it into the segment. -/
structure Cmd where
  opcode : UInt32
  arg0 : UInt32
  arg1 : UInt32
  dma : List UInt8

/-- The segment holds the command. -/
structure Cmd.Held (cmd : Cmd) (seg : Segment) : Prop where
  opcode : seg.reg.cmdOpcode = cmd.opcode
  arg0 : seg.reg.cmdArg0 = cmd.arg0
  arg1 : seg.reg.cmdArg1 = cmd.arg1
  dma : seg.HoldsDma cmd.dma

/-- The handler was invoked for this command: with its opcode and arguments, and
with its bytes in the DMA window. -/
structure Invocation.For (inv : Invocation) (cmd : Cmd) : Prop where
  opcode : inv.opcode = cmd.opcode
  arg0 : inv.arg0 = cmd.arg0
  arg1 : inv.arg1 = cmd.arg1
  dma : inv.seg.HoldsDma cmd.dma

/-- Invocation number `mark` was made for `cmd` and replied `reply`. -/
def Answered (cmd : Cmd) (mark : Nat) (log : List Invocation) (reply : Reply) : Prop :=
  ∃ inv, log[mark]? = some inv ∧ inv.For cmd ∧ inv.reply = reply

/-- An invocation without the segment, which cannot be compared. -/
def Invocation.view (inv : Invocation) : UInt32 × UInt32 × UInt32 × Reply :=
  (inv.opcode, inv.arg0, inv.arg1, inv.reply)

/-- A test that the replies of all invocations with a command's opcode and arguments
pass. -/
theorem reply_of_views {log : List Invocation} {cmd : Cmd} {p : Reply → Bool}
    (h : (log.map Invocation.view).all (fun v =>
      v.1 != cmd.opcode || v.2.1 != cmd.arg0 || v.2.2.1 != cmd.arg1 || p v.2.2.2) = true)
    {inv : Invocation} (hinv : inv ∈ log) (hfor : inv.For cmd) : p inv.reply = true := by
  have hv := List.all_eq_true.mp h _ (List.mem_map_of_mem hinv)
  simpa only [Invocation.view, hfor.opcode, hfor.arg0, hfor.arg1, bne_self_eq_false,
    Bool.false_or] using hv

/-- The result registers. -/
def RegMap.result (r : RegMap) : Reply := ⟨r.resultStatus, r.resultData0, r.resultData1⟩

/-- START is set and the loop is on its way through `cmd`. -/
def Serving (cmd : Cmd) (mark : Nat) (hw : HwModel) : Prop :=
  hw.seg.reg.started = true ∧
  match hw.pc with
  | .readArg0 opcode => hw.log.length = mark ∧ opcode = cmd.opcode
  | .readArg1 opcode arg0 => hw.log.length = mark ∧ opcode = cmd.opcode ∧ arg0 = cmd.arg0
  | .callHandler opcode arg0 arg1 =>
    hw.log.length = mark ∧ opcode = cmd.opcode ∧ arg0 = cmd.arg0 ∧ arg1 = cmd.arg1
  | .writeData0 _ reply => Answered cmd mark hw.log reply
  | .writeData1 _ reply => Answered cmd mark hw.log reply ∧ hw.seg.reg.resultData0 = reply.r0
  | .writeStatus _ reply =>
    Answered cmd mark hw.log reply ∧ hw.seg.reg.resultData0 = reply.r0 ∧
    hw.seg.reg.resultData1 = reply.r1
  | .fetchAdd _ _ | .storeCount _ _ _ | .storeLastOpcode _ _ | .storeLastStatus _ | .clearStart =>
    Answered cmd mark hw.log hw.seg.reg.result
  | _ => hw.log.length = mark

/-- START is clear and the reply to `cmd` is in the result registers. -/
structure Served (cmd : Cmd) (mark : Nat) (hw : HwModel) : Prop where
  started : hw.seg.reg.started = false
  idle : hw.pc.inCommand = false
  answered : Answered cmd mark hw.log hw.seg.reg.result

/-! ## Lemmas on the log -/

theorem Answered.append {cmd : Cmd} {mark : Nat} {log : List Invocation} {reply : Reply}
    (h : Answered cmd mark log reply) (l : List Invocation) :
    Answered cmd mark (log ++ l) reply := by
  obtain ⟨inv, hinv, hfor, hrep⟩ := h
  have hlt := (List.getElem?_eq_some_iff.mp hinv).1
  exact ⟨inv, by rw [List.getElem?_append_left hlt]; exact hinv, hfor, hrep⟩

/-- The loop only ever appends to the log. -/
theorem log_step {cfg : HwModelConfig} {hw hw' : HwModel} (hs : hw.pollLoopStep cfg = some hw') :
    ∃ l, hw'.log = hw.log ++ l := by
  rcases log_step_cases hs with hl | ⟨_, _, _, _, _, _, hl⟩
  · exact ⟨[], hl.trans (List.append_nil _).symm⟩
  · exact ⟨_, hl⟩

/-! ## What a step of the loop leaves alone -/

/-- The loop does not touch what a client writes. -/
structure SameCmd (seg seg' : Segment) : Prop where
  opcode : seg'.reg.cmdOpcode = seg.reg.cmdOpcode
  arg0 : seg'.reg.cmdArg0 = seg.reg.cmdArg0
  arg1 : seg'.reg.cmdArg1 = seg.reg.cmdArg1
  dma : seg'.dma = seg.dma
  tail : seg'.tail = seg.tail

theorem sameCmd_step {cfg : HwModelConfig} {hw hw' : HwModel}
    (hs : hw.pollLoopStep cfg = some hw') : SameCmd hw.seg hw'.seg := by
  cases pollLoopStep_cases hs <;> exact ⟨rfl, rfl, rfl, rfl, rfl⟩

theorem Cmd.Held.of_same {cmd : Cmd} {seg seg' : Segment} (h : cmd.Held seg)
    (hs : SameCmd seg seg') : cmd.Held seg' :=
  ⟨hs.opcode.trans h.opcode, hs.arg0.trans h.arg0, hs.arg1.trans h.arg1,
    h.dma.congr hs.dma hs.tail⟩

/-- START stays set while the loop is in a command, and only the loop clears it. -/
theorem inCommand_step {cfg : HwModelConfig} {hw hw' : HwModel}
    (h : hw.pc.inCommand = true → hw.seg.reg.started = true)
    (hs : hw.pollLoopStep cfg = some hw') :
    hw'.pc.inCommand = true → hw'.seg.reg.started = true := by
  intro hin
  cases pollLoopStep_cases hs with
  | stay _ _ | leave _ _ | unseen _ _ | clearStart _ | raiseIrq _ => cases hin
  | writeReady _ hpc => rcases hpc with rfl | rfl <;> cases hin
  | seen _ hst => exact hst
  | callHandler hp _ => exact h (by rw [hp]; rfl)
  | readOpcode hp | readArg0 hp | readArg1 hp | writeData0 hp | writeData1 hp | writeStatus hp
  | fetchAdd hp | storeCount hp | storeLastOpcode hp | storeLastStatus hp =>
    exact h (by rw [hp]; rfl)

/-- A step of the loop never sets START. -/
theorem started_step {cfg : HwModelConfig} {hw hw' : HwModel}
    (hs : hw.pollLoopStep cfg = some hw') (h : hw'.seg.reg.started = true) :
    hw.seg.reg.started = true := by
  cases pollLoopStep_cases hs with
  | clearStart _ => simp [Segment.withReg] at h
  | _ => exact h

/-! ## Serving a command -/

/-- A loop that has fetched nothing yet will serve what is in the registers. -/
theorem serving_of_start {cmd : Cmd} {hw : HwModel} (hst : hw.seg.reg.started = true)
    (hpc : hw.pc.midCommand = false) : Serving cmd hw.log.length hw := by
  refine ⟨hst, ?_⟩
  cases hp : hw.pc <;> simp only [hp, PollPc.midCommand, PollPc.inCommand] at hpc ⊢ <;>
    first | rfl | simp at hpc

/-- A step of the loop takes a command that is being served, and that nobody has
overwritten, one step further. -/
theorem serving_step {cfg : HwModelConfig} {cmd : Cmd} {mark : Nat} {hw hw' : HwModel}
    (hheld : cmd.Held hw.seg) (h : Serving cmd mark hw) (hs : hw.pollLoopStep cfg = some hw') :
    Serving cmd mark hw' ∨ Served cmd mark hw' := by
  obtain ⟨hst, h⟩ := h
  cases pollLoopStep_cases hs with
  | readOpcode hp =>
    simp only [hp] at h
    exact .inl ⟨hst, h, hheld.opcode⟩
  | readArg0 hp =>
    simp only [hp] at h
    exact .inl ⟨hst, h.1, h.2, hheld.arg0⟩
  | readArg1 hp =>
    simp only [hp] at h
    exact .inl ⟨hst, h.1, h.2.1, h.2.2, hheld.arg1⟩
  | callHandler hp _ =>
    simp only [hp] at h
    obtain ⟨rfl, rfl, rfl, rfl⟩ := h
    -- the invocation goes to the place that was marked when START was set
    exact .inl ⟨hst, _, List.getElem?_concat_length, ⟨rfl, rfl, rfl, hheld.dma⟩, rfl⟩
  | writeData0 hp =>
    simp only [hp] at h
    exact .inl ⟨hst, h, rfl⟩
  | writeData1 hp =>
    simp only [hp] at h
    exact .inl ⟨hst, h.1, h.2, rfl⟩
  | writeStatus hp =>
    simp only [hp] at h
    obtain ⟨hans, h0, h1⟩ := h
    refine .inl ⟨hst, ?_⟩
    simp only [Segment.withReg, RegMap.result, h0, h1]
    exact hans
  | clearStart hp =>
    simp only [hp] at h
    exact .inr ⟨started_and_not_start .., rfl, h⟩
  | writeReady hp hpc =>
    simp only [hp] at h
    rcases hpc with rfl | rfl <;> exact .inl ⟨hst, h⟩
  | unseen _ hclear =>
    rw [hst] at hclear
    cases hclear
  | stay hp _ | leave hp _ | seen hp _ | fetchAdd hp | storeCount hp | storeLastOpcode hp
  | storeLastStatus hp | raiseIrq hp =>
    simp only [hp] at h
    exact .inl ⟨hst, h⟩

/-- A served command stays served until somebody sets START again. -/
theorem served_step {cfg : HwModelConfig} {cmd : Cmd} {mark : Nat} {hw hw' : HwModel}
    (h : Served cmd mark hw) (hs : hw.pollLoopStep cfg = some hw') : Served cmd mark hw' := by
  obtain ⟨hst, hidle, hans⟩ := h
  cases pollLoopStep_cases hs with
  | stay _ _ | leave _ _ | unseen _ _ | raiseIrq _ => exact ⟨hst, rfl, hans⟩
  | writeReady _ hpc => rcases hpc with rfl | rfl <;> exact ⟨hst, rfl, hans⟩
  | seen _ hset =>
    rw [hst] at hset
    cases hset
  | callHandler hp _ => rw [hp] at hidle; cases hidle
  | readOpcode hp | readArg0 hp | readArg1 hp | writeData0 hp | writeData1 hp | writeStatus hp
  | fetchAdd hp | storeCount hp | storeLastOpcode hp | storeLastStatus hp | clearStart hp =>
    rw [hp] at hidle
    cases hidle

/-- Between commands the loop leaves the result registers alone. -/
theorem result_step_idle {cfg : HwModelConfig} {hw hw' : HwModel}
    (hidle : hw.pc.inCommand = false) (hs : hw.pollLoopStep cfg = some hw') :
    hw'.seg.reg.result = hw.seg.reg.result := by
  cases pollLoopStep_cases hs with
  | writeData0 hp | writeData1 hp | writeStatus hp =>
    rw [hp] at hidle
    cases hidle
  | _ => rfl

theorem served_or_serving_step {cfg : HwModelConfig} {cmd : Cmd} {mark : Nat} {hw hw' : HwModel}
    (hheld : cmd.Held hw.seg) (h : Serving cmd mark hw ∨ Served cmd mark hw)
    (hs : hw.pollLoopStep cfg = some hw') : Serving cmd mark hw' ∨ Served cmd mark hw' := by
  rcases h with h | h
  · exact serving_step hheld h hs
  · exact .inr (served_step h hs)

end Deepspan
