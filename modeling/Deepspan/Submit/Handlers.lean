import Deepspan.Submit.Invariant

/-!
# What a submit makes of the handler's answer

The two hand-offs between a command handler and the client, over whole runs:

1. The status. `poll_loop` writes it to `RESULT_STATUS`, and no plugin reads that
   register. A call that returns is therefore answered OK whatever the status
   was: `failures_reported_iff` says that failures are reported exactly for the
   commands that do not fail, `failure_answered_ok` is an opcode that does.
2. The checksum of COMPUTE, which is that of the bytes that fit into the DMA
   window: `checksum_iff`, and `checksum_beyond_window` for a payload one byte too
   long.

`reach_logged` ties the handler to the log, in every run. The runs that fail are
built for an arbitrary call and handler from `firstSubmit_returns`: one call on
a fresh segment, without interruption.
-/

namespace Deepspan

open Transition

/-! ## The handler behind the log -/

/-- Every invocation in the log is what the handler answered, given the
invocations before it. -/
def Logged (cfg : HwModelConfig) (log : List Invocation) : Prop :=
  ∀ (i : Nat) (inv : Invocation), log[i]? = some inv →
    cfg.cmdHandler (log.take i) inv.opcode inv.arg0 inv.arg1 inv.seg = some inv.reply

theorem Logged.concat {cfg : HwModelConfig} {log : List Invocation} {inv : Invocation}
    (h : Logged cfg log)
    (hinv : cfg.cmdHandler log inv.opcode inv.arg0 inv.arg1 inv.seg = some inv.reply) :
    Logged cfg (log ++ [inv]) := by
  intro i b hb
  rcases getElem?_concat_cases hb with hb | ⟨rfl, rfl⟩
  · have hlt := (List.getElem?_eq_some_iff.mp hb).1
    rw [List.take_append_of_le_length (Nat.le_of_lt hlt)]
    exact h i b hb
  · rw [List.take_left]
    exact hinv

theorem logged_step {cfg : HwModelConfig} {hw hw' : HwModel} (h : Logged cfg hw.log)
    (hs : hw.pollLoopStep cfg = some hw') : Logged cfg hw'.log := by
  rcases log_step_cases hs with hl | ⟨_, _, _, _, _, hreply, hl⟩
  · rw [hl]
    exact h
  · rw [hl]
    exact h.concat hreply

theorem reach_logged {kind : PluginKind} {cfg : HwModelConfig} {G : SubmitState → SubmitAct → Prop}
    {s : SubmitState} (h : Reach (submitSystem kind cfg) G s) : Logged cfg s.hw.log := by
  refine h.invariant (P := fun s => Logged cfg s.hw.log) ?_ ?_
  · rintro _ ⟨t, rfl⟩ i inv hinv
    cases hinv
  · intro s a s' hinv _ hs
    rcases SubmitState.step_cases hs with ⟨_, _, hhw, _, _⟩ | ⟨_, _, _, _, _, _, _, hhw, _⟩ |
        ⟨_, hdev, _⟩ | ⟨_, _, _, hhw, _⟩
    · rw [hhw]
      exact hinv
    · rw [hhw]
      exact hinv
    · exact logged_step hinv hdev
    · rw [hhw]
      exact hinv

/-! ## One call on a fresh segment -/

/-- A fresh segment with a command in it and START set. -/
def commandSegment (cmd : Cmd) : Segment :=
  ((hwModelInit 0 .zero).seg.copyDma cmd.dma).withReg fun r =>
    { r with cmdOpcode := cmd.opcode, cmdArg0 := cmd.arg0, cmdArg1 := cmd.arg1,
             ctrl := r.ctrl ||| CtrlBits.start }

/-- The handler's invocation for that command. -/
def firstInvocation (cmd : Cmd) (reply : Reply) : Invocation :=
  ⟨cmd.opcode, cmd.arg0, cmd.arg1, commandSegment cmd, reply⟩

theorem commandSegment_started (cmd : Cmd) : (commandSegment cmd).reg.started = true :=
  started_or_start .zero _

theorem firstInvocation_for (kind : PluginKind) (call : Call) (reply : Reply) :
    (firstInvocation (kind.cmd call) reply).For (kind.cmd call) :=
  ⟨rfl, rfl, rfl, (holdsDma_copyDma _ (kind.cmd_dma_length call)).congr rfl rfl⟩

/-- The segment when the loop has answered and has cleared START. -/
def answeredSegment (inv : Invocation) : Segment :=
  { inv.seg with
    reg := { inv.seg.reg with
      resultData0 := inv.reply.r0, resultData1 := inv.reply.r1, resultStatus := inv.reply.status
      ctrl := inv.seg.reg.ctrl &&& ~~~CtrlBits.start }
    stats := { inv.seg.stats with
      cmdCount := 0 + 1, lastOpcode := inv.opcode, lastResultStatus := inv.reply.status } }

theorem answeredSegment_started (inv : Invocation) :
    (answeredSegment inv).reg.started = false :=
  started_and_not_start .zero _

/-- The call writes its command. -/
theorem firstSubmit_written (kind : PluginKind) (cfg : HwModelConfig) (call : Call) :
    replay (submitSystem kind cfg) (fun s a => lockExclusive s a && deviceFree s a) (.initial 0)
      (.pluginSubmit call :: List.replicate 6 (.sub 0)) =
    some ⟨⟨commandSegment (kind.cmd call), .loop, true, 0, []⟩, [⟨0, call, .poll 0, 0⟩], 1⟩ := by
  rfl

/-- The loop answers it. -/
theorem firstSubmit_answered (kind : PluginKind) (cfg : HwModelConfig) (call : Call)
    (inv : Invocation) :
    replay (submitSystem kind cfg) (fun s a => lockExclusive s a && deviceFree s a)
      ⟨⟨inv.seg, .writeData0 inv.opcode inv.reply, true, 0, [inv]⟩, [⟨0, call, .poll 0, 0⟩], 1⟩
      (List.replicate 8 .device) =
    some ⟨⟨answeredSegment inv, .writeReady, true, 0 + 1, [inv]⟩, [⟨0, call, .poll 0, 0⟩], 1⟩ := by
  rfl

/-- Any one call whose handler answers can run to its end on its own. -/
theorem firstSubmit_returns (kind : PluginKind) (cfg : HwModelConfig) {call : Call} {reply : Reply}
    (h : cfg.cmdHandler [] (kind.cmd call).opcode (kind.cmd call).arg0 (kind.cmd call).arg1
      (commandSegment (kind.cmd call)) = some reply) :
    ∃ s, Reach (submitSystem kind cfg) Undisturbed s ∧
      s.subs = [⟨0, call, .returned reply.r0 reply.r1, 0⟩] ∧
      s.hw.log = [firstInvocation (kind.cmd call) reply] := by
  have hguard : ∀ s a, (lockExclusive s a && deviceFree s a) = true → Undisturbed s a :=
    fun _ _ hg => Bool.and_eq_true_iff.mp hg
  have hinit : Reach (submitSystem kind cfg) Undisturbed (.initial 0) := .init ⟨0, rfl⟩
  have hwritten := replay_reach hguard hinit (firstSubmit_written kind cfg call)
  have hloop := Reach.step (a := .device) hwritten ⟨rfl, rfl⟩ rfl
  -- the loop sees START
  have hseen : Reach (submitSystem kind cfg) Undisturbed
      ⟨⟨commandSegment (kind.cmd call), .readOpcode, true, 0, []⟩, [⟨0, call, .poll 0, 0⟩], 1⟩ := by
    refine .step (a := .device) hloop ⟨rfl, rfl⟩ ?_
    simp only [submitSystem, SubmitState.step, HwModel.pollLoopStep, if_true,
      commandSegment_started, Option.map_some]
  have hopcode := Reach.step (a := .device) hseen ⟨rfl, rfl⟩ rfl
  have harg0 := Reach.step (a := .device) hopcode ⟨rfl, rfl⟩ rfl
  have harg1 := Reach.step (a := .device) harg0 ⟨rfl, rfl⟩ rfl
  have hcalled : Reach (submitSystem kind cfg) Undisturbed
      ⟨⟨commandSegment (kind.cmd call), .writeData0 (kind.cmd call).opcode reply, true, 0,
        [firstInvocation (kind.cmd call) reply]⟩, [⟨0, call, .poll 0, 0⟩], 1⟩ := by
    refine .step (a := .device) harg1 ⟨rfl, rfl⟩ ?_
    show (Option.map _ (cfg.cmdHandler [] (kind.cmd call).opcode (kind.cmd call).arg0
      (kind.cmd call).arg1 (commandSegment (kind.cmd call)))).map _ = _
    rw [h]
    rfl
  have hanswered := replay_reach hguard hcalled
    (firstSubmit_answered kind cfg call (firstInvocation (kind.cmd call) reply))
  -- the call sees START clear
  have hdone : Reach (submitSystem kind cfg) Undisturbed
      ⟨⟨answeredSegment (firstInvocation (kind.cmd call) reply), .writeReady, true, 0 + 1,
        [firstInvocation (kind.cmd call) reply]⟩, [⟨0, call, .loadResult0, 0⟩], 1⟩ := by
    refine .step (a := .sub 0) hanswered ⟨rfl, rfl⟩ ?_
    have hlim : 0 < kMaxPolls := by decide
    simp only [submitSystem, SubmitState.step, SubmitState.subStep, List.getElem?_cons_zero,
      Sub.exec, hlim, if_true, answeredSegment_started]
    rfl
  have hload := Reach.step (a := .sub 0) hdone ⟨rfl, rfl⟩ rfl
  have hreturned := Reach.step (a := .sub 0) hload ⟨rfl, rfl⟩ rfl
  exact ⟨_, hreturned, rfl, rfl⟩

/-! ## 1. The status -/

/-- Whenever the handler answers this call with a status other than 0, its RPC
does not return OK. -/
def FailuresReported (kind : PluginKind) (cfg : HwModelConfig) (call : Call) : Prop :=
  ∀ (s : SubmitState) (i : Nat) (sub : Sub) (inv : Invocation) (hash : String → UInt64)
    (reply : RpcReply), Reach (submitSystem kind cfg) Undisturbed s → s.subs[i]? = some sub →
    sub.call = call → s.hw.log[sub.mark]? = some inv → inv.For (kind.cmd call) →
    inv.reply.status ≠ 0 → submitRequestReply hash kind sub = some reply → reply.code ≠ .ok

/-- One failing command is enough: its call returns like any other. -/
theorem not_failuresReported (kind : PluginKind) (cfg : HwModelConfig) {call : Call} {reply : Reply}
    (h : cfg.cmdHandler [] (kind.cmd call).opcode (kind.cmd call).arg0 (kind.cmd call).arg1
      (commandSegment (kind.cmd call)) = some reply) (hstatus : reply.status ≠ 0) :
    ¬FailuresReported kind cfg call := by
  intro hrep
  obtain ⟨s, hreach, hsubs, hlog⟩ := firstSubmit_returns kind cfg h
  have hi : s.subs[0]? = some ⟨0, call, .returned reply.r0 reply.r1, 0⟩ := by
    rw [hsubs]
    rfl
  have hinv : s.hw.log[0]? = some (firstInvocation (kind.cmd call) reply) := by
    rw [hlog]
    rfl
  have hpc : (⟨0, call, .returned reply.r0 reply.r1, 0⟩ : Sub).pc =
      .returned reply.r0 reply.r1 := rfl
  obtain ⟨rpc, hrpc, hok, _⟩ := submitRequestReply_returned (fun _ => 0) kind hpc
  exact hrep s 0 _ _ _ rpc hreach hi rfl hinv (firstInvocation_for kind call reply) hstatus hrpc hok

/-- A handler whose status depends on the opcode only. -/
theorem failuresReported_of_status (kind : PluginKind) (cfg : HwModelConfig)
    (serves : UInt32 → Bool)
    (hstatus : ∀ log opcode arg0 arg1 seg reply,
      cfg.cmdHandler log opcode arg0 arg1 seg = some reply →
        (reply.status = 0 ↔ serves opcode = true))
    (hanswers : ∀ call : Call, ∃ reply, cfg.cmdHandler [] (kind.cmd call).opcode
      (kind.cmd call).arg0 (kind.cmd call).arg1 (commandSegment (kind.cmd call)) = some reply)
    (call : Call) : FailuresReported kind cfg call ↔ serves call.opcode = true := by
  constructor
  · intro h
    obtain ⟨reply, hreply⟩ := hanswers call
    by_cases hs : serves call.opcode = true
    · exact hs
    · have hne : reply.status ≠ 0 := by
        intro h0
        have hserves := (hstatus _ _ _ _ _ _ hreply).mp h0
        rw [PluginKind.cmd_opcode] at hserves
        exact hs hserves
      exact absurd h (not_failuresReported kind cfg hreply hne)
  · intro hserves s i sub inv hash reply hreach _ _ hinv hfor hne
    have hreply := reach_logged hreach _ inv hinv
    have h0 := (hstatus _ _ _ _ _ _ hreply).mpr (by rw [hfor.opcode, PluginKind.cmd_opcode, hserves])
    exact absurd h0 hne

/-- COMPUTE, as `Crc32Plugin` submits it: the CRC-32 of what is in the window. -/
theorem crc32Handler_cmd (log : List Invocation) {call : Call}
    (hcompute : call.opcode = Crc32Op.compute) {inv : Invocation} (hfor : inv.For (crc32Cmd call)) :
    crc32Handler true log inv.opcode inv.arg0 inv.arg1 inv.seg =
      some ⟨0, crc32Ieee (call.payload.take shmDmaMaxLen), 0⟩ := by
  have hdma := hfor.dma
  rw [hfor.opcode, hfor.arg0, crc32Cmd_compute hcompute]
  rw [crc32Cmd_compute hcompute] at hdma
  have htake : call.payload.take (min call.payload.length shmDmaMaxLen) =
      call.payload.take shmDmaMaxLen := by
    rw [Nat.min_comm, ← List.take_eq_take_min]
  rw [htake] at hdma
  refine crc32Handler_compute ?_ hdma
  rw [List.length_take, Nat.min_comm, UInt32.toNat_ofNat_of_lt']
  have hle : min shmDmaMaxLen call.payload.length ≤ 0xC00 := Nat.min_le_left ..
  exact Nat.lt_of_le_of_lt hle (by decide)

/-- Neither dispatcher faults on a command that its plugin writes. -/
theorem crc32Handler_answers (baseSet : Bool) (call : Call) :
    ∃ reply, crc32Handler baseSet [] (crc32Cmd call).opcode (crc32Cmd call).arg0
      (crc32Cmd call).arg1 (commandSegment (crc32Cmd call)) = some reply := by
  by_cases hcompute : call.opcode = Crc32Op.compute
  · cases baseSet with
    | false =>
      rw [crc32Cmd_compute hcompute]
      exact ⟨_, rfl⟩
    | true =>
      have hfor := firstInvocation_for .crc32 call ⟨0, 0, 0⟩
      exact ⟨_, crc32Handler_cmd [] hcompute hfor⟩
  · have hop : (crc32Cmd call).opcode = call.opcode := PluginKind.cmd_opcode .crc32 call
    simp only [crc32Handler, deepspanCrc32Dispatch, hop, hcompute, if_false]
    split <;> exact ⟨_, rfl⟩

/-- Over every handler and every call that returns, and for the handlers of the
repository call by call: failures are reported exactly where there is none to
report. -/
theorem failures_reported_iff (autoIrq : Bool) (hash : String → UInt64) (call : Call) :
    (∀ (kind : PluginKind) (cfg : HwModelConfig) (s : SubmitState) (i : Nat) (sub : Sub)
      (r0 r1 : UInt32), Reach (submitSystem kind cfg) Undisturbed s → s.subs[i]? = some sub →
      sub.call = call → sub.pc = .returned r0 r1 → ∃ inv reply, s.hw.log[sub.mark]? = some inv ∧
        inv.For (kind.cmd call) ∧ submitRequestReply hash kind sub = some reply ∧
        ((inv.reply.status ≠ 0 → reply.code ≠ .ok) ↔ inv.reply.status = 0)) ∧
    (∀ baseSet, FailuresReported .crc32 ⟨autoIrq, crc32Handler baseSet⟩ call ↔
      crc32Serves baseSet call.opcode = true) ∧
    (FailuresReported .accel ⟨autoIrq, accelHandler⟩ call ↔ accelServes call.opcode = true) := by
  refine ⟨?_, ?_, ?_⟩
  · rintro kind cfg s i sub r0 r1 h hi rfl hpc
    obtain ⟨inv, hinv, hfor, _⟩ := (reach_inv h).ownReply hi hpc
    obtain ⟨reply, hreply, hok, _⟩ := submitRequestReply_returned hash kind hpc
    refine ⟨inv, reply, hinv, hfor, hreply, ?_⟩
    constructor
    · intro hrep
      by_cases h0 : inv.reply.status = 0
      · exact h0
      · exact absurd hok (hrep h0)
    · intro h0 hne
      exact absurd h0 hne
  · intro baseSet
    exact failuresReported_of_status .crc32 ⟨autoIrq, crc32Handler baseSet⟩ (crc32Serves baseSet)
      (fun log _ _ _ seg _ h => crc32Handler_status log seg h) (crc32Handler_answers baseSet) call
  · exact failuresReported_of_status .accel ⟨autoIrq, accelHandler⟩ accelServes
      (fun log _ _ _ seg _ h => accelHandler_status log seg h) (fun _ => ⟨_, rfl⟩) call

/-- An opcode that neither HWIP has. -/
def unknownCall : Call := ⟨"accel/0", 0x99, []⟩

/-- `deepspan_accel_dispatch` rejects it, and its RPC returns OK. -/
theorem failure_answered_ok : ¬∀ call, FailuresReported .accel { cmdHandler := accelHandler } call := by
  intro h
  have hreply : accelHandler [] (accelCmd unknownCall).opcode (accelCmd unknownCall).arg0
      (accelCmd unknownCall).arg1 (commandSegment (accelCmd unknownCall)) =
        some ⟨0xFFFFFFFF, 0, 0⟩ := by
    rfl
  exact not_failuresReported .accel { cmdHandler := accelHandler } hreply (by decide) (h unknownCall)

/-! ## 2. The checksum -/

/-- COMPUTE of this payload fails with an error or answers with its CRC-32. -/
def ChecksumRight (cfg : HwModelConfig) (deviceId : String) (payload : List UInt8) : Prop :=
  ∀ (s : SubmitState) (i : Nat) (sub : Sub), Reach (submitSystem .crc32 cfg) Undisturbed s →
    s.subs[i]? = some sub → sub.call = ⟨deviceId, Crc32Op.compute, payload⟩ →
    sub.pc.ended = true →
    (∃ what, sub.error? .crc32 = some what) ∨
    ∃ res, sub.result? = some res ∧ readLe32 res.responseData = some (crc32Ieee payload)

/-- A COMPUTE that returns has the CRC-32 of the bytes that fit into the window. -/
theorem compute_result {autoIrq : Bool} {s : SubmitState}
    (h : Reach (submitSystem .crc32 ⟨autoIrq, crc32Handler true⟩) Undisturbed s) {i : Nat}
    {sub : Sub} {r0 r1 : UInt32} (hi : s.subs[i]? = some sub)
    (hcompute : sub.call.opcode = Crc32Op.compute) (hpc : sub.pc = .returned r0 r1) :
    r0 = crc32Ieee (sub.call.payload.take shmDmaMaxLen) := by
  have hok := (reach_inv h).calls i sub hi
  unfold SubOk at hok
  rw [hpc] at hok
  obtain ⟨status, inv, hinv, hfor, hrep⟩ := hok
  have hreply := reach_logged h _ inv hinv
  have hcmd := crc32Handler_cmd (s.hw.log.take sub.mark) hcompute hfor
  have heq : inv.reply = ⟨0, crc32Ieee (sub.call.payload.take shmDmaMaxLen), 0⟩ :=
    Option.some.inj (hreply.symm.trans hcmd)
  rw [hrep] at heq
  exact congrArg Reply.r0 heq

/-- One COMPUTE on a fresh segment. -/
theorem firstCompute_returns (autoIrq : Bool) (deviceId : String) (payload : List UInt8) :
    ∃ s, Reach (submitSystem .crc32 ⟨autoIrq, crc32Handler true⟩) Undisturbed s ∧
      s.subs[0]? = some ⟨0, ⟨deviceId, Crc32Op.compute, payload⟩,
        .returned (crc32Ieee (payload.take shmDmaMaxLen)) 0, 0⟩ := by
  have hfor := firstInvocation_for .crc32 ⟨deviceId, Crc32Op.compute, payload⟩ ⟨0, 0, 0⟩
  obtain ⟨s, hreach, hsubs, _⟩ := firstSubmit_returns .crc32 ⟨autoIrq, crc32Handler true⟩
    (crc32Handler_cmd [] rfl hfor)
  exact ⟨s, hreach, by rw [hsubs]; rfl⟩

/-- COMPUTE is right for the payloads that fit into the DMA window, and for those
that happen to have the CRC-32 of their first 3072 bytes. -/
theorem checksum_iff (autoIrq : Bool) (deviceId : String) (payload : List UInt8) :
    ChecksumRight ⟨autoIrq, crc32Handler true⟩ deviceId payload ↔
      payload.length ≤ shmDmaMaxLen ∨
        crc32Ieee (payload.take shmDmaMaxLen) = crc32Ieee payload := by
  constructor
  · intro h
    obtain ⟨s, hreach, hi⟩ := firstCompute_returns autoIrq deviceId payload
    rcases h s 0 _ hreach hi rfl rfl with ⟨what, hwhat⟩ | ⟨res, hres, hcrc⟩
    · cases hwhat
    · cases hres
      rw [readLe32_le32_append] at hcrc
      exact .inr (Option.some.inj hcrc)
  · intro h s i sub hreach hi hcall hended
    have hcrc : crc32Ieee (payload.take shmDmaMaxLen) = crc32Ieee payload := by
      rcases h with hle | heq
      · rw [List.take_of_length_le hle]
      · exact heq
    cases hpc : sub.pc with
    | threw => exact .inl ⟨_, error?_threw .crc32 hpc⟩
    | returned r0 r1 =>
      have hr0 := compute_result hreach hi (by rw [hcall]) hpc
      rw [hcall, hcrc] at hr0
      refine .inr ⟨_, result?_returned hpc, ?_⟩
      rw [readLe32_le32_append, hr0]
    | _ =>
      rw [hpc] at hended
      cases hended

/-- Four bytes that clear the register, `n` zeros, which leave it so, and a one. -/
def paddedPayload (n : Nat) : List UInt8 :=
  (List.replicate 4 0xFF ++ List.replicate n 0x00) ++ [0x01]

theorem crc32Ieee_paddedPayload (n : Nat) :
    crc32Ieee ((paddedPayload n).take (4 + n)) ≠ crc32Ieee (paddedPayload n) := by
  have hclear : (List.replicate 4 (0xFF : UInt8) ++ List.replicate n 0x00).foldl crcUpdate
      0xFFFFFFFF = 0 := by
    have hfour : (List.replicate 4 (0xFF : UInt8)).foldl crcUpdate 0xFFFFFFFF = 0 := by
      simp only [List.replicate, List.foldl_cons, List.foldl_nil, crcUpdate_eq]
      decide +kernel
    rw [List.foldl_append, hfour, foldl_crcUpdate_zeros]
  have hone : crcUpdate 0 0x01 ≠ 0 := by
    rw [crcUpdate_eq]
    decide
  have hlen : (List.replicate 4 (0xFF : UInt8) ++ List.replicate n 0x00).length = 4 + n := by
    rw [List.length_append, List.length_replicate, List.length_replicate]
  have hall : (paddedPayload n).foldl crcUpdate 0xFFFFFFFF = crcUpdate 0 0x01 := by
    rw [paddedPayload, List.foldl_append, hclear]
    rfl
  intro heq
  rw [crc32Ieee_eq_foldl, crc32Ieee_eq_foldl, hall, paddedPayload, List.take_left' hlen,
    hclear] at heq
  have hxor := congrArg (fun c => c ^^^ 0xFFFFFFFF) heq
  simp only [UInt32.xor_assoc, UInt32.xor_self, UInt32.xor_zero] at hxor
  exact hone hxor.symm

/-- A payload of 3073 bytes whose last byte is not part of the answer. -/
theorem checksum_beyond_window :
    ¬ChecksumRight { cmdHandler := crc32Handler true } "crc32/0" (paddedPayload 3068) := by
  intro h
  rcases (checksum_iff true "crc32/0" (paddedPayload 3068)).mp h with hle | heq
  · rw [paddedPayload, List.length_append, List.length_append, List.length_replicate,
      List.length_replicate] at hle
    exact absurd hle (by decide)
  · exact crc32Ieee_paddedPayload 3068 heq

end Deepspan
