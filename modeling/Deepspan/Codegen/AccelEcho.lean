import Deepspan.Codegen.PythonSdk
import Deepspan.Server.Services
import Deepspan.Submit.Progress
import Deepspan.Submit.Sequence

/-!
# ECHO from end to end

`AccelClient.echo(arg0, arg1)` on the device `accel/N`: the generated client packs the two
arguments into a payload, `AccelPlugin::submit` reads them back into the command
registers, the hw-model's handler copies them into the result registers, the plugin packs
those into eight bytes, and the generated client unpacks the bytes. `echo_returns_args`
says that all five codecs fit together, for every pair of arguments and for every raw
payload.

The runs are those of one client: calls one after another. What an answer holds is said of
every such run and of those with timeouts in which no call sets START under a loop that is
in the middle of a command (`Undisturbed`); that an answer can always be had, of the runs
in which no call uses up its polls.
-/

namespace Deepspan

open Transition

/-! ## The codecs -/

/-- The little-endian word of four bytes, taken apart again. -/
theorem le32_readLe32 {bytes : List UInt8} (h : 4 ≤ bytes.length) :
    le32 ((readLe32 bytes).getD 0) = bytes.take 4 := by
  match bytes, h with
  | b0 :: b1 :: b2 :: b3 :: rest, _ =>
    have h0 := b0.toNat_lt
    have h1 := b1.toNat_lt
    have h2 := b2.toNat_lt
    have h3 := b3.toNat_lt
    simp only [readLe32, Option.getD_some, le32, UInt32.toNat_ofNat', List.take_succ_cons,
      List.take_zero, List.cons.injEq, and_true]
    refine ⟨?_, ?_, ?_, ?_⟩ <;> apply UInt8.toNat_inj.mp <;> rw [UInt8.toNat_ofNat'] <;> omega

/-- What ECHO makes of a payload: its first eight bytes, with zeros for a word that is not
all there. -/
def echoBytes (payload : List UInt8) : List UInt8 :=
  if 8 ≤ payload.length then payload.take 8
  else if 4 ≤ payload.length then payload.take 4 ++ [0, 0, 0, 0]
  else [0, 0, 0, 0, 0, 0, 0, 0]

/-- Payload to registers and registers to bytes. -/
theorem le32_fixedArgs (payload : List UInt8) :
    le32 (fixedArgs payload).1 ++ le32 (fixedArgs payload).2 = echoBytes payload := by
  unfold fixedArgs echoBytes
  by_cases h8 : 8 ≤ payload.length
  · have h4 : 4 ≤ payload.length := by omega
    have hdrop : 4 ≤ (payload.drop 4).length := by
      rw [List.length_drop]
      omega
    simp only [if_pos h8, if_pos h4, le32_readLe32 h4, le32_readLe32 hdrop]
    rw [← List.take_add]
  · by_cases h4 : 4 ≤ payload.length
    · simp only [if_neg h8, if_pos h4, le32_readLe32 h4]
      rfl
    · simp only [if_neg h8, if_neg h4]
      rfl

/-- The generated `encode_payload` and the bytes that come back. -/
theorem echoBytes_words (a0 a1 : UInt32) : echoBytes (le32 a0 ++ le32 a1) = le32 a0 ++ le32 a1 := by
  rw [echoBytes, if_pos (by simp)]
  exact List.take_of_length_le (by simp)

/-- The request of `echo`. -/
theorem accelEcho_submission {arg0 arg1 : Int} (h0 : 0 ≤ arg0 ∧ arg0 < 2 ^ 32)
    (h1 : 0 ≤ arg1 ∧ arg1 < 2 ^ 32) :
    accelEcho.submission? [.int arg0, .int arg1] =
      some (0x0001, le32 (UInt32.ofInt arg0) ++ le32 (UInt32.ofInt arg1)) := by
  have hvalid : accelEcho.validRequest [.int arg0, .int arg1] = true := by
    have hlt0 : arg0 < 4294967296 := h0.2
    have hlt1 : arg1 < 4294967296 := h1.2
    simp [OperationDef.validRequest, accelEcho, OpField.accepts, FieldType.bound?, h0.1, h1.1, hlt0,
      hlt1]
  have hpayload : accelEcho.payload [.int arg0, .int arg1] =
      le32 (UInt32.ofInt arg0) ++ le32 (UInt32.ofInt arg1) := by
    simp [OperationDef.payload, accelEcho, encodePayload]
  rw [OperationDef.submission?, if_pos hvalid, hpayload]
  rfl

/-- The response to the eight bytes of the plugin: both words. -/
theorem accelEcho_response (r0 r1 : UInt32) :
    accelEcho.response? accelDescriptor (le32 r0 ++ le32 r1) =
      some [("data0", .int r0.toNat), ("data1", .int r1.toNat)] := by
  have hword0 : unpackWord (le32 r0 ++ le32 r1) 0 = r0.toNat := by
    rw [unpackWord, if_pos (by simp), List.drop_zero, readLe32_le32_append, Option.getD_some]
  have hword1 : unpackWord (le32 r0 ++ le32 r1) 4 = r1.toNat := by
    have hdrop : (le32 r0 ++ le32 r1).drop 4 = le32 r1 ++ [] := by
      rw [List.append_nil]
      exact List.drop_left' (le32_length r0)
    rw [unpackWord, if_pos (by simp), hdrop, readLe32_le32_append, Option.getD_some]
  have hdecode : accelEcho.response? accelDescriptor (le32 r0 ++ le32 r1) =
      some [("data0", .int (unpackWord (le32 r0 ++ le32 r1) 0)),
        ("data1", .int (unpackWord (le32 r0 ++ le32 r1) 4))] := by
    rfl
  rw [hdecode, hword0, hword1]

/-! ## The runs -/

/-- The hw-model runs `deepspan_accel_dispatch` or the default handler. -/
def HwModelConfig.Accelerator (cfg : HwModelConfig) : Prop :=
  cfg.cmdHandler = accelHandler ∨ cfg.cmdHandler = defaultHandler

section Runs

variable {cfg : HwModelConfig} {s : SubmitState} {i : Nat} {sub : Sub}

theorem HwModelConfig.Accelerator.answers (hcfg : cfg.Accelerator) : cfg.Answers := by
  intro log opcode arg0 arg1 seg
  rcases hcfg with h | h
  · rw [h]
    exact ⟨_, rfl⟩
  · rw [h]
    exact ⟨_, rfl⟩

theorem HwModelConfig.Accelerator.echo (hcfg : cfg.Accelerator) (log : List Invocation)
    (arg0 arg1 : UInt32) (seg : Segment) :
    cfg.cmdHandler log AccelOp.echo arg0 arg1 seg = some ⟨0, arg0, arg1⟩ := by
  rcases hcfg with h | h
  · rw [h]
    rfl
  · rw [h]
    rfl

/-- An ECHO that returns has the words of its payload. -/
theorem echo_result (hcfg : cfg.Accelerator) (h : Reach (submitSystem .accel cfg) Undisturbed s)
    {r0 r1 : UInt32} (hi : s.subs[i]? = some sub) (hecho : sub.call.opcode = AccelOp.echo)
    (hpc : sub.pc = .returned r0 r1) : le32 r0 ++ le32 r1 = echoBytes sub.call.payload := by
  obtain ⟨inv, hinv, hfor, hres⟩ := (reach_inv h).ownReply hi hpc
  have hreply := reach_logged h _ inv hinv
  have hop : inv.opcode = AccelOp.echo := hfor.opcode.trans hecho
  have harg0 : inv.arg0 = (fixedArgs sub.call.payload).1 := hfor.arg0
  have harg1 : inv.arg1 = (fixedArgs sub.call.payload).2 := hfor.arg1
  rw [hop, harg0, harg1, hcfg.echo, Option.some.injEq] at hreply
  rw [hres, ← hreply, le32_fixedArgs]

/-- Runs of calls one after another without timeouts are undisturbed. -/
theorem reach_undisturbed {kind : PluginKind}
    (h : Reach (submitSystem kind cfg) (Sequential noPollLimit) s) :
    Reach (submitSystem kind cfg) Undisturbed s := by
  refine (reach_lockExclusive h).strengthen (P := Settled kind) ?_ ?_ ?_
  · rintro _ ⟨t, rfl⟩
    exact settled_init kind t
  · intro s a s' hinv hg hs
    exact settled_step hinv hg.1 hg.2 hs
  · intro s a hinv hg
    exact ⟨hg.1, hinv.deviceFree a⟩

end Runs

/-- The request is answered, and the answer is right: whatever run answers it OK does so
with such bytes, a call made after another never fails, and while the hw-model is alive
and polls are left an answer can be had. -/
structure AnsweredRight (cfg : HwModelConfig) (call : Call) (right : List UInt8 → Prop) : Prop where
  only : ∀ (s : SubmitState) (i : Nat) (sub : Sub) (hash : String → UInt64) (reply : RpcReply),
    Reach (submitSystem .accel cfg) Undisturbed s → s.subs[i]? = some sub → sub.call = call →
    submitRequestReply hash .accel sub = some reply → reply.code = .ok → right reply.result
  ok : ∀ (s : SubmitState) (i : Nat) (sub : Sub) (hash : String → UInt64) (reply : RpcReply),
    Reach (submitSystem .accel cfg) (Sequential noPollLimit) s → s.subs[i]? = some sub →
    sub.call = call → submitRequestReply hash .accel sub = some reply → reply.code = .ok
  returns : ∀ (s : SubmitState) (i : Nat) (sub : Sub) (hash : String → UInt64),
    Reach (submitSystem .accel cfg) (Sequential noPollLimit) s → s.hw.Alive →
    s.subs[i]? = some sub → sub.call = call → sub.pc.belowLimit = true →
    ∃ (s' : SubmitState) (sub' : Sub) (reply : RpcReply),
      Reach ((submitSystem .accel cfg).startedAt s) (Sequential noPollLimit) s' ∧
      s'.subs[i]? = some sub' ∧ sub'.call = call ∧
      submitRequestReply hash .accel sub' = some reply ∧ reply.code = .ok ∧ right reply.result

/-- Every ECHO is answered with its payload's words. -/
theorem echo_answeredRight {cfg : HwModelConfig} (hcfg : cfg.Accelerator) {call : Call}
    (hecho : call.opcode = AccelOp.echo) :
    AnsweredRight cfg call fun raw => raw = echoBytes call.payload := by
  constructor
  · rintro s i sub hash reply h hi rfl hreply hok
    obtain ⟨r0, r1, hpc, hres⟩ := submitRequestReply_ok hreply hok
    rw [hres]
    exact echo_result hcfg h hi hecho hpc
  · rintro s i sub hash reply h hi rfl hreply
    have hthrew := (reach_inStep h).noThrow i sub hi
    cases hp : sub.pc with
    | returned r0 r1 =>
      obtain ⟨reply', hreply', hok, _⟩ := submitRequestReply_returned hash .accel hp
      rw [Option.some.inj (hreply.symm.trans hreply')]
      exact hok
    | threw => exact absurd hp hthrew
    | _ =>
      simp only [submitRequestReply, Sub.result?, Sub.error?, hp] at hreply
      cases hreply
  · rintro s i sub hash h halive hi rfl hlimit
    have hstep := reach_inStep h
    obtain ⟨s', sub', r0, r1, hreach, hi', hcall, hpc⟩ := submit_returns hcfg.answers hstep.ordered
      halive hi hlimit (hstep.noThrow i sub hi)
    obtain ⟨reply, hreply, hok, hres⟩ := submitRequestReply_returned hash .accel hpc
    refine ⟨s', sub', reply, hreach, hi', hcall, hreply, hok, ?_⟩
    have hresult := echo_result hcfg (reach_undisturbed (h.continues hreach)) hi' (hcall ▸ hecho) hpc
    rw [hres, hresult, hcall]

theorem AnsweredRight.mono {cfg : HwModelConfig} {call : Call} {right right' : List UInt8 → Prop}
    (h : AnsweredRight cfg call right) (himp : ∀ raw, right raw → right' raw) :
    AnsweredRight cfg call right' where
  only := fun s i sub hash reply hreach hi hcall hreply hok =>
    himp _ (h.only s i sub hash reply hreach hi hcall hreply hok)
  ok := h.ok
  returns := by
    intro s i sub hash hreach halive hi hcall hlimit
    obtain ⟨s', sub', reply, hreach', hi', hcall', hreply, hok, hright⟩ :=
      h.returns s i sub hash hreach halive hi hcall hlimit
    exact ⟨s', sub', reply, hreach', hi', hcall', hreply, hok, himp _ hright⟩

/-- `AccelClient.echo(arg0, arg1)` on this device returns its arguments. -/
def EchoReturnsArgs (cfg : HwModelConfig) (deviceId : String) (arg0 arg1 : Int) : Prop :=
  ∃ opcode payload call, accelEcho.submission? [.int arg0, .int arg1] = some (opcode, payload) ∧
    submitRequestCall deviceId opcode payload = some call ∧
    AnsweredRight cfg call fun raw => accelEcho.response? accelDescriptor raw =
      some [("data0", .int arg0), ("data1", .int arg1)]

/-- On every device `accel/N` whose hw-model echoes: the id leads to a plugin on segment
`N`, `AccelClient.echo` returns its arguments, and a raw ECHO returns the words of its
payload. -/
theorem echo_returns_args {cfg : HwModelConfig} (hcfg : cfg.Accelerator) {reg : HwipRegistry}
    (hreg : reg.find? "accel".toList = some .accel) {n : Nat} (hn : n ≤ intMax) :
    (∀ shm seg, shm n = .mapped seg →
      (submitRequestStart reg shm (deviceIdOf "accel".toList n)).result =
        .ok ⟨.accel, deviceIdOf "accel".toList n, n, some seg⟩) ∧
    (∀ arg0 arg1 : Int, 0 ≤ arg0 ∧ arg0 < 2 ^ 32 → 0 ≤ arg1 ∧ arg1 < 2 ^ 32 →
      EchoReturnsArgs cfg (String.ofList (deviceIdOf "accel".toList n)) arg0 arg1) ∧
    ∀ payload, AnsweredRight cfg
      ⟨String.ofList (deviceIdOf "accel".toList n), AccelOp.echo, payload⟩
        fun raw => raw = echoBytes payload := by
  refine ⟨?_, ?_, fun payload => echo_answeredRight hcfg rfl⟩
  · intro shm seg hseg
    have hkind : reg.factoryFor (deviceIdOf "accel".toList n) = some .accel := by
      rw [factoryFor_deviceIdOf, if_neg (by decide)]
      exact hreg
    have hidx := index_deviceIdOf "accel".toList hn
    rw [submitRequestStart, submitterFor_some hkind, construct_mapped .accel
      (index_deviceIdOf_nonneg "accel".toList hn) (by rw [hidx]; exact hseg), hidx]
    rfl
  · intro arg0 arg1 h0 h1
    refine ⟨_, _, _, accelEcho_submission h0 h1, rfl, ?_⟩
    refine (echo_answeredRight hcfg rfl).mono fun raw hraw => ?_
    rw [hraw, echoBytes_words, accelEcho_response, toNat_ofInt h0.1 h0.2, toNat_ofInt h1.1 h1.2]

theorem echo_returns_args_accel0 :
    EchoReturnsArgs { cmdHandler := accelHandler } "accel/0" 0xDEADBEEF 0xCAFEBABE ∧
    EchoReturnsArgs {} "accel/0" 1 2 := by
  have hdispatch : HwModelConfig.Accelerator { cmdHandler := accelHandler } := .inl rfl
  have hdefault : HwModelConfig.Accelerator {} := .inr rfl
  have hreg : accelRegistry.find? "accel".toList = some .accel := by decide
  have hid : String.ofList (deviceIdOf "accel".toList 0) = "accel/0" := by decide
  rw [← hid]
  exact ⟨(echo_returns_args hdispatch hreg (Nat.zero_le _)).2.1 _ _ (by decide) (by decide),
    (echo_returns_args hdefault hreg (Nat.zero_le _)).2.1 _ _ (by decide) (by decide)⟩

end Deepspan
