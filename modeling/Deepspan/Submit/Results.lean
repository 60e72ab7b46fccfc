import Deepspan.Submit.Invariant

/-!
# Whose result does a submit return?

`submit_mutex_` belongs to a plugin instance, and `HwipRegistry::create` makes a
new instance for every `SubmitRequest`, so the mutexes of two RPCs to the same
device never meet. The results:

1. `submitRequest_own_reply`: RPCs whose submits do not overlap on the segment
   get their own results; `submitRequest_mixed_reply`: RPCs as the server runs
   them, one instance each, can return the result of another RPC.
2. `submit_own_reply_after_timeout`: on one plugin instance, timeouts included,
   a submit that returns has its own result as long as no submit sets START while
   the hw-model is in the middle of an abandoned command;
   `submit_stale_reply_after_timeout`: without that condition the submit behind
   a timeout can return the abandoned command's result.
-/

namespace Deepspan

open Transition

/-! ## 1. Concurrent RPCs -/

/-- In every run in which no submit takes its mutex while another submit on the
segment holds one, and none reaches its poll limit, every RPC that returns OK
carries the words that the handler produced for its own opcode and payload. -/
theorem submitRequest_own_reply {kind : PluginKind} {cfg : HwModelConfig} {s : SubmitState}
    (h : Reach (submitSystem kind cfg) Prompt s) (hash : String → UInt64) {i : Nat} {sub : Sub}
    {reply : RpcReply} (hi : s.subs[i]? = some sub)
    (hreply : submitRequestReply hash kind sub = some reply) (hok : reply.code = .ok) :
    OwnReply kind s sub reply.result := by
  obtain ⟨r0, r1, hpc, hres⟩ := submitRequestReply_ok hreply hok
  rw [hres]
  exact (reach_settled h).toInv.ownReply hi hpc

/-- The calls and the handler invocations of a state. -/
def SubmitState.view (s : SubmitState) : List Sub × List (UInt32 × UInt32 × UInt32 × Reply) :=
  (s.subs, s.hw.log.map Invocation.view)

/-- No invocation that `view` lists for this command had this reply. -/
theorem not_answered_of_view {s : SubmitState} {cmd : Cmd} {result : List UInt8}
    (h : s.view.2.all (fun v => v.1 != cmd.opcode || v.2.1 != cmd.arg0 || v.2.2.1 != cmd.arg1 ||
      result != le32 v.2.2.2.r0 ++ le32 v.2.2.2.r1) = true) {inv : Invocation}
    (hinv : inv ∈ s.hw.log) (hfor : inv.For cmd) :
    result ≠ le32 inv.reply.r0 ++ le32 inv.reply.r1 :=
  bne_iff_ne.mp (reply_of_views (p := fun reply => result != le32 reply.r0 ++ le32 reply.r1) h hinv
    hfor)

/-- Two ECHO requests to the same device. -/
def echoA : Call := ⟨"accel/0", AccelOp.echo, le32 1 ++ le32 2⟩
def echoB : Call := ⟨"accel/0", AccelOp.echo, le32 3 ++ le32 4⟩

/-- RPC A is served and sees START clear; then RPC B, which holds another mutex,
runs its command; then A reads the result registers. -/
def overlappingRun : List SubmitAct :=
  schedule [(1, .submitRequest echoA), (1, .submitRequest echoB), (6, .sub 0), (16, .device),
    (1, .sub 0), (6, .sub 1), (16, .device), (2, .sub 0)]

/-- Every RPC with a plugin instance of its own, no poll limit reached, and yet
an RPC returns OK with words that the handler never produced for its command. -/
theorem submitRequest_mixed_reply :
    ∃ (s : SubmitState) (sub : Sub) (reply : RpcReply),
      Reach (submitSystem .accel {}) (fun s a => noPollLimit s a = true) s ∧
      s.subs[0]? = some sub ∧ submitRequestReply (fun _ => 0) .accel sub = some reply ∧
      reply.code = .ok ∧ ∀ inv ∈ s.hw.log, inv.For (accelCmd sub.call) →
        reply.result ≠ le32 inv.reply.r0 ++ le32 inv.reply.r1 := by
  obtain ⟨s, hrun, hview⟩ := Option.map_eq_some_iff.mp (show
    (replay (submitSystem .accel {}) noPollLimit (.initial 0) overlappingRun).map
      SubmitState.view = some
        ([⟨1, echoA, .returned 3 4, 0⟩, ⟨2, echoB, .poll 0, 1⟩],
          [(1, 1, 2, ⟨0, 1, 2⟩), (1, 3, 4, ⟨0, 3, 4⟩)]) by decide)
  have hsubs : s.subs = [⟨1, echoA, .returned 3 4, 0⟩, ⟨2, echoB, .poll 0, 1⟩] :=
    congrArg Prod.fst hview
  have hinit : Reach (submitSystem .accel {}) (fun s a => noPollLimit s a = true) (.initial 0) :=
    .init ⟨0, rfl⟩
  have hreach := replay_reach (fun _ _ h => h) hinit hrun
  refine ⟨s, ⟨1, echoA, .returned 3 4, 0⟩, ⟨.ok, "", 0, le32 3 ++ le32 4⟩, hreach,
    by rw [hsubs]; rfl, by decide, rfl, ?_⟩
  intro inv hinv hfor
  refine not_answered_of_view ?_ hinv hfor
  rw [hview]
  decide

/-- The run of `submitRequest_own_reply` on which RPC B waits until A is done. -/
def serialisedRun : List SubmitAct :=
  schedule [(1, .submitRequest echoA), (1, .submitRequest echoB), (6, .sub 0), (16, .device),
    (3, .sub 0), (6, .sub 1), (16, .device), (3, .sub 1)]

theorem submitRequest_own_reply_two :
    ∃ (s : SubmitState) (sub : Sub) (reply : RpcReply),
      s.subs[1]? = some sub ∧ sub.call = echoB ∧
      submitRequestReply (fun _ => 0) .accel sub = some reply ∧ OwnReply .accel s sub reply.result := by
  obtain ⟨s, hrun, hview⟩ := Option.map_eq_some_iff.mp (show
    (replay (submitSystem .accel {}) (fun s a => lockExclusive s a && noPollLimit s a) (.initial 0)
      serialisedRun).map (fun s => s.subs) = some
        [⟨1, echoA, .returned 1 2, 0⟩, ⟨2, echoB, .returned 3 4, 1⟩] by decide)
  have hinit : Reach (submitSystem .accel {}) Prompt (.initial 0) := .init ⟨0, rfl⟩
  have hreach := replay_reach (fun _ _ h => Bool.and_eq_true_iff.mp h) hinit hrun
  have hi : s.subs[1]? = some ⟨2, echoB, .returned 3 4, 1⟩ := by rw [hview]; rfl
  exact ⟨s, _, _, hi, rfl, rfl, submitRequest_own_reply hreach (fun _ => 0) hi rfl rfl⟩

/-! ## 2. Timeouts on one plugin -/

/-- On one plugin instance, called again only after the last call has ended, by
a result or by its timeout error: as long as no call sets START while the poll
loop is between its read of `CMD_OPCODE` and its clearing of START, every call
that returns has the words of the handler invocation made for its own command. -/
theorem submit_own_reply_after_timeout {kind : PluginKind} {cfg : HwModelConfig} {s : SubmitState}
    (h : Reach (submitSystem kind cfg) (Sequential deviceFree) s) {i : Nat} {sub : Sub}
    {r0 r1 : UInt32} (hi : s.subs[i]? = some sub) (hpc : sub.pc = .returned r0 r1) :
    OwnReply kind s sub (le32 r0 ++ le32 r1) :=
  (reach_inv (reach_lockExclusive h)).ownReply hi hpc

/-- While START stays set a call can use up any number of its polls. -/
theorem reach_polls {kind : PluginKind} {cfg : HwModelConfig} {G : SubmitState → SubmitAct → Prop}
    {s : SubmitState} {i k : Nat} {sub : Sub}
    (hG : ∀ s sub n, s.subs[i]? = some sub → sub.pc = .poll n → G s (.sub i))
    (h : Reach (submitSystem kind cfg) G s) (hi : s.subs[i]? = some sub) (hpc : sub.pc = .poll k)
    (hst : s.hw.seg.reg.started = true) (n : Nat) (hn : k + n ≤ kMaxPolls) :
    Reach (submitSystem kind cfg) G
      { s with subs := s.subs.set i { sub with pc := .poll (k + n) } } := by
  induction n with
  | zero =>
    have hsub : { sub with pc := .poll (k + 0) } = sub := by
      rw [Nat.add_zero, ← hpc]
    obtain ⟨hlt, hget⟩ := List.getElem?_eq_some_iff.mp hi
    have hset : s.subs.set i sub = s.subs := by
      rw [← hget]
      exact List.set_getElem_self hlt
    rw [hsub, hset]
    exact h
  | succ n ih =>
    refine .step (ih (by omega)) (hG _ _ _ (getElem?_set_self_of hi) rfl) ?_
    have hlt : k + n < kMaxPolls := by omega
    simp only [submitSystem, SubmitState.step, SubmitState.subStep, getElem?_set_self_of hi,
      Sub.exec, hlt, hst, if_true, List.set_set]
    rfl

/-- Call A sets START and the hw-model fetches its command; the handler is slow. -/
def abandonedRun : List SubmitAct :=
  schedule [(1, .pluginSubmit echoA), (6, .sub 0), (5, .device)]

/-- `abandonedRun`, then all the polls of call A, then `rest`. -/
def replayTimeout (g : SubmitState → SubmitAct → Bool) (rest : List SubmitAct) :
    Option SubmitState :=
  (replay (submitSystem .accel {}) g (.initial 0) abandonedRun).bind fun s =>
    replay (submitSystem .accel {}) g
      { s with subs := s.subs.set 0 ⟨0, echoA, .poll kMaxPolls, 0⟩ } rest

theorem replayTimeout_reach {g : SubmitState → SubmitAct → Bool}
    {G : SubmitState → SubmitAct → Prop} {rest : List SubmitAct} {s : SubmitState}
    (hG : ∀ s a, g s a = true → G s a)
    (hpoll : ∀ s sub n, s.subs[0]? = some sub → sub.pc = .poll n → G s (.sub 0))
    (hrun : replayTimeout g rest = some s) : Reach (submitSystem .accel {}) G s := by
  obtain ⟨s1, hrun1, hrun2⟩ := Option.bind_eq_some_iff.mp hrun
  have hwait : (replay (submitSystem .accel {}) (fun _ _ => true) (.initial 0) abandonedRun).map
      (fun s => (s.subs[0]?, s.hw.seg.reg.started)) =
        some (some ⟨0, echoA, .poll 0, 0⟩, true) := by decide
  rw [replay_mono (fun _ _ _ => rfl) hrun1, Option.map_some, Option.some.injEq,
    Prod.mk.injEq] at hwait
  have hinit : Reach (submitSystem .accel {}) G (.initial 0) := .init ⟨0, rfl⟩
  have hpolls := reach_polls hpoll (replay_reach hG hinit hrun1) hwait.1 rfl hwait.2 kMaxPolls
    (by decide)
  rw [Nat.zero_add] at hpolls
  exact replay_reach hG hpolls hrun2

/-- Call A throws, and the hw-model then finishes its command before B starts. -/
def recoveredRun : List SubmitAct :=
  schedule [(1, .sub 0), (11, .device), (1, .pluginSubmit echoB), (6, .sub 1), (16, .device),
    (3, .sub 1)]

/-- A call behind a timeout that the hw-model has recovered from. -/
theorem submit_own_reply_after_recovery :
    ∃ (s : SubmitState) (sub : Sub), s.subs[1]? = some sub ∧ sub.call = echoB ∧
      OwnReply .accel s sub (le32 3 ++ le32 4) := by
  obtain ⟨s, hrun, hsubs⟩ := Option.map_eq_some_iff.mp (show
    (replayTimeout (fun s a => oneAfterAnother s a && deviceFree s a) recoveredRun).map
      (fun s => s.subs) = some
        [⟨0, echoA, .threw, 0⟩, ⟨0, echoB, .returned 3 4, 1⟩] by decide)
  have hreach : Reach (submitSystem .accel {}) (Sequential deviceFree) s :=
    replayTimeout_reach (fun _ _ h => Bool.and_eq_true_iff.mp h)
      (fun s sub n hi hpc => ⟨rfl, by simp [deviceFree, hi, hpc]⟩) hrun
  have hi : s.subs[1]? = some ⟨0, echoB, .returned 3 4, 1⟩ := by rw [hsubs]; rfl
  exact ⟨s, _, hi, rfl, submit_own_reply_after_timeout hreach hi rfl⟩

/-- Call A throws; call B finds START still set, and takes the end of A's command
for the end of its own. -/
def staleRun : List SubmitAct :=
  schedule [(1, .sub 0), (1, .pluginSubmit echoB), (6, .sub 1), (9, .device), (3, .sub 1)]

/-- On one plugin, one call after another: the call behind a timeout returns
words that the handler never produced for its command. -/
theorem submit_stale_reply_after_timeout :
    ∃ (s : SubmitState) (sub : Sub) (r0 r1 : UInt32),
      Reach (submitSystem .accel {}) (fun s a => oneAfterAnother s a = true) s ∧
      s.subs[1]? = some sub ∧ sub.pc = .returned r0 r1 ∧
      ∀ inv ∈ s.hw.log, inv.For (accelCmd sub.call) →
        le32 r0 ++ le32 r1 ≠ le32 inv.reply.r0 ++ le32 inv.reply.r1 := by
  obtain ⟨s, hrun, hview⟩ := Option.map_eq_some_iff.mp (show
    (replayTimeout oneAfterAnother staleRun).map SubmitState.view = some
      ([⟨0, echoA, .threw, 0⟩, ⟨0, echoB, .returned 1 2, 0⟩], [(1, 1, 2, ⟨0, 1, 2⟩)]) by decide)
  have hreach : Reach (submitSystem .accel {}) (fun s a => oneAfterAnother s a = true) s :=
    replayTimeout_reach (fun _ _ h => h) (fun _ _ _ _ _ => rfl) hrun
  have hsubs : s.subs = [⟨0, echoA, .threw, 0⟩, ⟨0, echoB, .returned 1 2, 0⟩] :=
    congrArg Prod.fst hview
  refine ⟨s, ⟨0, echoB, .returned 1 2, 0⟩, 1, 2, hreach, by rw [hsubs]; rfl, rfl, ?_⟩
  intro inv hinv hfor
  refine not_answered_of_view ?_ hinv hfor
  rw [hview]
  decide

end Deepspan
