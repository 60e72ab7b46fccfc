import Deepspan.Submit.System

/-!
# The invariant of the submit handshake

`Inv` relates the program point of every call to the segment and to the poll
loop. It holds in every run in which calls do not overlap (`lockExclusive`) and
no call sets START under a loop that is in the middle of a command
(`deviceFree`). Timeouts are allowed: a call that throws leaves START set, and
nothing is claimed about what the loop then does with the registers.

Without timeouts the second condition is a consequence of the first: START is
then set only while the one active call waits for it (`Settled`,
`Settled.deviceFree`).
-/

namespace Deepspan

open Transition

/-- What holds of a call at each of its program points. -/
def SubOk (kind : PluginKind) (hw : HwModel) (sub : Sub) : Prop :=
  let cmd := kind.cmd sub.call
  match sub.pc with
  | .lock | .copyDma | .threw => True
  | .storeOpcode => hw.seg.HoldsDma cmd.dma
  | .storeArg0 => hw.seg.HoldsDma cmd.dma ∧ hw.seg.reg.cmdOpcode = cmd.opcode
  | .storeArg1 =>
    hw.seg.HoldsDma cmd.dma ∧ hw.seg.reg.cmdOpcode = cmd.opcode ∧ hw.seg.reg.cmdArg0 = cmd.arg0
  | .orStart => cmd.Held hw.seg
  | .poll _ => cmd.Held hw.seg ∧ (Serving cmd sub.mark hw ∨ Served cmd sub.mark hw)
  | .loadResult0 => Served cmd sub.mark hw
  | .loadResult1 r0 => Served cmd sub.mark hw ∧ hw.seg.reg.resultData0 = r0
  | .returned r0 r1 => ∃ status, Answered cmd sub.mark hw.log ⟨status, r0, r1⟩

/-- The invariant of runs without overlap. -/
structure Inv (kind : PluginKind) (s : SubmitState) : Prop where
  /-- At most one call is between its lock and its end. -/
  excl : ∀ (i j : Nat) (a b : Sub), s.subs[i]? = some a → s.subs[j]? = some b →
    a.pc.locked = true → b.pc.locked = true → i = j
  /-- The loop is in a command only while START is set. -/
  inCommand : s.hw.pc.inCommand = true → s.hw.seg.reg.started = true
  calls : ∀ (i : Nat) (a : Sub), s.subs[i]? = some a → SubOk kind s.hw a

/-! ## One call -/

/-- A call that holds no mutex depends on the log only. -/
theorem SubOk.of_log {kind : PluginKind} {hw hw' : HwModel} {sub : Sub} (h : SubOk kind hw sub)
    (hpc : sub.pc.locked = false) {l : List Invocation} (hl : hw'.log = hw.log ++ l) :
    SubOk kind hw' sub := by
  unfold SubOk at h ⊢
  cases hp : sub.pc with
  | returned r0 r1 =>
    simp only [hp] at h ⊢
    obtain ⟨status, hans⟩ := h
    exact ⟨status, hl ▸ hans.append l⟩
  | lock | copyDma | threw => trivial
  | _ => rw [hp] at hpc; cases hpc

/-- What others have to keep for a call: its command, the log, the fact that it is
being or has been served and, once it has been served, the result registers. -/
theorem SubOk.frame {kind : PluginKind} {hw hw' : HwModel} {sub : Sub} (h : SubOk kind hw sub)
    (hsame : SameCmd hw.seg hw'.seg) (hlog : ∃ l, hw'.log = hw.log ++ l)
    (hwait : ∀ {cmd : Cmd} {mark : Nat}, cmd.Held hw.seg → Serving cmd mark hw ∨ Served cmd mark hw →
      Serving cmd mark hw' ∨ Served cmd mark hw')
    (hserved : ∀ {cmd : Cmd} {mark : Nat}, Served cmd mark hw →
      Served cmd mark hw' ∧ hw'.seg.reg.result = hw.seg.reg.result) : SubOk kind hw' sub := by
  unfold SubOk at h ⊢
  cases hp : sub.pc with
  | lock | copyDma | threw => trivial
  | storeOpcode =>
    simp only [hp] at h ⊢
    exact h.congr hsame.dma hsame.tail
  | storeArg0 =>
    simp only [hp] at h ⊢
    exact ⟨h.1.congr hsame.dma hsame.tail, hsame.opcode.trans h.2⟩
  | storeArg1 =>
    simp only [hp] at h ⊢
    exact ⟨h.1.congr hsame.dma hsame.tail, hsame.opcode.trans h.2.1, hsame.arg0.trans h.2.2⟩
  | orStart =>
    simp only [hp] at h ⊢
    exact h.of_same hsame
  | poll i =>
    simp only [hp] at h ⊢
    exact ⟨h.1.of_same hsame, hwait h.1 h.2⟩
  | loadResult0 =>
    simp only [hp] at h ⊢
    exact (hserved h).1
  | loadResult1 r0 =>
    simp only [hp] at h ⊢
    obtain ⟨hserved', hresult⟩ := hserved h.1
    exact ⟨hserved', (congrArg Reply.r0 hresult).trans h.2⟩
  | returned r0 r1 =>
    simp only [hp] at h ⊢
    obtain ⟨status, hans⟩ := h
    obtain ⟨l, hl⟩ := hlog
    exact ⟨status, hl ▸ hans.append l⟩

/-- A step of the poll loop keeps what holds of a call. -/
theorem subOk_device {kind : PluginKind} {cfg : HwModelConfig} {hw hw' : HwModel} {sub : Sub}
    (h : SubOk kind hw sub) (hs : hw.pollLoopStep cfg = some hw') : SubOk kind hw' sub :=
  h.frame (sameCmd_step hs) (log_step hs) (fun hheld hwait => served_or_serving_step hheld hwait hs)
    (fun hserved => ⟨served_step hserved hs, result_step_idle hserved.idle hs⟩)

/-- A change of CTRL that leaves START alone, and a change of `running_`, keep
what holds of a call. -/
theorem subOk_ctrl {kind : PluginKind} {hw : HwModel} {sub : Sub} {ctrl : UInt32} {running : Bool}
    (hst : { hw.seg.reg with ctrl := ctrl }.started = hw.seg.reg.started) (h : SubOk kind hw sub) :
    SubOk kind { hw with
      running := running, seg := hw.seg.withReg fun r => { r with ctrl := ctrl } } sub := by
  have hserved : ∀ {cmd : Cmd} {mark : Nat}, Served cmd mark hw → Served cmd mark { hw with
      running := running, seg := hw.seg.withReg fun r => { r with ctrl := ctrl } } := fun hc =>
    ⟨hst.trans hc.started, hc.idle, hc.answered⟩
  refine h.frame ⟨rfl, rfl, rfl, rfl, rfl⟩ ⟨[], (List.append_nil _).symm⟩ ?_
    (fun hs => ⟨hserved hs, rfl⟩)
  rintro cmd mark _ (⟨hstarted, hpc⟩ | hs)
  · exact .inl ⟨hst.trans hstarted, hpc⟩
  · exact .inr (hserved hs)

/-- A call's own step takes it from one program point's condition to the
next. START is the only step that needs the loop's cooperation. -/
theorem subOk_exec {kind : PluginKind} {hw : HwModel} {sub sub' : Sub} {seg' : Segment}
    (h : SubOk kind hw sub) (hs : sub.exec kind hw = some (sub', seg'))
    (hfree : sub.pc = .orStart → hw.pc.midCommand = false) :
    SubOk kind { hw with seg := seg' } sub' := by
  unfold SubOk at h
  cases exec_cases hs with
  | lock _ => trivial
  | copyDma _ => exact holdsDma_copyDma hw.seg (kind.cmd_dma_length sub.call)
  | storeOpcode hp =>
    simp only [hp] at h
    exact ⟨h.congr rfl rfl, rfl⟩
  | storeArg0 hp =>
    simp only [hp] at h
    exact ⟨h.1.congr rfl rfl, h.2, rfl⟩
  | storeArg1 hp =>
    simp only [hp] at h
    exact ⟨h.2.1, h.2.2, rfl, h.1.congr rfl rfl⟩
  | orStart hp =>
    simp only [hp] at h
    refine ⟨⟨h.opcode, h.arg0, h.arg1, h.dma.congr rfl rfl⟩, .inl ?_⟩
    have hstart : (hw.seg.withReg fun r => { r with ctrl := r.ctrl ||| CtrlBits.start }).reg.started
        = true := started_or_start ..
    exact serving_of_start hstart (hfree hp)
  | pollSet hp _ _ =>
    simp only [hp] at h
    exact h
  | pollClear hp _ hst =>
    -- START is down only when the command has been served
    simp only [hp] at h
    rcases h.2 with hserving | hserved
    · rw [hserving.1] at hst
      cases hst
    · exact hserved
  | pollLimit _ _ => trivial
  | loadResult0 hp =>
    simp only [hp] at h
    exact ⟨h, rfl⟩
  | loadResult1 hp =>
    simp only [hp] at h
    obtain ⟨hserved, rfl⟩ := h
    exact ⟨_, hserved.answered⟩

/-! ## Runs -/

theorem exec_call {kind : PluginKind} {hw : HwModel} {sub sub' : Sub} {seg' : Segment}
    (hs : sub.exec kind hw = some (sub', seg')) : sub'.call = sub.call := by
  cases exec_cases hs <;> rfl

theorem exec_locked {kind : PluginKind} {hw : HwModel} {sub sub' : Sub} {seg' : Segment}
    (hs : sub.exec kind hw = some (sub', seg')) : sub.pc.locked = true ∨ sub.pc = .lock := by
  cases exec_cases hs with
  | lock hp => exact .inr hp
  | pollSet hp _ _ | pollClear hp _ _ | pollLimit hp _ => exact .inl (by rw [hp]; rfl)
  | copyDma hp | storeOpcode hp | storeArg0 hp | storeArg1 hp | orStart hp | loadResult0 hp
  | loadResult1 hp => exact .inl (by rw [hp]; rfl)

/-- A call never clears START. -/
theorem exec_started {kind : PluginKind} {hw : HwModel} {sub sub' : Sub} {seg' : Segment}
    (hs : sub.exec kind hw = some (sub', seg')) (h : hw.seg.reg.started = true) :
    seg'.reg.started = true := by
  cases exec_cases hs with
  | orStart _ => exact started_or_start ..
  | _ => exact h

theorem lockExclusive_sub {s : SubmitState} {i j : Nat} {a b : Sub}
    (h : lockExclusive s (.sub i) = true) (ha : s.subs[i]? = some a) (hpc : a.pc = .lock)
    (hb : s.subs[j]? = some b) : b.pc.locked = false := by
  simp only [lockExclusive, ha, Option.all_some, hpc, bne_self_eq_false, Bool.false_or,
    List.all_eq_true] at h
  simpa using h b (List.mem_of_getElem? hb)

theorem deviceFree_sub {s : SubmitState} {i : Nat} {a : Sub} (h : deviceFree s (.sub i) = true)
    (ha : s.subs[i]? = some a) (hpc : a.pc = .orStart) : s.hw.pc.midCommand = false := by
  simpa [deviceFree, ha, hpc] using h

theorem inv_init (kind : PluginKind) (t : UInt64) : Inv kind (.initial t) := by
  constructor
  · intro i j a b ha
    cases ha
  · intro h
    cases h
  · intro i a ha
    cases ha

/-- Every step of a run without overlap and without interference keeps `Inv`. -/
theorem inv_step {kind : PluginKind} {cfg : HwModelConfig} {s s' : SubmitState} {a : SubmitAct}
    (h : Inv kind s) (hlock : lockExclusive s a = true) (hfree : deviceFree s a = true)
    (hs : s.step kind cfg a = some s') : Inv kind s' := by
  rcases SubmitState.step_cases hs with ⟨inst, call, hhw, hsubs, _⟩ |
      ⟨i, sub, sub', seg', rfl, hi, hexec, hhw, hsubs⟩ | ⟨rfl, hdev, hsubs⟩ |
      ⟨ctrl, running, hst, hhw, hsubs⟩
  · -- a new call stands before its lock
    constructor
    · intro i j b c hb hc hbl hcl
      rw [hsubs] at hb hc
      rcases getElem?_concat_cases hb with hb | ⟨_, rfl⟩
      · rcases getElem?_concat_cases hc with hc | ⟨_, rfl⟩
        · exact h.excl i j b c hb hc hbl hcl
        · cases hcl
      · cases hbl
    · rw [hhw]
      exact h.inCommand
    · intro j b hb
      rw [hsubs] at hb
      rw [hhw]
      rcases getElem?_concat_cases hb with hb | ⟨_, rfl⟩
      · exact h.calls j b hb
      · trivial
  · -- a call moves: it is the only one that holds a mutex, before or after the step
    have hother : ∀ j b, j ≠ i → s.subs[j]? = some b → b.pc.locked = false := by
      intro j b hji hb
      rcases exec_locked hexec with hl | hl
      · cases hbl : b.pc.locked with
        | false => rfl
        | true => exact absurd (h.excl j i b sub hb hi hbl hl) hji
      · exact lockExclusive_sub hlock hi hl hb
    constructor
    · intro j k b c hb hc hbl hcl
      rw [hsubs] at hb hc
      rcases getElem?_set_cases hi hb with ⟨rfl, rfl⟩ | ⟨hji, hb'⟩
      · rcases getElem?_set_cases hi hc with ⟨rfl, _⟩ | ⟨hki, hc'⟩
        · rfl
        · rw [hother k c hki hc'] at hcl
          cases hcl
      · rcases getElem?_set_cases hi hc with ⟨rfl, rfl⟩ | ⟨_, hc'⟩
        · rw [hother j b hji hb'] at hbl
          cases hbl
        · exact h.excl j k b c hb' hc' hbl hcl
    · rw [hhw]
      exact fun hin => exec_started hexec (h.inCommand hin)
    · intro j b hb
      rw [hsubs] at hb
      rw [hhw]
      rcases getElem?_set_cases hi hb with ⟨rfl, rfl⟩ | ⟨hji, hb'⟩
      · exact subOk_exec (h.calls j sub hi) hexec (deviceFree_sub hfree hi)
      · exact (h.calls j b hb').of_log (hother j b hji hb') (List.append_nil _).symm
  · -- the loop's turn
    constructor
    · intro i j b c hb hc
      rw [hsubs] at hb hc
      exact h.excl i j b c hb hc
    · exact inCommand_step h.inCommand hdev
    · intro j b hb
      rw [hsubs] at hb
      exact subOk_device (h.calls j b hb) hdev
  · -- a stop, a reset or a reader: none of them touches START
    constructor
    · intro i j b c hb hc
      rw [hsubs] at hb hc
      exact h.excl i j b c hb hc
    · rw [hhw]
      exact fun hin => hst.trans (h.inCommand hin)
    · intro j b hb
      rw [hsubs] at hb
      rw [hhw]
      exact subOk_ctrl hst (h.calls j b hb)

/-- Runs in which calls do not overlap and none sets START under a loop that is
in the middle of a command. -/
def Undisturbed (s : SubmitState) (a : SubmitAct) : Prop :=
  lockExclusive s a = true ∧ deviceFree s a = true

theorem reach_inv {kind : PluginKind} {cfg : HwModelConfig} {s : SubmitState}
    (h : Reach (submitSystem kind cfg) Undisturbed s) : Inv kind s := by
  refine h.invariant ?_ ?_
  · rintro _ ⟨t, rfl⟩
    exact inv_init kind t
  · intro s a s' hinv hg hs
    exact inv_step hinv hg.1 hg.2 hs

/-- The reply of an RPC is that of the handler invocation made for its own
command, in little-endian words. -/
def OwnReply (kind : PluginKind) (s : SubmitState) (sub : Sub) (result : List UInt8) : Prop :=
  ∃ inv, s.hw.log[sub.mark]? = some inv ∧ inv.For (kind.cmd sub.call) ∧
    result = le32 inv.reply.r0 ++ le32 inv.reply.r1

theorem Inv.ownReply {kind : PluginKind} {s : SubmitState} (h : Inv kind s) {i : Nat} {sub : Sub}
    {r0 r1 : UInt32} (hi : s.subs[i]? = some sub) (hpc : sub.pc = .returned r0 r1) :
    OwnReply kind s sub (le32 r0 ++ le32 r1) := by
  have hok := h.calls i sub hi
  unfold SubOk at hok
  rw [hpc] at hok
  obtain ⟨status, inv, hinv, hfor, hrep⟩ := hok
  exact ⟨inv, hinv, hfor, by rw [hrep]⟩

/-! ## Runs without timeouts -/

/-- Without timeouts START is set only while a call waits for it to be cleared. -/
structure Settled (kind : PluginKind) (s : SubmitState) : Prop extends Inv kind s where
  noThrow : ∀ (i : Nat) (a : Sub), s.subs[i]? = some a → a.pc ≠ .threw
  waiting : s.hw.seg.reg.started = true → ∃ (i : Nat) (a : Sub) (n : Nat),
    s.subs[i]? = some a ∧ a.pc = .poll n

/-- A loop in the middle of a command would mean a second call that waits. -/
theorem Settled.deviceFree {kind : PluginKind} {s : SubmitState} (h : Settled kind s)
    (a : SubmitAct) : deviceFree s a = true := by
  cases a with
  | sub i =>
    cases hi : s.subs[i]? with
    | none => simp only [Deepspan.deviceFree, hi, Option.all_none]
    | some b =>
      simp only [Deepspan.deviceFree, hi, Option.all_some, Bool.or_eq_true, bne_iff_ne, ne_eq,
        Bool.not_eq_eq_eq_not, Bool.not_true]
      by_cases hpc : b.pc = .orStart
      · refine .inr ?_
        cases hmid : s.hw.pc.midCommand with
        | false => rfl
        | true =>
          have hin : s.hw.pc.inCommand = true := by
            simp only [PollPc.midCommand, Bool.and_eq_true] at hmid
            exact hmid.1
          obtain ⟨j, c, n, hj, hcn⟩ := h.waiting (h.inCommand hin)
          have hij := h.excl i j b c hi hj (by rw [hpc]; rfl) (by rw [hcn]; rfl)
          subst hij
          rw [hi] at hj
          cases hj
          rw [hpc] at hcn
          cases hcn
      · exact .inl hpc
  | _ => rfl

theorem noPollLimit_sub {s : SubmitState} {i : Nat} {a : Sub} (h : noPollLimit s (.sub i) = true)
    (ha : s.subs[i]? = some a) : a.pc.belowLimit = true := by
  simpa only [noPollLimit, ha, Option.all_some] using h

/-- After a step that leaves START set, the call that took it waits, unless START
was set already and the call is not one that waits. -/
theorem exec_waits {kind : PluginKind} {hw : HwModel} {sub sub' : Sub} {seg' : Segment}
    (hs : sub.exec kind hw = some (sub', seg')) (hlim : sub.pc.belowLimit = true)
    (h : seg'.reg.started = true) :
    (∃ n, sub'.pc = .poll n) ∨ (hw.seg.reg.started = true ∧ ∀ n, sub.pc ≠ .poll n) := by
  cases exec_cases hs with
  | orStart _ => exact .inl ⟨0, rfl⟩
  | pollSet _ _ _ => exact .inl ⟨_, rfl⟩
  | pollClear _ _ hst =>
    rw [hst] at h
    cases h
  | pollLimit hp hge =>
    rw [hp] at hlim
    exact absurd (of_decide_eq_true hlim) hge
  | lock hp | copyDma hp | storeOpcode hp | storeArg0 hp | storeArg1 hp | loadResult0 hp
  | loadResult1 hp =>
    refine .inr ⟨h, fun n hn => ?_⟩
    rw [hp] at hn
    cases hn

theorem exec_noThrow {kind : PluginKind} {hw : HwModel} {sub sub' : Sub} {seg' : Segment}
    (hs : sub.exec kind hw = some (sub', seg')) (hlim : sub.pc.belowLimit = true) :
    sub'.pc ≠ .threw := by
  cases exec_cases hs with
  | pollLimit hp hge =>
    rw [hp] at hlim
    exact absurd (of_decide_eq_true hlim) hge
  | _ => simp

theorem settled_init (kind : PluginKind) (t : UInt64) : Settled kind (.initial t) where
  toInv := inv_init kind t
  noThrow := by
    intro i a ha
    cases ha
  waiting := by
    intro h
    have hzero : RegMap.zero.started = true := h
    exact absurd hzero (by decide)

theorem settled_step {kind : PluginKind} {cfg : HwModelConfig} {s s' : SubmitState} {a : SubmitAct}
    (h : Settled kind s) (hlock : lockExclusive s a = true) (hlim : noPollLimit s a = true)
    (hs : s.step kind cfg a = some s') : Settled kind s' where
  toInv := inv_step h.toInv hlock (h.deviceFree a) hs
  noThrow := by
    intro j b hb
    rcases SubmitState.step_cases hs with ⟨inst, call, _, hsubs, _⟩ |
        ⟨i, sub, sub', seg', rfl, hi, hexec, _, hsubs⟩ | ⟨_, _, hsubs⟩ | ⟨_, _, _, _, hsubs⟩ <;>
      rw [hsubs] at hb
    · rcases getElem?_concat_cases hb with hb | ⟨_, rfl⟩
      · exact h.noThrow j b hb
      · exact fun hpc => by cases hpc
    · rcases getElem?_set_cases hi hb with ⟨rfl, rfl⟩ | ⟨_, hb⟩
      · exact exec_noThrow hexec (noPollLimit_sub hlim hi)
      · exact h.noThrow j b hb
    · exact h.noThrow j b hb
    · exact h.noThrow j b hb
  waiting := by
    intro hst
    rcases SubmitState.step_cases hs with ⟨inst, call, hhw, hsubs, _⟩ |
        ⟨i, sub, sub', seg', rfl, hi, hexec, hhw, hsubs⟩ | ⟨_, hdev, hsubs⟩ |
        ⟨_, _, hctrl, hhw, hsubs⟩
    · rw [hhw] at hst
      obtain ⟨j, b, n, hj, hbn⟩ := h.waiting hst
      refine ⟨j, b, n, ?_, hbn⟩
      rw [hsubs, List.getElem?_append_left (List.getElem?_eq_some_iff.mp hj).1]
      exact hj
    · rw [hhw] at hst
      rcases exec_waits hexec (noPollLimit_sub hlim hi) hst with ⟨n, hn⟩ | ⟨hst', hnot⟩
      · refine ⟨i, sub', n, ?_, hn⟩
        rw [hsubs]
        exact getElem?_set_self_of hi
      · obtain ⟨j, b, n, hj, hbn⟩ := h.waiting hst'
        refine ⟨j, b, n, ?_, hbn⟩
        rw [hsubs]
        -- the call that moves is not the one that polls
        refine getElem?_set_of_ne ?_ hj
        rintro rfl
        rw [hi] at hj
        cases hj
        exact hnot n hbn
    · rw [hsubs]
      exact h.waiting (started_step hdev hst)
    · rw [hhw] at hst
      rw [hsubs]
      exact h.waiting (hctrl.symm.trans hst)

/-- Runs in which calls do not overlap and none reaches its poll limit. -/
def Prompt (s : SubmitState) (a : SubmitAct) : Prop :=
  lockExclusive s a = true ∧ noPollLimit s a = true

theorem reach_settled {kind : PluginKind} {cfg : HwModelConfig} {s : SubmitState}
    (h : Reach (submitSystem kind cfg) Prompt s) : Settled kind s := by
  refine h.invariant ?_ ?_
  · rintro _ ⟨t, rfl⟩
    exact settled_init kind t
  · intro s a s' hinv hg hs
    exact settled_step hinv hg.1 hg.2 hs

/-! ## Calls one after another -/

/-- Every call but the last has ended. -/
def Ordered (s : SubmitState) : Prop := AllButLast (fun sub => sub.pc.ended = true) s.subs

theorem SubmitPc.not_locked_of_ended {pc : SubmitPc} (h : pc.ended = true) : pc.locked = false := by
  cases pc <;> first | rfl | cases h

theorem exec_not_ended {kind : PluginKind} {hw : HwModel} {sub sub' : Sub} {seg' : Segment}
    (hs : sub.exec kind hw = some (sub', seg')) : sub.pc.ended = false := by
  rcases exec_locked hs with hlocked | hp
  · exact Bool.eq_false_iff.mpr fun hended => by
      rw [SubmitPc.not_locked_of_ended hended] at hlocked
      cases hlocked
  · rw [hp]
    rfl

/-- A call that has not ended is the last one. -/
theorem Ordered.last {s : SubmitState} (h : Ordered s) {i : Nat} {a : Sub}
    (hi : s.subs[i]? = some a) (hpc : a.pc.ended = false) : i + 1 = s.subs.length :=
  AllButLast.last h hi (ne_true_of_eq_false hpc)

theorem Ordered.others {s : SubmitState} (h : Ordered s) {i j : Nat} {a b : Sub}
    (hi : s.subs[i]? = some a) (hpc : a.pc.ended = false) (hj : s.subs[j]? = some b)
    (hji : j ≠ i) : b.pc.ended = true :=
  AllButLast.others (p := fun sub : Sub => sub.pc.ended = true) h hi (ne_true_of_eq_false hpc) hj
    hji

/-- A call starts only when all the others have ended. -/
theorem oneAfterAnother_all {s : SubmitState} {a : SubmitAct} {call : Call}
    (h : oneAfterAnother s a = true) (ha : a = .submitRequest call ∨ a = .pluginSubmit call) :
    ∀ sub ∈ s.subs, sub.pc.ended = true := by
  rcases ha with rfl | rfl
  · exact List.all_eq_true.mp h
  · exact List.all_eq_true.mp h

theorem ordered_step {kind : PluginKind} {cfg : HwModelConfig} {s s' : SubmitState} {a : SubmitAct}
    (h : Ordered s) (hg : oneAfterAnother s a = true) (hs : s.step kind cfg a = some s') :
    Ordered s' := by
  unfold Ordered
  rcases SubmitState.step_cases hs with ⟨inst, call, _, hsubs, ha⟩ |
      ⟨i, sub, sub', seg', _, hi, hexec, _, hsubs⟩ | ⟨_, _, hsubs⟩ | ⟨_, _, _, _, hsubs⟩ <;>
    rw [hsubs]
  · exact allButLast_concat (oneAfterAnother_all hg ha) _
  · exact AllButLast.set h hi (ne_true_of_eq_false (exec_not_ended hexec)) sub'
  · exact h
  · exact h

/-- The one call that can be at its lock finds every mutex free. -/
theorem Ordered.lockExclusive {s : SubmitState} (h : Ordered s) (a : SubmitAct) :
    lockExclusive s a = true := by
  cases a with
  | sub i =>
    cases hi : s.subs[i]? with
    | none => simp only [Deepspan.lockExclusive, hi, Option.all_none]
    | some b =>
      simp only [Deepspan.lockExclusive, hi, Option.all_some, Bool.or_eq_true, bne_iff_ne, ne_eq,
        List.all_eq_true, Bool.not_eq_eq_eq_not, Bool.not_true]
      by_cases hpc : b.pc = .lock
      · refine .inr fun c hc => ?_
        obtain ⟨j, hj⟩ := List.mem_iff_getElem?.mp hc
        have hnot : b.pc.ended = false := by
          rw [hpc]
          rfl
        by_cases hij : j = i
        · subst hij
          rw [hi] at hj
          cases hj
          rw [hpc]
          rfl
        · exact SubmitPc.not_locked_of_ended (h.others hi hnot hj hij)
      · exact .inl hpc
  | _ => rfl

/-- Runs of one plugin that is called again only after the last call has ended,
restricted further by `G`. -/
def Sequential (G : SubmitState → SubmitAct → Bool) (s : SubmitState) (a : SubmitAct) : Prop :=
  oneAfterAnother s a = true ∧ G s a = true

theorem ordered_init (t : UInt64) : Ordered (.initial t) := allButLast_nil

/-- Sequential runs are runs without overlap. -/
theorem reach_lockExclusive {kind : PluginKind} {cfg : HwModelConfig}
    {G : SubmitState → SubmitAct → Bool} {s : SubmitState}
    (h : Reach (submitSystem kind cfg) (Sequential G) s) :
    Reach (submitSystem kind cfg) (fun s a => lockExclusive s a = true ∧ G s a = true) s := by
  refine h.strengthen (P := Ordered) ?_ ?_ ?_
  · rintro _ ⟨t, rfl⟩
    exact ordered_init t
  · intro s a s' hord hg hs
    exact ordered_step hord hg.1 hs
  · intro s a hord hg
    exact ⟨hord.lockExclusive a, hg.2⟩

end Deepspan
