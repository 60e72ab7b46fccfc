import Deepspan.Submit.Invariant

/-!
# Submits one after another

One plugin, its calls one after another, none of which reaches its poll limit,
with `ResetDevice`, `GetFirmwareInfo` and `GetTelemetry` anywhere in between.
The handler's log is then a copy of the list of calls: invocation `i` is the one
of call `i`.

The invariant counts: a call that has been handled has its invocation behind it,
a call that has not does not (`Sub.handled`). `handled_step` is the one lemma
about the poll loop; it says that the loop adds an invocation exactly when it
passes its call of the handler, and keeps counting that call as handled while it
clears START. The result is `submits_served`.
-/

namespace Deepspan

open Transition

/-- The loop has called the handler and has not yet cleared START. -/
def PollPc.replied : PollPc → Bool
  | .writeData0 _ _ | .writeData1 _ _ | .writeStatus _ _ | .fetchAdd _ _ | .storeCount _ _ _
  | .storeLastOpcode _ _ | .storeLastStatus _ | .clearStart => true
  | _ => false

/-- The command that is or was last in the registers has been handled. -/
def HwModel.handled (hw : HwModel) : Bool := !hw.seg.reg.started || hw.pc.replied

/-- The handler has been called for this call. -/
def Sub.handled (sub : Sub) (hw : HwModel) : Bool :=
  match sub.pc with
  | .poll _ => hw.handled
  | .loadResult0 | .loadResult1 _ | .returned _ _ => true
  | _ => false

/-- The invariant of sequential runs. -/
structure InStep (kind : PluginKind) (s : SubmitState) : Prop extends Settled kind s where
  ordered : Ordered s
  /-- The history of call `i` points at invocation `i`. -/
  marks : ∀ (i : Nat) (a : Sub), s.subs[i]? = some a → a.pc.pastStart = true ∨ a.pc.ended = true →
    a.mark = i
  none : s.subs = [] → s.hw.log = []
  count : ∀ (i : Nat) (a : Sub), s.subs[i]? = some a → i + 1 = s.subs.length →
    s.hw.log.length = i + (a.handled s.hw).toNat

/-! ## The poll loop -/

/-- Between commands the loop does not call the handler. -/
theorem log_step_idle {cfg : HwModelConfig} {hw hw' : HwModel} (hidle : hw.pc.inCommand = false)
    (hs : hw.pollLoopStep cfg = some hw') : hw'.log = hw.log := by
  rcases log_step_cases hs with hl | ⟨_, _, _, _, hp, _, _⟩
  · exact hl
  · rw [hp] at hidle
    cases hidle

/-- The loop adds an invocation exactly in the step in which the command becomes
handled. -/
theorem handled_step {cfg : HwModelConfig} {hw hw' : HwModel}
    (hin : hw.pc.inCommand = true → hw.seg.reg.started = true)
    (hs : hw.pollLoopStep cfg = some hw') :
    hw'.log.length + hw.handled.toNat = hw.log.length + hw'.handled.toNat := by
  unfold HwModel.handled
  cases pollLoopStep_cases hs with
  | callHandler hp _ =>
    have hst : hw.seg.reg.started = true := hin (by rw [hp]; rfl)
    simp [hp, hst, PollPc.replied]
  | clearStart hp =>
    have hst : hw.seg.reg.started = true := hin (by rw [hp]; rfl)
    simp [hp, hst, PollPc.replied, Segment.withReg]
  | writeReady hp hpc =>
    rw [hp]
    rcases hpc with rfl | rfl <;> rfl
  | stay hp _ | leave hp _ | seen hp _ | unseen hp _ | readOpcode hp | readArg0 hp | readArg1 hp
  | writeData0 hp | writeData1 hp | writeStatus hp | fetchAdd hp | storeCount hp
  | storeLastOpcode hp | storeLastStatus hp | raiseIrq hp =>
    rw [hp]
    rfl

theorem PollPc.not_replied {pc : PollPc} (h : pc.midCommand = false) : pc.replied = false := by
  cases pc <;> first | rfl | cases h

/-! ## One call -/

/-- A call's own steps never change whether it has been handled. -/
theorem exec_handled {kind : PluginKind} {hw : HwModel} {sub sub' : Sub} {seg' : Segment}
    (hs : sub.exec kind hw = some (sub', seg')) (hlim : sub.pc.belowLimit = true)
    (hfree : sub.pc = .orStart → hw.pc.midCommand = false) :
    sub'.handled { hw with seg := seg' } = sub.handled hw := by
  unfold Sub.handled
  cases exec_cases hs with
  | orStart hp => simp [hp, HwModel.handled, Segment.withReg, PollPc.not_replied (hfree hp)]
  | pollSet hp _ _ => rw [hp]
  | pollClear hp _ hst => simp [hp, HwModel.handled, hst]
  | pollLimit hp hge =>
    rw [hp] at hlim
    exact absurd (of_decide_eq_true hlim) hge
  | lock hp | copyDma hp | storeOpcode hp | storeArg0 hp | storeArg1 hp | loadResult0 hp
  | loadResult1 hp => rw [hp]

theorem returned_of_ended {sub : Sub} (h : sub.pc.ended = true) (hno : sub.pc ≠ .threw) :
    ∃ r0 r1, sub.pc = .returned r0 r1 := by
  cases hp : sub.pc with
  | returned r0 r1 => exact ⟨r0, r1, rfl⟩
  | threw => exact absurd hp hno
  | _ =>
    rw [hp] at h
    cases h

theorem handled_of_ended {hw : HwModel} {sub : Sub} (h : sub.pc.ended = true)
    (hno : sub.pc ≠ .threw) : sub.handled hw = true := by
  obtain ⟨r0, r1, hpc⟩ := returned_of_ended h hno
  simp only [Sub.handled, hpc]

theorem not_handled {hw : HwModel} {sub : Sub} (hpast : sub.pc.pastStart = false)
    (hended : sub.pc.ended = false) : sub.handled hw = false := by
  unfold Sub.handled
  cases hp : sub.pc with
  | poll _ | loadResult0 | loadResult1 _ => rw [hp] at hpast; cases hpast
  | returned _ _ => rw [hp] at hended; cases hended
  | _ => rfl

/-- The mark is set in the START step and kept. -/
theorem exec_mark {kind : PluginKind} {hw : HwModel} {sub sub' : Sub} {seg' : Segment}
    (hs : sub.exec kind hw = some (sub', seg'))
    (hpc : sub'.pc.pastStart = true ∨ sub'.pc.ended = true) :
    (sub.pc.pastStart = true ∧ sub'.mark = sub.mark) ∨
    (sub.pc = .orStart ∧ sub'.mark = hw.log.length) := by
  cases exec_cases hs with
  | orStart hp => exact .inr ⟨hp, rfl⟩
  | pollSet hp _ _ | pollClear hp _ _ | pollLimit hp _ => exact .inl ⟨by rw [hp]; rfl, rfl⟩
  | loadResult0 hp | loadResult1 hp => exact .inl ⟨by rw [hp]; rfl, rfl⟩
  | lock _ | copyDma _ | storeOpcode _ | storeArg0 _ | storeArg1 _ =>
    simp [SubmitPc.pastStart, SubmitPc.ended] at hpc

/-- A call writes no statistics. -/
theorem exec_stats {kind : PluginKind} {hw : HwModel} {sub sub' : Sub} {seg' : Segment}
    (hs : sub.exec kind hw = some (sub', seg')) : seg'.stats = hw.seg.stats := by
  cases exec_cases hs <;> rfl

/-! ## Runs -/

/-- While no call polls, START is clear and the loop is between commands. -/
theorem Settled.idle {kind : PluginKind} {s : SubmitState} (h : Settled kind s)
    (hpoll : ∀ (i : Nat) (a : Sub) (n : Nat), s.subs[i]? = some a → a.pc ≠ .poll n) :
    s.hw.seg.reg.started = false ∧ s.hw.pc.inCommand = false := by
  have hst : s.hw.seg.reg.started = false := by
    cases hst : s.hw.seg.reg.started with
    | false => rfl
    | true =>
      obtain ⟨i, a, n, hi, hpc⟩ := h.waiting hst
      exact absurd hpc (hpoll i a n hi)
  refine ⟨hst, ?_⟩
  cases hin : s.hw.pc.inCommand with
  | false => rfl
  | true =>
    rw [h.inCommand hin] at hst
    cases hst

/-- Unless the last call polls, no call does. -/
theorem Ordered.no_poll {s : SubmitState} (h : Ordered s) {i : Nat} {a : Sub}
    (hi : s.subs[i]? = some a) (hlast : i + 1 = s.subs.length) (hpc : ∀ n, a.pc ≠ .poll n) :
    ∀ (j : Nat) (b : Sub) (n : Nat), s.subs[j]? = some b → b.pc ≠ .poll n := by
  intro j b n hj hbn
  have hjlast := h.last hj (by rw [hbn]; rfl)
  have hij : j = i := by omega
  subst hij
  rw [hi] at hj
  cases hj
  exact hpc n hbn

theorem inStep_init (kind : PluginKind) (t : UInt64) : InStep kind (.initial t) where
  toSettled := settled_init kind t
  ordered := ordered_init t
  marks := by
    intro i a ha
    cases ha
  none := fun _ => rfl
  count := by
    intro i a ha
    cases ha

/-- The device steps keep the count: either the last call polls, and
`handled_step` counts, or the loop is between commands. -/
theorem InStep.count_device {kind : PluginKind} {cfg : HwModelConfig} {s : SubmitState}
    {hw' : HwModel} (h : InStep kind s) (hs : s.hw.pollLoopStep cfg = some hw') {i : Nat} {a : Sub}
    (hi : s.subs[i]? = some a) (hlast : i + 1 = s.subs.length) :
    hw'.log.length = i + (a.handled hw').toNat := by
  have hcount := h.count i a hi hlast
  by_cases hpc : ∃ n, a.pc = .poll n
  · obtain ⟨n, hn⟩ := hpc
    have hstep := handled_step h.inCommand hs
    simp only [Sub.handled, hn] at hcount ⊢
    omega
  · have hno : ∀ n, a.pc ≠ .poll n := fun n hn => hpc ⟨n, hn⟩
    have hidle := h.toSettled.idle (h.ordered.no_poll hi hlast hno)
    have hsame : a.handled hw' = a.handled s.hw := by
      unfold Sub.handled
      cases hp : a.pc with
      | poll n => exact absurd hp (hno n)
      | _ => rfl
    rw [log_step_idle hidle.2 hs, hsame]
    exact hcount

theorem inStep_step {kind : PluginKind} {cfg : HwModelConfig} {s s' : SubmitState} {a : SubmitAct}
    (h : InStep kind s) (hseq : oneAfterAnother s a = true) (hlim : noPollLimit s a = true)
    (hs : s.step kind cfg a = some s') : InStep kind s' where
  toSettled := settled_step h.toSettled (h.ordered.lockExclusive a) hlim hs
  ordered := ordered_step h.ordered hseq hs
  marks := by
    intro j b hb hpc
    rcases SubmitState.step_cases hs with ⟨inst, call, hhw, hsubs, _⟩ |
        ⟨i, sub, sub', seg', rfl, hi, hexec, hhw, hsubs⟩ | ⟨_, _, hsubs⟩ | ⟨_, _, _, _, hsubs⟩ <;>
      rw [hsubs] at hb
    · rcases getElem?_concat_cases hb with hb | ⟨_, rfl⟩
      · exact h.marks j b hb hpc
      · simp [SubmitPc.pastStart, SubmitPc.ended] at hpc
    · rcases getElem?_set_cases hi hb with ⟨rfl, rfl⟩ | ⟨_, hb⟩
      · rcases exec_mark hexec hpc with ⟨hpast, hmark⟩ | ⟨horS, hmark⟩
        · rw [hmark]
          exact h.marks j sub hi (.inl hpast)
        · -- START is set: all calls before this one have been handled
          have hlast := h.ordered.last hi (by rw [horS]; rfl)
          rw [hmark, h.count j sub hi hlast]
          simp [Sub.handled, horS]
      · exact h.marks j b hb hpc
    · exact h.marks j b hb hpc
    · exact h.marks j b hb hpc
  none := by
    intro hnil
    rcases SubmitState.step_cases hs with ⟨inst, call, hhw, hsubs, _⟩ |
        ⟨i, sub, sub', seg', rfl, hi, hexec, hhw, hsubs⟩ | ⟨_, hdev, hsubs⟩ |
        ⟨_, _, _, hhw, hsubs⟩ <;> rw [hsubs] at hnil
    · simp at hnil
    · rw [List.set_eq_nil_iff] at hnil
      rw [hnil] at hi
      cases hi
    · -- without a call that polls the loop finds no START
      have hidle := h.toSettled.idle (by
        intro i a n hi
        rw [hnil] at hi
        cases hi)
      rw [log_step_idle hidle.2 hdev]
      exact h.none hnil
    · rw [hhw]
      exact h.none hnil
  count := by
    intro j b hb hlast
    rcases SubmitState.step_cases hs with ⟨inst, call, hhw, hsubs, ha⟩ |
        ⟨i, sub, sub', seg', rfl, hi, hexec, hhw, hsubs⟩ | ⟨_, hdev, hsubs⟩ |
        ⟨_, _, hst, hhw, hsubs⟩ <;> rw [hsubs] at hb hlast
    · -- a new call: every call before it has been handled
      rw [hhw]
      have hj : j = s.subs.length := by simpa using hlast
      subst hj
      rw [List.getElem?_concat_length] at hb
      cases hb
      cases hlen : s.subs.length with
      | zero => simp [h.none (List.eq_nil_of_length_eq_zero hlen), Sub.handled]
      | succ n =>
        have hlt : n < s.subs.length := by omega
        obtain ⟨c, hc⟩ : ∃ c, s.subs[n]? = some c := ⟨_, List.getElem?_eq_getElem hlt⟩
        have hended := oneAfterAnother_all hseq ha c (List.mem_of_getElem? hc)
        have hcount := h.count n c hc (by omega)
        rw [handled_of_ended hended (h.noThrow n c hc)] at hcount
        exact hcount
    · -- only the last call has not ended
      rw [List.length_set] at hlast
      have hij : j = i := by
        have hilast := h.ordered.last hi (exec_not_ended hexec)
        omega
      subst hij
      rw [getElem?_set_self_of hi] at hb
      cases hb
      rw [hhw, exec_handled hexec (noPollLimit_sub hlim hi) (deviceFree_sub (h.deviceFree _) hi)]
      exact h.count j sub hi hlast
    · exact h.count_device hdev hb hlast
    · have hcount := h.count j b hb hlast
      have hsame : b.handled s'.hw = b.handled s.hw := by
        unfold Sub.handled HwModel.handled
        rw [hhw]
        simp only [Segment.withReg, hst]
      rw [hsame, hhw]
      exact hcount

theorem reach_inStep {kind : PluginKind} {cfg : HwModelConfig} {s : SubmitState}
    (h : Reach (submitSystem kind cfg) (Sequential noPollLimit) s) : InStep kind s := by
  refine h.invariant ?_ ?_
  · rintro _ ⟨t, rfl⟩
    exact inStep_init kind t
  · intro s a s' hinv hg hs
    exact inStep_step hinv hg.1 hg.2 hs

/-- The counters are right in every run whatsoever. -/
theorem reach_statsOk {kind : PluginKind} {cfg : HwModelConfig}
    {G : SubmitState → SubmitAct → Prop} {s : SubmitState}
    (h : Reach (submitSystem kind cfg) G s) : StatsOk s.hw := by
  refine h.invariant (P := fun s => StatsOk s.hw) ?_ ?_
  · rintro _ ⟨t, rfl⟩
    exact statsOk_init t
  · intro s a s' hinv _ hs
    rcases SubmitState.step_cases hs with ⟨inst, call, hhw, _, _⟩ |
        ⟨i, sub, sub', seg', _, _, hexec, hhw, _⟩ | ⟨_, hdev, _⟩ | ⟨_, _, _, hhw, _⟩
    · rw [hhw]
      exact hinv
    · rw [hhw]
      exact hinv.congr rfl rfl rfl (exec_stats hexec)
    · exact statsOk_step hinv hdev
    · rw [hhw]
      exact hinv.congr rfl rfl rfl rfl

/-! ## Every submit is served once, in order -/

theorem Serving.answered_of_replied {cmd : Cmd} {mark : Nat} {hw : HwModel}
    (h : Serving cmd mark hw) (hr : hw.pc.replied = true) :
    ∃ reply, Answered cmd mark hw.log reply := by
  obtain ⟨_, h⟩ := h
  cases hp : hw.pc with
  | writeData0 opcode reply =>
    simp only [hp] at h
    exact ⟨reply, h⟩
  | writeData1 opcode reply =>
    simp only [hp] at h
    exact ⟨reply, h.1⟩
  | writeStatus opcode reply =>
    simp only [hp] at h
    exact ⟨reply, h.1⟩
  | fetchAdd _ _ | storeCount _ _ _ | storeLastOpcode _ _ | storeLastStatus _ | clearStart =>
    simp only [hp] at h
    exact ⟨_, h⟩
  | _ => rw [hp] at hr; cases hr

/-- A call that has been handled has its own invocation. -/
theorem InStep.answered {kind : PluginKind} {s : SubmitState} (h : InStep kind s) {i : Nat}
    {a : Sub} (hi : s.subs[i]? = some a) (hh : a.handled s.hw = true) :
    ∃ reply, Answered (kind.cmd a.call) i s.hw.log reply := by
  have hok := h.calls i a hi
  have hmark := h.marks i a hi
  unfold SubOk at hok
  unfold Sub.handled at hh
  cases hp : a.pc with
  | poll n =>
    simp only [hp] at hok hh hmark
    rw [hmark (.inl rfl)] at hok
    rcases hok.2 with hserving | hserved
    · refine hserving.answered_of_replied ?_
      simpa [HwModel.handled, hserving.1] using hh
    · exact ⟨_, hserved.answered⟩
  | loadResult0 =>
    simp only [hp] at hok hmark
    rw [hmark (.inl rfl)] at hok
    exact ⟨_, hok.answered⟩
  | loadResult1 r0 =>
    simp only [hp] at hok hmark
    rw [hmark (.inl rfl)] at hok
    exact ⟨_, hok.1.answered⟩
  | returned r0 r1 =>
    simp only [hp] at hok hmark
    rw [hmark (.inr rfl)] at hok
    obtain ⟨status, hans⟩ := hok
    exact ⟨_, hans⟩
  | _ =>
    rw [hp] at hh
    cases hh

/-- There are no more invocations than calls, and every call but the last has
been handled. -/
theorem InStep.length_log {kind : PluginKind} {s : SubmitState} (h : InStep kind s) :
    s.hw.log.length ≤ s.subs.length := by
  cases hlen : s.subs.length with
  | zero => simp [h.none (List.eq_nil_of_length_eq_zero hlen)]
  | succ n =>
    have hlt : n < s.subs.length := by omega
    have hcount := h.count n _ (List.getElem?_eq_getElem hlt) (by omega)
    have hle := (s.subs[n].handled s.hw).toNat_le
    omega

/-- The calls that have returned. -/
def SubmitState.completed (s : SubmitState) : List Sub := s.subs.filter fun sub => sub.pc.ended

/-- The calls of one plugin against one hw-model, as a client sees them. -/
structure SubmitsServed (kind : PluginKind) (s : SubmitState) : Prop where
  /-- Invocation `i` of the handler is that of call `i`. -/
  invoked : ∀ (i : Nat) (inv : Invocation), s.hw.log[i]? = some inv →
    ∃ sub, s.subs[i]? = some sub ∧ inv.For (kind.cmd sub.call)
  /-- There is none yet for a call that has not set START. -/
  pending : ∀ (i : Nat) (sub : Sub), s.subs[i]? = some sub → sub.pc.pastStart = false →
    sub.pc.ended = false → s.hw.log.length = i
  /-- A call that has ended has returned the words of its own invocation. -/
  returned : ∀ (i : Nat) (sub : Sub), s.subs[i]? = some sub → sub.pc.ended = true →
    ∃ inv, s.hw.log[i]? = some inv ∧ inv.For (kind.cmd sub.call) ∧
      sub.pc = .returned inv.reply.r0 inv.reply.r1
  /-- With START clear and no call past it, `ShmStats` counts the calls that have
  returned and describes the last of them. -/
  stats : s.hw.seg.reg.started = false → (∀ sub ∈ s.subs, sub.pc.pastStart = false) →
    s.hw.log.length = s.completed.length ∧
    s.hw.seg.stats.cmdCount = UInt64.ofNat s.completed.length ∧
    ∀ sub, s.completed.getLast? = some sub → ∃ inv, s.hw.log.getLast? = some inv ∧
      inv.For (kind.cmd sub.call) ∧ s.hw.seg.stats.lastOpcode = sub.call.opcode ∧
      s.hw.seg.stats.lastResultStatus = inv.reply.status

/-- While no call is past START, the calls that have returned are those that the
log counts. -/
theorem InStep.completed_eq {kind : PluginKind} {s : SubmitState} (h : InStep kind s)
    (hno : ∀ sub ∈ s.subs, sub.pc.pastStart = false) :
    s.completed = s.subs.take s.hw.log.length := by
  rcases List.eq_nil_or_concat s.subs with hnil | ⟨l, a, hl⟩
  · simp [SubmitState.completed, hnil]
  · rw [List.concat_eq_append] at hl
    have ha : s.subs[l.length]? = some a := by rw [hl, List.getElem?_concat_length]
    have hlast : l.length + 1 = s.subs.length := by simp [hl]
    have hcount := h.count l.length a ha hlast
    have hended : l.filter (fun sub => sub.pc.ended) = l := by
      rw [List.filter_eq_self]
      intro b hb
      obtain ⟨j, hj⟩ := List.mem_iff_getElem?.mp hb
      have hjlt := (List.getElem?_eq_some_iff.mp hj).1
      refine h.ordered j b ?_ (by omega)
      rw [hl, List.getElem?_append_left hjlt]
      exact hj
    rw [SubmitState.completed, hl, List.filter_append, hended]
    cases hae : a.pc.ended with
    | true =>
      rw [handled_of_ended hae (h.noThrow _ a ha)] at hcount
      rw [hcount, List.take_of_length_le (by simp)]
      simp [hae]
    | false =>
      rw [not_handled (hno a (List.mem_of_getElem? ha)) hae] at hcount
      rw [hcount]
      simp [hae]

/-- Every invocation is the one of the call with its number. -/
theorem InStep.invoked {kind : PluginKind} {s : SubmitState} (h : InStep kind s) {i : Nat}
    {inv : Invocation} (hinv : s.hw.log[i]? = some inv) :
    ∃ sub, s.subs[i]? = some sub ∧ inv.For (kind.cmd sub.call) := by
  have hlt := (List.getElem?_eq_some_iff.mp hinv).1
  have hisub : i < s.subs.length := Nat.lt_of_lt_of_le hlt h.length_log
  have hi := List.getElem?_eq_getElem hisub
  -- the call is handled: it has ended, or it is the last one and the log counts it
  have hh : s.subs[i].handled s.hw = true := by
    cases hended : s.subs[i].pc.ended with
    | true => exact handled_of_ended hended (h.noThrow i _ hi)
    | false =>
      have hcount := h.count i _ hi (h.ordered.last hi hended)
      cases hh : s.subs[i].handled s.hw with
      | true => rfl
      | false =>
        rw [hh] at hcount
        simp only [Bool.toNat_false] at hcount
        omega
  obtain ⟨reply, inv', hinv', hfor, _⟩ := h.answered hi hh
  rw [hinv] at hinv'
  cases hinv'
  exact ⟨_, hi, hfor⟩

/-- Every call that has ended has returned the words of its invocation. -/
theorem InStep.returned {kind : PluginKind} {s : SubmitState} (h : InStep kind s) {i : Nat}
    {sub : Sub} (hi : s.subs[i]? = some sub) (hended : sub.pc.ended = true) :
    ∃ inv, s.hw.log[i]? = some inv ∧ inv.For (kind.cmd sub.call) ∧
      sub.pc = .returned inv.reply.r0 inv.reply.r1 := by
  obtain ⟨r0, r1, hpc⟩ := returned_of_ended hended (h.noThrow i sub hi)
  have hok := h.calls i sub hi
  unfold SubOk at hok
  rw [hpc] at hok
  obtain ⟨status, inv, hinv, hfor, hrep⟩ := hok
  rw [h.marks i sub hi (.inr hended)] at hinv
  exact ⟨inv, hinv, hfor, by rw [hpc, hrep]⟩

/-- The last call that has returned is the one of the last invocation. -/
theorem InStep.last_completed {kind : PluginKind} {s : SubmitState} (h : InStep kind s)
    (hno : ∀ sub ∈ s.subs, sub.pc.pastStart = false) {sub : Sub}
    (hsub : s.completed.getLast? = some sub) :
    ∃ inv, s.hw.log.getLast? = some inv ∧ inv.For (kind.cmd sub.call) := by
  have hended : sub.pc.ended = true := (List.mem_filter.mp (List.mem_of_getLast? hsub)).2
  have hle := h.length_log
  rw [h.completed_eq hno, List.getLast?_eq_getElem?, List.length_take, Nat.min_eq_left hle] at hsub
  have hlt := (List.getElem?_eq_some_iff.mp hsub).1
  rw [List.length_take] at hlt
  rw [List.getElem?_take_of_lt (by omega)] at hsub
  obtain ⟨inv, hinv, hfor, _⟩ := h.returned hsub hended
  rw [← List.getLast?_eq_getElem?] at hinv
  exact ⟨inv, hinv, hfor⟩

/-- On a freshly initialised segment, one call after another, none of which
reaches its poll limit: the handler is invoked once for every call, in order,
with exactly what the call wrote; every call returns the words of its own
invocation; and the statistics count the calls. -/
theorem submits_served {kind : PluginKind} {cfg : HwModelConfig} {s : SubmitState}
    (h : Reach (submitSystem kind cfg) (Sequential noPollLimit) s) : SubmitsServed kind s := by
  have hin := reach_inStep h
  refine ⟨fun i inv => hin.invoked, ?_, fun i sub => hin.returned, ?_⟩
  · intro i sub hi hpast hended
    have hcount := hin.count i sub hi (hin.ordered.last hi hended)
    rw [not_handled hpast hended] at hcount
    exact hcount
  · intro hst hno
    have hidle : s.hw.pc.inCommand = false := by
      cases hc : s.hw.pc.inCommand with
      | false => rfl
      | true =>
        rw [hin.inCommand hc] at hst
        cases hst
    obtain ⟨_, hcount, hlast⟩ := (reach_statsOk h).statsMatch hidle
    have hlen : s.hw.log.length = s.completed.length := by
      rw [hin.completed_eq hno, List.length_take, Nat.min_eq_left hin.length_log]
    refine ⟨hlen, by rw [hcount, hlen], ?_⟩
    intro sub hsub
    obtain ⟨inv, hinv, hfor⟩ := hin.last_completed hno hsub
    obtain ⟨hop, hstatus⟩ := hlast inv hinv
    exact ⟨inv, hinv, hfor, by rw [hop, hfor.opcode, PluginKind.cmd_opcode], hstatus⟩

/-- A COMPUTE and a GET_POLY, the first behind a `ResetDevice`, the second before
the hw-model has raised its interrupt for the first. -/
def twoSubmits : List SubmitAct :=
  schedule [(1, .resetDevice), (1, .pluginSubmit ⟨"crc32/0", Crc32Op.compute, [7, 8, 9]⟩),
    (6, .sub 0), (14, .device), (1, .getTelemetry), (3, .sub 0),
    (1, .pluginSubmit ⟨"crc32/0", Crc32Op.getPoly, []⟩), (6, .sub 1), (18, .device), (3, .sub 1)]

theorem submits_served_two :
    ∃ s : SubmitState, s.completed.length = 2 ∧ s.hw.seg.stats.cmdCount = 2 ∧
      SubmitsServed .crc32 s := by
  obtain ⟨s, hrun, hview⟩ := Option.map_eq_some_iff.mp (show
    (replay (submitSystem .crc32 {}) (fun s a => oneAfterAnother s a && noPollLimit s a)
      (.initial 0) twoSubmits).map (fun s => (s.completed.length, s.hw.seg.stats.cmdCount)) =
        some (2, 2) by decide)
  have hinit : Reach (submitSystem .crc32 {}) (Sequential noPollLimit) (.initial 0) :=
    .init ⟨0, rfl⟩
  have hreach := replay_reach (fun _ _ h => Bool.and_eq_true_iff.mp h) hinit hrun
  exact ⟨s, congrArg Prod.fst hview, congrArg Prod.snd hview, submits_served hreach⟩

end Deepspan
