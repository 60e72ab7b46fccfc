import Deepspan.Zephyr.BesideServer

/-!
# Whose checksum do the firmware and the server get?

Nothing keeps the two apart. They share the window, the registers and START, and the
completion of a plugin's command raises the interrupt that the firmware waits for: its
poll thread gives `cmd_done` for it, and the next `deepspan_hwip_submit_cmd` takes that
give as soon as it has set START. So the firmware gets a checksum of the server's bytes
even where the two never overlap (`firmware_takes_server_checksum`).

`own_checksums`: both get the checksum of their own bytes in the runs where they do not
overlap, the firmware sets START only when nothing is left of an earlier completion, and
the server's payload fits into the window.
-/

namespace Deepspan

open Transition

variable {cfg : HwModelConfig} {s s' : SharedState} {a : SharedAct} {hw : HwModel}

/-! ## The submits of the server -/

/-- A change of `IRQ_STATUS` is nothing to a submit. -/
theorem subOk_irq {kind : PluginKind} {sub : Sub} {irq : UInt32} (h : SubOk kind hw sub) :
    SubOk kind { hw with seg := hw.seg.withReg fun r => { r with irqStatus := irq } } sub := by
  have hserved : ∀ {cmd : Cmd} {mark : Nat}, Served cmd mark hw → Served cmd mark { hw with
      seg := hw.seg.withReg fun r => { r with irqStatus := irq } } := fun hc =>
    ⟨hc.started, hc.idle, hc.answered⟩
  refine h.frame ⟨rfl, rfl, rfl, rfl, rfl⟩ ⟨[], (List.append_nil _).symm⟩ ?_
    (fun hs => ⟨hserved hs, rfl⟩)
  rintro cmd mark _ (hserving | hs)
  · exact .inl hserving
  · exact .inr (hserved hs)

theorem inv_irq {kind : PluginKind} {t : SubmitState} (h : Inv kind t) (irq : UInt32) :
    Inv kind { t with hw := { t.hw with
      seg := t.hw.seg.withReg fun r => { r with irqStatus := irq } } } where
  excl := h.excl
  inCommand := h.inCommand
  calls := fun i sub hi => subOk_irq (h.calls i sub hi)

/-- While no submit is in progress the firmware may do with the segment what it likes, as
long as it does not clear START. -/
theorem inv_unlocked {kind : PluginKind} {t : SubmitState} {seg : Segment} (h : Inv kind t)
    (hfree : ∀ (i : Nat) (sub : Sub), t.subs[i]? = some sub → sub.pc.locked = false)
    (hst : t.hw.seg.reg.started = true → seg.reg.started = true) :
    Inv kind { t with hw := { t.hw with seg := seg } } where
  excl := h.excl
  inCommand := fun hin => hst (h.inCommand hin)
  calls := fun i sub hi => (h.calls i sub hi).of_log (hfree i sub hi) (List.append_nil _).symm

/-! ## The invariant -/

/-- The invariant of runs in which the two are kept apart. -/
structure SharedInv (s : SharedState) : Prop where
  server : Inv .crc32 s.server
  fws : ∀ (i : Nat) (f : FwCall), s.fws[i]? = some f → FwOk s.server.hw s.drv f
  /-- At most one call of the firmware is in progress, and no submit beside it. -/
  alone : ∀ (i j : Nat) (f g : FwCall), s.fws[i]? = some f → s.fws[j]? = some g →
    f.active = true → g.active = true → i = j
  apart : ∀ (i j : Nat) (f : FwCall) (sub : Sub), s.fws[i]? = some f → f.active = true →
    s.server.subs[j]? = some sub → sub.pc.locked = false
  /-- START is set only while somebody waits. -/
  waiting : s.server.hw.seg.reg.started = true →
    (∃ (i n : Nat) (sub : Sub), s.server.subs[i]? = some sub ∧ sub.pc = .poll n) ∨
      ∃ (i : Nat) (f : FwCall), s.fws[i]? = some f ∧ f.call.pc = .take
  /-- While the firmware waits with START set no interrupt is pending or about to be
  raised. -/
  irq : ∀ (i : Nat) (f : FwCall), s.fws[i]? = some f → f.call.pc = .take →
    s.server.hw.seg.reg.started = true →
    s.server.hw.seg.reg.irqPending = false ∧ s.server.hw.pc.inTail = false
  fits : ∀ (i : Nat) (sub : Sub), s.server.subs[i]? = some sub → sub.call.fits = true

theorem sharedInv_init (t : UInt64) : SharedInv (.initial t) where
  server := by
    constructor
    · intro i j a b ha
      cases ha
    · intro h
      cases h
    · intro i a ha
      cases ha
  fws := by
    intro i f hi
    cases hi
  alone := by
    intro i j f g hi
    cases hi
  apart := by
    intro i j f sub hi
    cases hi
  waiting := by
    intro h
    have hzero : RegMap.zero.started = true := h
    exact absurd hzero (by decide)
  irq := by
    intro i f hi
    cases hi
  fits := by
    intro i sub hi
    cases hi

namespace SharedInv

/-- The loop is not in the middle of a command when a submit is about to start one. -/
theorem free_of_sub (h : SharedInv s) {i : Nat} {sub : Sub} (hi : s.server.subs[i]? = some sub)
    (hpc : sub.pc = .orStart) : s.server.hw.pc.midCommand = false := by
  have hlocked : sub.pc.locked = true := by
    rw [hpc]
    rfl
  refine Bool.eq_false_iff.mpr fun hmid => ?_
  have hin : s.server.hw.pc.inCommand = true := (Bool.and_eq_true_iff.mp hmid).1
  rcases h.waiting (h.server.inCommand hin) with ⟨j, n, other, hj, hpoll⟩ | ⟨j, f, hj, htake⟩
  · have hij := h.server.excl i j sub other hi hj hlocked (by rw [hpoll]; rfl)
    subst hij
    rw [hi] at hj
    cases hj
    rw [hpc] at hpoll
    cases hpoll
  · have hfree := h.apart j i f sub hj ((h.fws j f hj).active_of_take htake) hi
    rw [hlocked] at hfree
    cases hfree

/-- Nor when the firmware is. -/
theorem free_of_fw (h : SharedInv s) {i : Nat} {f : FwCall} (hi : s.fws[i]? = some f)
    (hact : f.active = true) (hpc : f.call.pc = .orStart) : s.server.hw.pc.midCommand = false := by
  refine Bool.eq_false_iff.mpr fun hmid => ?_
  have hin : s.server.hw.pc.inCommand = true := (Bool.and_eq_true_iff.mp hmid).1
  rcases h.waiting (h.server.inCommand hin) with ⟨j, n, sub, hj, hpoll⟩ | ⟨j, g, hj, htake⟩
  · have hfree := h.apart i j f sub hi hact hj
    rw [hpoll] at hfree
    cases hfree
  · have hij := h.alone i j f g hi hj hact ((h.fws j g hj).active_of_take htake)
    subst hij
    rw [hi] at hj
    cases hj
    rw [hpc] at htake
    cases htake

end SharedInv

/-- Nothing is in progress. -/
theorem idle_iff (h : s.idle = true) :
    (∀ (i : Nat) (f : FwCall), s.fws[i]? = some f → f.active = false) ∧
      ∀ (i : Nat) (sub : Sub), s.server.subs[i]? = some sub → sub.pc.locked = false := by
  obtain ⟨hfws, hsubs⟩ := Bool.and_eq_true_iff.mp h
  refine ⟨?_, ?_⟩
  · intro i f hi
    have hf := List.all_eq_true.mp hfws f (List.mem_of_getElem? hi)
    rwa [Bool.not_eq_true'] at hf
  · intro i sub hi
    have hsub := List.all_eq_true.mp hsubs sub (List.mem_of_getElem? hi)
    rwa [Bool.not_eq_true'] at hsub

/-- A run with the two kept apart. -/
def Cooperating (s : SharedState) (a : SharedAct) : Prop :=
  keptApart s a = true ∧ quietCompute s a = true ∧ serverFits s a = true

/-! ### Steps of the server -/

theorem keptApart_lock {b : SubmitAct} (h : keptApart s (.server b) = true) :
    lockExclusive s.server b = true := by
  cases b with
  | sub i =>
    simp only [keptApart, lockExclusive, SharedState.idle] at h ⊢
    cases hi : s.server.subs[i]? with
    | none => rfl
    | some sub =>
      simp only [hi, Option.all_some, Bool.or_eq_true, Bool.and_eq_true] at h ⊢
      exact h.imp id And.right
  | _ => rfl

theorem SharedInv.deviceFree (h : SharedInv s) (b : SubmitAct) : deviceFree s.server b = true := by
  cases b with
  | sub i =>
    cases hi : s.server.subs[i]? with
    | none => simp only [Deepspan.deviceFree, hi, Option.all_none]
    | some sub =>
      simp only [Deepspan.deviceFree, hi, Option.all_some, Bool.or_eq_true, bne_iff_ne, ne_eq,
        Bool.not_eq_eq_eq_not, Bool.not_true]
      by_cases hpc : sub.pc = .orStart
      · exact .inr (h.free_of_sub hi hpc)
      · exact .inl hpc
  | _ => rfl

/-- Beside a submit that moves no call of the firmware is in progress. -/
theorem SharedInv.none_active (h : SharedInv s) {i : Nat} {sub sub' : Sub} {seg' : Segment}
    (hg : keptApart s (.server (.sub i)) = true) (hi : s.server.subs[i]? = some sub)
    (hs : sub.exec .crc32 s.server.hw = some (sub', seg')) :
    ∀ (j : Nat) (f : FwCall), s.fws[j]? = some f → f.active = false := by
  rcases exec_locked hs with hlocked | hlock
  · intro j f hj
    refine Bool.eq_false_iff.mpr fun hact => ?_
    have hfree := h.apart j i f sub hj hact hi
    rw [hlocked] at hfree
    cases hfree
  · simp only [keptApart, hi, Option.all_some, hlock, bne_self_eq_false, Bool.false_or] at hg
    exact (idle_iff hg).1

theorem sharedInv_sub (h : SharedInv s) {i : Nat} {sub sub' : Sub} {seg' : Segment} {t : SubmitState}
    (hg : keptApart s (.server (.sub i)) = true) (hlim : noPollLimit s.server (.sub i) = true)
    (hi : s.server.subs[i]? = some sub) (hs : sub.exec .crc32 s.server.hw = some (sub', seg'))
    (hhw : t.hw = { s.server.hw with seg := seg' }) (hsubs : t.subs = s.server.subs.set i sub')
    (hinv : Inv .crc32 t) : SharedInv { s with server := t } := by
  have hnone := h.none_active hg hi hs
  refine ⟨hinv, ?_, h.alone, ?_, ?_, ?_, ?_⟩
  · intro j f hj
    exact (h.fws j f hj).passive (hnone j f hj) (by rw [hhw])
  · intro j k f other hj hact
    rw [hnone j f hj] at hact
    cases hact
  · -- whoever set START still waits for it
    intro hst
    simp only [hhw] at hst
    rcases exec_waits hs (noPollLimit_sub hlim hi) hst with ⟨n, hn⟩ | ⟨hst', hnot⟩
    · refine .inl ⟨i, n, sub', ?_, hn⟩
      simp only [hsubs]
      exact getElem?_set_self_of hi
    · rcases h.waiting hst' with ⟨j, n, other, hj, hpoll⟩ | ⟨j, f, hj, htake⟩
      · refine .inl ⟨j, n, other, ?_, hpoll⟩
        simp only [hsubs]
        refine getElem?_set_of_ne ?_ hj
        rintro rfl
        rw [hi] at hj
        cases hj
        exact hnot n hpoll
      · exact .inr ⟨j, f, hj, htake⟩
  · intro j f hj htake
    have hact := (h.fws j f hj).active_of_take htake
    rw [hnone j f hj] at hact
    cases hact
  · intro j other hj
    simp only [hsubs] at hj
    rcases getElem?_set_cases hi hj with ⟨rfl, rfl⟩ | ⟨_, hj⟩
    · rw [exec_call hs]
      exact h.fits j sub hi
    · exact h.fits j other hj

theorem sharedInv_device (h : SharedInv s) {t : SubmitState}
    (hdev : s.server.hw.pollLoopStep cfg = some t.hw) (hsubs : t.subs = s.server.subs)
    (hinv : Inv .crc32 t) : SharedInv { s with server := t } := by
  refine ⟨hinv, ?_, h.alone, ?_, ?_, ?_, ?_⟩
  · exact fun j f hj => fwOk_device (h.fws j f hj) hdev
  · intro j k f sub hj hact hk
    simp only [hsubs] at hk
    exact h.apart j k f sub hj hact hk
  · intro hst
    simp only [hsubs]
    exact h.waiting (started_step hdev hst)
  · intro j f hj htake hst
    obtain ⟨hclear, htail⟩ := h.irq j f hj htake (started_step hdev hst)
    obtain ⟨hirq, htail'⟩ := inTail_step hdev hst htail
    exact ⟨hirq.trans hclear, htail'⟩
  · intro j sub hj
    simp only [hsubs] at hj
    exact h.fits j sub hj

theorem sharedInv_ctrl (h : SharedInv s) {t : SubmitState} {ctrl : UInt32} {running : Bool}
    (hst : { s.server.hw.seg.reg with ctrl := ctrl }.started = s.server.hw.seg.reg.started)
    (hhw : t.hw = { s.server.hw with
      running := running, seg := s.server.hw.seg.withReg fun r => { r with ctrl := ctrl } })
    (hsubs : t.subs = s.server.subs) (hinv : Inv .crc32 t) : SharedInv { s with server := t } := by
  have hst' : t.hw.seg.reg.started = s.server.hw.seg.reg.started := by
    rw [hhw]
    exact hst
  refine ⟨hinv, ?_, h.alone, ?_, ?_, ?_, ?_⟩
  · intro j f hj
    simp only [hhw]
    exact fwOk_ctrl hst (h.fws j f hj)
  · intro j k f sub hj hact hk
    simp only [hsubs] at hk
    exact h.apart j k f sub hj hact hk
  · intro hstarted
    simp only [hsubs]
    exact h.waiting (hst'.symm.trans hstarted)
  · intro j f hj htake hstarted
    have hirq := h.irq j f hj htake (hst'.symm.trans hstarted)
    simp only [hhw]
    exact hirq
  · intro j sub hj
    simp only [hsubs] at hj
    exact h.fits j sub hj

theorem sharedInv_submit (h : SharedInv s) {t : SubmitState} {inst : Nat} {call : Call}
    (hhw : t.hw = s.server.hw) (hsubs : t.subs = s.server.subs ++ [⟨inst, call, .lock, 0⟩])
    (hfits : call.fits = true) (hinv : Inv .crc32 t) : SharedInv { s with server := t } := by
  refine ⟨hinv, ?_, h.alone, ?_, ?_, ?_, ?_⟩
  · intro j f hj
    simp only [hhw]
    exact h.fws j f hj
  · intro j k f sub hj hact hk
    simp only [hsubs] at hk
    rcases getElem?_concat_cases hk with hk | ⟨_, rfl⟩
    · exact h.apart j k f sub hj hact hk
    · rfl
  · intro hst
    simp only [hhw] at hst
    rcases h.waiting hst with ⟨j, n, sub, hj, hpoll⟩ | hfw
    · refine .inl ⟨j, n, sub, ?_, hpoll⟩
      simp only [hsubs]
      exact (List.getElem?_append_left (List.getElem?_eq_some_iff.mp hj).1).trans hj
    · exact .inr hfw
  · intro j f hj htake hst
    simp only [hhw] at hst ⊢
    exact h.irq j f hj htake hst
  · intro j sub hj
    simp only [hsubs] at hj
    rcases getElem?_concat_cases hj with hj | ⟨_, rfl⟩
    · exact h.fits j sub hj
    · exact hfits

theorem sharedInv_server (h : SharedInv s) {b : SubmitAct} {t : SubmitState}
    (hg : Cooperating s (.server b)) (hs : s.server.step .crc32 cfg b = some t) :
    SharedInv { s with server := t } := by
  have hinv := inv_step h.server (keptApart_lock hg.1) (h.deviceFree b) hs
  rcases SubmitState.step_cases hs with ⟨inst, call, hhw, hsubs, hb⟩ |
      ⟨i, sub, sub', seg', rfl, hi, hexec, hhw, hsubs⟩ | ⟨_, hdev, hsubs⟩ |
      ⟨ctrl, running, hst, hhw, hsubs⟩
  · refine sharedInv_submit h hhw hsubs ?_ hinv
    rcases hb with rfl | rfl
    · exact hg.2.2
    · exact hg.2.2
  · exact sharedInv_sub h hg.1 hg.2.2 hi hexec hhw hsubs hinv
  · exact sharedInv_device h hdev hsubs hinv
  · exact sharedInv_ctrl h hst hhw hsubs hinv

/-! ### Steps of the firmware -/

theorem sharedInv_compute (h : SharedInv s) {data : List UInt8} (hle : data.length ≤ shmDmaMaxLen)
    (arg1 : UInt32) : SharedInv { s with fws := s.fws ++ [.new data arg1] } := by
  refine ⟨h.server, ?_, ?_, ?_, ?_, ?_, h.fits⟩
  · intro j f hj
    rcases getElem?_concat_cases hj with hj | ⟨_, rfl⟩
    · exact h.fws j f hj
    · exact fwOk_new hle arg1
  · intro j k f g hj hk hf hg
    rcases getElem?_concat_cases hj with hj | ⟨_, rfl⟩
    · rcases getElem?_concat_cases hk with hk | ⟨_, rfl⟩
      · exact h.alone j k f g hj hk hf hg
      · cases hg
    · cases hf
  · intro j k f sub hj hact
    rcases getElem?_concat_cases hj with hj | ⟨_, rfl⟩
    · exact h.apart j k f sub hj hact
    · cases hact
  · intro hst
    rcases h.waiting hst with hsub | ⟨j, f, hj, htake⟩
    · exact .inl hsub
    · exact .inr ⟨j, f, (List.getElem?_append_left (List.getElem?_eq_some_iff.mp hj).1).trans hj, htake⟩
  · intro j f hj htake
    rcases getElem?_concat_cases hj with hj | ⟨_, rfl⟩
    · exact h.irq j f hj htake
    · cases htake

/-- The firmware stages its bytes while nothing is in progress. -/
theorem sharedInv_setDma (h : SharedInv s) {i : Nat} {f : FwCall} (hidle : s.idle = true)
    (hi : s.fws[i]? = some f) (hstaged : f.staged = false) :
    SharedInv { s.withSeg (s.server.hw.seg.copyDma f.data) with
      fws := s.fws.set i { f with staged := true } } := by
  obtain ⟨hnone, hfree⟩ := idle_iff hidle
  have hfresh := (h.fws i f hi).fresh hstaged
  refine ⟨inv_unlocked h.server hfree id, ?_, ?_, ?_, ?_, ?_, h.fits⟩
  · intro j g hj
    rcases getElem?_set_cases hi hj with ⟨rfl, rfl⟩ | ⟨_, hj⟩
    · exact fwOk_setDma (h.fws j f hi) hstaged
    · exact (h.fws j g hj).passive (hnone j g hj) rfl
  · intro j k g g' hj hk hg hg'
    rcases getElem?_set_cases hi hj with ⟨rfl, _⟩ | ⟨_, hj⟩
    · rcases getElem?_set_cases hi hk with ⟨rfl, _⟩ | ⟨_, hk⟩
      · rfl
      · rw [hnone k g' hk] at hg'
        cases hg'
    · rw [hnone j g hj] at hg
      cases hg
  · intro j k g sub _ _ hk
    exact hfree k sub hk
  · intro hst
    rcases h.waiting hst with hsub | ⟨j, g, hj, htake⟩
    · exact .inl hsub
    · have hact := (h.fws j g hj).active_of_take htake
      rw [hnone j g hj] at hact
      cases hact
  · intro j g hj htake
    rcases getElem?_set_cases hi hj with ⟨_, rfl⟩ | ⟨_, hj⟩
    · rw [hfresh] at htake
      cases htake
    · have hact := (h.fws j g hj).active_of_take htake
      rw [hnone j g hj] at hact
      cases hact

/-- A command moves on: it is the only call in progress. -/
theorem sharedInv_submitCmd (h : SharedInv s) {i : Nat} {f : FwCall} {c : CmdCall} {seg : Segment}
    {drv : Driver} (hi : s.fws[i]? = some f) (hstaged : f.staged = true)
    (hs : f.call.exec s.server.hw s.drv = some (c, seg, drv))
    (hquiet : f.call.pc = .orStart → s.quiet = true) :
    SharedInv { s.withSeg seg with drv := drv, fws := s.fws.set i { f with call := c } } := by
  have hact : f.active = true := by
    rw [FwCall.active, hstaged, cmdExec_not_ended hs]
    rfl
  have hnone : ∀ (j : Nat) (g : FwCall), j ≠ i → s.fws[j]? = some g → g.active = false := by
    intro j g hji hj
    exact Bool.eq_false_iff.mpr fun hg => hji (h.alone j i g f hj hi hg hact)
  have hfree : ∀ (j : Nat) (sub : Sub), s.server.subs[j]? = some sub → sub.pc.locked = false :=
    fun j sub hj => h.apart i j f sub hi hact hj
  have hquiet' (hpc : f.call.pc = .orStart) : (s.drv.cmdDone = false ∧ s.drv.thread = .load) ∧
      s.server.hw.seg.reg.irqPending = false ∧ s.server.hw.pc.inTail = false := by
    have hq := hquiet hpc
    simp only [SharedState.quiet, Bool.and_eq_true, Bool.not_eq_true', beq_iff_eq] at hq
    exact ⟨hq.1.1, hq.1.2, hq.2⟩
  obtain ⟨hirq, hstep⟩ := cmdExec_start hs
  refine ⟨inv_unlocked h.server hfree (cmdExec_started hs), ?_, ?_, ?_, ?_, ?_, h.fits⟩
  · intro j g hj
    rcases getElem?_set_cases hi hj with ⟨rfl, rfl⟩ | ⟨hji, hj⟩
    · refine fwOk_exec (h.fws j f hi) hstaged hs ?_
      exact fun hpc => ⟨h.free_of_fw hi hact hpc, (hquiet' hpc).1⟩
    · exact (h.fws j g hj).passive (hnone j g hji hj) rfl
  · intro j k g g' hj hk hg hg'
    rcases getElem?_set_cases hi hj with ⟨rfl, _⟩ | ⟨hji, hj⟩
    · rcases getElem?_set_cases hi hk with ⟨rfl, _⟩ | ⟨hki, hk⟩
      · rfl
      · rw [hnone k g' hki hk] at hg'
        cases hg'
    · rw [hnone j g hji hj] at hg
      cases hg
  · intro j k g sub _ _ hk
    exact hfree k sub hk
  · intro hst
    rcases cmdExec_waits (h.fws i f hi).cmd hs hst with hpc | ⟨hst', hpc⟩
    · exact .inr ⟨i, _, getElem?_set_self_of hi, hpc⟩
    · rcases h.waiting hst' with hsub | ⟨j, g, hj, htake⟩
      · exact .inl hsub
      · refine .inr ⟨j, g, getElem?_set_of_ne ?_ hj, htake⟩
        rintro rfl
        rw [hi] at hj
        cases hj
        exact hpc htake
  · intro j g hj htake hst
    rcases getElem?_set_cases hi hj with ⟨rfl, rfl⟩ | ⟨hji, hj⟩
    · rcases hstep with ⟨hpc, _, _⟩ | ⟨_, hnot, _, _⟩
      · -- START is set in silence
        obtain ⟨_, hclear, htail⟩ := hquiet' hpc
        exact ⟨hirq.trans hclear, htail⟩
      · exact absurd htake hnot
    · have hg := (h.fws j g hj).active_of_take htake
      rw [hnone j g hji hj] at hg
      cases hg

theorem sharedInv_pollThread (h : SharedInv s) {drv : Driver} {seg : Segment}
    (hs : s.drv.pollThreadStep .w1c s.server.hw.seg = (drv, seg)) :
    SharedInv { s.withSeg seg with drv := drv } := by
  have hstep := hs
  obtain ⟨irq, rfl⟩ := pollThread_irqStatus hs
  refine ⟨inv_irq h.server irq, ?_, h.alone, h.apart, h.waiting, ?_, h.fits⟩
  · intro j f hj
    exact fwOk_pollThread (h.fws j f hj) hs fun hpc hst _ => (h.irq j f hj hpc hst).1
  · intro j f hj htake hst
    obtain ⟨hclear, htail⟩ := h.irq j f hj htake hst
    refine ⟨?_, htail⟩
    unfold Driver.pollThreadStep at hstep
    cases hp : s.drv.thread with
    | ack =>
      simp only [hp, Prod.mk.injEq] at hstep
      simp only [SharedState.withSeg, ← hstep.2]
      exact irqPending_ack ..
    | _ =>
      simp only [hp, Prod.mk.injEq] at hstep
      simp only [SharedState.withSeg, ← hstep.2]
      exact hclear

theorem sharedInv_step (h : SharedInv s) (hg : Cooperating s a) (hs : s.step cfg a = some s') :
    SharedInv s' := by
  cases sharedStep_cases hs with
  | server ht => exact sharedInv_server h hg ht
  | compute hle => exact sharedInv_compute h hle _
  | oversize => exact h
  | @setDma i f hi hstaged =>
    have hidle := hg.1
    simp only [keptApart, hi, Option.all_some, hstaged, Bool.false_or] at hidle
    exact sharedInv_setDma h hidle hi hstaged
  | @submitCmd i f c seg drv hi hstaged hexec =>
    refine sharedInv_submitCmd h hi hstaged hexec ?_
    intro hpc
    have hquiet := hg.2.1
    simpa [quietCompute, hi, hstaged, hpc] using hquiet
  | pollThread hthread => exact sharedInv_pollThread h hthread

theorem reach_sharedInv (h : Reach (sharedSystem cfg) Cooperating s) : SharedInv s := by
  refine h.invariant ?_ ?_
  · rintro _ ⟨t, rfl⟩
    exact sharedInv_init t
  · intro s a s' hinv hg hs
    exact sharedInv_step hinv hg hs

/-! ## The checksums -/

/-- The hw-model of the stack, whose handler is `deepspan_crc32_dispatch`. -/
def crc32Config (autoIrq : Bool) : HwModelConfig where
  autoIrq := autoIrq
  cmdHandler := crc32Handler true

theorem reach_shared_logged {G : SharedState → SharedAct → Prop}
    (h : Reach (sharedSystem cfg) G s) : Logged cfg s.server.hw.log := by
  refine h.invariant (P := fun s => Logged cfg s.server.hw.log) ?_ ?_
  · rintro _ ⟨t, rfl⟩ i inv hinv
    cases hinv
  · intro s a s' hlog _ hs
    cases sharedStep_cases hs with
    | server ht =>
      rcases SubmitState.step_cases ht with ⟨_, _, hhw, _, _⟩ | ⟨_, _, _, _, _, _, _, hhw, _⟩ |
          ⟨_, hdev, _⟩ | ⟨_, _, _, hhw, _⟩
      · simp only [hhw]
        exact hlog
      · simp only [hhw]
        exact hlog
      · exact logged_step hlog hdev
      · simp only [hhw]
        exact hlog
    | compute _ | oversize | setDma _ _ | submitCmd _ _ _ | pollThread _ => exact hlog

/-- Every call that has returned 0, and every submit that has returned, has the checksum
of its own bytes. -/
def OwnChecksums (s : SharedState) : Prop :=
  (∀ (i : Nat) (f : FwCall) (status data0 data1 : UInt32), s.fws[i]? = some f →
    f.call.pc = .returned status data0 data1 → data0 = crc32Ieee f.data) ∧
  ∀ (i : Nat) (sub : Sub) (r0 r1 : UInt32), s.server.subs[i]? = some sub →
    sub.call.opcode = Crc32Op.compute → sub.pc = .returned r0 r1 → r0 = crc32Ieee sub.call.payload

/-- What the handler has replied to COMPUTE. -/
theorem Logged.compute_reply {autoIrq : Bool} {log : List Invocation} {mark : Nat} {inv : Invocation}
    {bytes : List UInt8} (h : Logged (crc32Config autoIrq) log) (hinv : log[mark]? = some inv)
    (hop : inv.opcode = Crc32Op.compute) (harg : inv.arg0 = UInt32.ofNat bytes.length)
    (hfits : bytes.length ≤ shmDmaMaxLen) (hdma : inv.seg.HoldsDma bytes) :
    inv.reply.r0 = crc32Ieee bytes := by
  have hreply := h mark inv hinv
  have hlen : (UInt32.ofNat bytes.length).toNat = bytes.length := by
    refine UInt32.toNat_ofNat_of_lt' (Nat.lt_of_le_of_lt hfits ?_)
    decide
  rw [hop, harg] at hreply
  have hcrc : crc32Handler true (log.take mark) Crc32Op.compute (UInt32.ofNat bytes.length) inv.arg1
      inv.seg = some ⟨0, crc32Ieee bytes, 0⟩ := crc32Handler_compute hlen hdma
  rw [show (crc32Config autoIrq).cmdHandler = crc32Handler true from rfl, hcrc] at hreply
  rw [← Option.some.inj hreply]

/-- The firmware and the server on one segment, any number of times: both get the checksum
of their own bytes as long as they are kept apart, the firmware sets START only when
nothing is left of an earlier completion, and the server's payload fits into the window. -/
theorem own_checksums {autoIrq : Bool}
    (h : Reach (sharedSystem (crc32Config autoIrq)) Cooperating s) : OwnChecksums s := by
  have hinv := reach_sharedInv h
  have hlog := reach_shared_logged h
  refine ⟨?_, ?_⟩
  · intro i f status data0 data1 hi hpc
    have hf := hinv.fws i f hi
    have hcmd := hf.cmd
    simp only [CmdOk, hpc] at hcmd
    obtain ⟨inv, hmark, hfor, hreply⟩ := hcmd
    have hdma := hf.read (by rw [hpc]; rfl) inv hmark
    have hr0 := hlog.compute_reply hmark (hfor.opcode.trans hf.compute.1)
      (hfor.arg0.trans hf.compute.2) hf.fits hdma
    rw [hreply] at hr0
    exact hr0
  · intro i sub r0 r1 hi hop hpc
    have hsub := hinv.server.calls i sub hi
    simp only [SubOk, hpc] at hsub
    obtain ⟨status, inv, hmark, hfor, hreply⟩ := hsub
    have hfits : sub.call.payload.length ≤ shmDmaMaxLen := of_decide_eq_true (hinv.fits i sub hi)
    have hcmd : PluginKind.crc32.cmd sub.call =
        ⟨Crc32Op.compute, UInt32.ofNat sub.call.payload.length, 0, sub.call.payload⟩ := by
      rw [PluginKind.cmd, crc32Cmd_compute hop, Nat.min_eq_left hfits, List.take_length]
    rw [hcmd] at hfor
    have hr0 := hlog.compute_reply hmark hfor.opcode hfor.arg0 hfits hfor.dma
    rw [hreply] at hr0
    exact hr0

/-- A COMPUTE of the server over one byte, from the RPC to its end. -/
def serverCompute (byte : UInt8) : List SharedAct :=
  schedule [(1, .server (.pluginSubmit ⟨"crc32/0", Crc32Op.compute, [byte]⟩)),
    (6, .server (.sub 0)), (16, .server .device), (3, .server (.sub 0))]

/-- The firmware's call over one byte, up to START. -/
def firmwareStart (byte : UInt8) : List SharedAct := schedule [(1, .compute [byte] 0), (6, .fw 0)]

/-- The server submits "a" and is answered; the poll thread gives `cmd_done` for it. Then
the firmware submits "b", and returns before the hw-model has looked at it. -/
theorem firmware_takes_server_checksum :
    ¬∀ s, Reach (sharedSystem (crc32Config true))
      (fun s a => keptApart s a = true ∧ serverFits s a = true) s → OwnChecksums s := by
  intro hall
  have hrun : (replay (sharedSystem (crc32Config true)) (fun s a => keptApart s a && serverFits s a)
      (.initial 0) (serverCompute 0x61 ++ schedule [(6, .pollThread)] ++ firmwareStart 0x62 ++
        schedule [(4, .fw 0)])).map (fun s => s.fws) =
      some [⟨[0x62], true, ⟨1, 1, 0, .returned 0 0xE8B7BE43 0, 1⟩⟩] := by decide +kernel
  obtain ⟨s, hs, hfws⟩ := Option.map_eq_some_iff.mp hrun
  have hreach : Reach (sharedSystem (crc32Config true))
      (fun s a => keptApart s a = true ∧ serverFits s a = true) s :=
    replay_reach (fun _ _ h => Bool.and_eq_true_iff.mp h) (.init ⟨0, rfl⟩) hs
  have hown := (hall s hreach).1 0 _ 0 0xE8B7BE43 0 (by rw [hfws]; rfl) rfl
  exact absurd hown (by decide +kernel)

/-- The firmware goes first. -/
theorem own_checksums_in_turn :
    ∃ s, Reach (sharedSystem (crc32Config true)) Cooperating s ∧ OwnChecksums s ∧
      s.fws.map (fun f => f.call.pc) = [.returned 0 0x71BEEFF9 0] ∧
      s.server.subs.map (fun sub => sub.pc) = [.returned 0xE8B7BE43 0] := by
  have hrun : (replay (sharedSystem (crc32Config true))
      (fun s a => keptApart s a && (quietCompute s a && serverFits s a)) (.initial 0)
      (firmwareStart 0x62 ++ schedule [(16, .server .device), (6, .pollThread), (4, .fw 0)] ++
        serverCompute 0x61)).map
          (fun s => (s.fws.map (fun f => f.call.pc), s.server.subs.map (fun sub => sub.pc))) =
      some ([.returned 0 0x71BEEFF9 0], [.returned 0xE8B7BE43 0]) := by decide +kernel
  obtain ⟨s, hs, hview⟩ := Option.map_eq_some_iff.mp hrun
  rw [Prod.mk.injEq] at hview
  have hguard : ∀ s a, (keptApart s a && (quietCompute s a && serverFits s a)) = true →
      Cooperating s a := by
    intro s a hg
    rw [Bool.and_eq_true, Bool.and_eq_true] at hg
    exact hg
  have hreach : Reach (sharedSystem (crc32Config true)) Cooperating s :=
    replay_reach hguard (.init ⟨0, rfl⟩) hs
  exact ⟨s, hreach, own_checksums hreach, hview.1, hview.2⟩

end Deepspan
