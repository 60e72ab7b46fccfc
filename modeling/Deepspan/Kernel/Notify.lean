import Deepspan.Kernel.Driver

/-!
# No completion is left behind

A buffer in the used ring needs somebody who will still look at the ring: the work
item, scheduled or on its way to `virtqueue_get_buf`, or a callback that will
schedule it (`Attended`). Two clauses make the invariant: used buffers are
attended, and callbacks are disabled only on the way from the callback to the end
of the work item (`Notified`).

The second clause leaves one gap, between the last, empty poll of the ring and
`virtqueue_enable_cb`. A completion that falls into it raises no callback, and
`deepspan_tx_work_fn` does not look at what `virtqueue_enable_cb` returns.
`completions_attended` is about the runs without such a completion, and
`completion_stranded` is a run with one.
-/

namespace Deepspan

open Transition

/-- The work item will call `virtqueue_get_buf` again in this run of it. -/
def WorkerPc.willPoll : WorkerPc → Bool
  | .idle | .enableCb | .unlockEnd => false
  | _ => true

/-- Somebody will still look at the used ring. -/
def KernelState.Attended (s : KernelState) : Prop :=
  s.workScheduled = true ∨ s.worker.willPoll = true ∨ s.irq = true ∨ s.cb ≠ .idle

/-- No completion is stranded. -/
def NoneStranded (s : KernelState) : Prop := s.used ≠ [] → s.Attended

/-- No completion falls between the last poll of the ring and the enabling of the
callbacks, unless something else will have the ring polled again. -/
def noLateCompletion (s : KernelState) : KernelAct → Bool
  | .complete _ _ =>
    !(s.worker == .enableCb && !s.cbEnabled && !s.workScheduled && !s.irq && s.cb == .idle)
  | _ => true

structure Notified (s : KernelState) : Prop where
  attended : NoneStranded s
  disabled : s.cbEnabled = false →
    s.workScheduled = true ∨ s.worker.willPoll = true ∨ s.worker = .enableCb ∨
      s.cb = .scheduleWork

/-- The calls of `deepspan_uring_cmd_issue` have no part in it. -/
theorem issueStep_notify {s s' : KernelState} {r : Nat} {out : Outcome}
    (h : s.issueStep r out = some s') :
    s'.used = s.used ∧ s'.cbEnabled = s.cbEnabled ∧ s'.irq = s.irq ∧ s'.cb = s.cb ∧
      s'.workScheduled = s.workScheduled ∧ s'.worker = s.worker := by
  cases issueStep_cases h <;> exact ⟨rfl, rfl, rfl, rfl, rfl, rfl⟩

theorem notified_init : Notified .initial where
  attended := fun h => absurd rfl h
  disabled := by
    intro h
    cases h

/-- A step of the work item: as long as it will poll it attends to the ring, and
when it will not, it has found the ring empty or somebody else attends to it. -/
theorem notified_worker {s s' : KernelState} (h : Notified s) (hs : s.workerStep = some s') :
    Notified s' := by
  obtain ⟨hatt, hdis⟩ := h
  cases workerStep_cases hs with
  | empty hp hused =>
    exact ⟨fun hne => absurd hused hne, fun _ => .inr (.inr (.inl rfl))⟩
  | enableCb hp =>
    refine ⟨?_, fun hcb => by cases hcb⟩
    intro hne
    rcases hatt hne with hw | hw | hrest
    · exact .inl hw
    · rw [hp] at hw
      cases hw
    · exact .inr (.inr hrest)
  | unlockEnd hp =>
    refine ⟨?_, ?_⟩
    · intro hne
      rcases hatt hne with hw | hw | hrest
      · exact .inl hw
      · rw [hp] at hw
        cases hw
      · exact .inr (.inr hrest)
    · intro hcb
      rcases hdis hcb with hw | hw | hw | hw
      · exact .inl hw
      · rw [hp] at hw
        cases hw
      · rw [hp] at hw
        cases hw
      · exact .inr (.inr (.inr hw))
  | _ => exact ⟨fun _ => .inr (.inl rfl), fun _ => .inr (.inl rfl)⟩

/-- A completion raises the callback, or comes while callbacks are disabled because
the ring will be polled; the guard is for the one remaining case. -/
theorem notified_complete {s s' : KernelState} {r : Nat} {hdr : ResultHdr} (h : Notified s)
    (hg : noLateCompletion s (.complete r hdr) = true)
    (hs : s.step (.complete r hdr) = some s') : Notified s' := by
  obtain ⟨hatt, hdis⟩ := h
  cases KernelState.step_cases hs with
  | complete hr hmem =>
    refine ⟨fun _ => ?_, hdis⟩
    cases hcb : s.cbEnabled with
    | true => exact .inr (.inr (.inl (Bool.or_true _)))
    | false =>
      rcases hdis hcb with hw | hw | hw | hw
      · exact .inl hw
      · exact .inr (.inl hw)
      · simp only [noLateCompletion, hw, hcb, beq_self_eq_true, Bool.not_false, Bool.true_and,
          Bool.not_eq_eq_eq_not, Bool.not_true, Bool.and_eq_false_iff,
          beq_eq_false_iff_ne] at hg
        rcases hg with (hsched | hirq) | hidle
        · exact .inl hsched
        · exact .inr (.inr (.inl (by rw [hirq]; rfl)))
        · exact .inr (.inr (.inr hidle))
      · refine .inr (.inr (.inr ?_))
        rw [hw]
        exact fun hne => by cases hne

theorem notified_step {s s' : KernelState} {a : KernelAct} (h : Notified s)
    (hg : noLateCompletion s a = true) (hs : s.step a = some s') : Notified s' := by
  cases KernelState.step_cases hs with
  | uringCmd ureq => exact ⟨h.attended, h.disabled⟩
  | issue hs =>
    obtain ⟨hused, hen, hirq, hcb, hsched, hworker⟩ := issueStep_notify hs
    refine ⟨?_, ?_⟩
    · unfold NoneStranded KernelState.Attended
      rw [hused, hirq, hcb, hsched, hworker]
      exact h.attended
    · rw [hen, hcb, hsched, hworker]
      exact h.disabled
  | complete hr hmem => exact notified_complete h hg hs
  | interrupt hirq hidle =>
    refine ⟨fun _ => .inr (.inr (.inr fun hne => by cases hne)), ?_⟩
    intro hcb
    rcases h.disabled hcb with hw | hw | hw | hw
    · exact .inl hw
    · exact .inr (.inl hw)
    · exact .inr (.inr (.inl hw))
    · rw [hidle] at hw
      cases hw
  | disableCb hp =>
    exact ⟨fun _ => .inr (.inr (.inr fun hne => by cases hne)), fun _ => .inr (.inr (.inr rfl))⟩
  | scheduleWork hp => exact ⟨fun _ => .inl rfl, fun _ => .inl rfl⟩
  | startWork hsched hidle => exact ⟨fun _ => .inr (.inl rfl), fun _ => .inr (.inl rfl)⟩
  | worker hs => exact notified_worker h hs

/-- In every run in which no completion falls between the last poll of the ring and
`virtqueue_enable_cb`, no completion is ever stranded. -/
theorem completions_attended {s : KernelState}
    (h : Reach kernelSystem (fun s a => noLateCompletion s a = true) s) : NoneStranded s := by
  have hinv : Notified s := by
    refine h.invariant ?_ ?_
    · rintro _ rfl
      exact notified_init
    · intro s a s' hinv hg hs
      exact notified_step hinv hg hs
  exact hinv.attended

/-! ## Runs -/

/-- A command without payload. -/
def plainReq (opcode : UInt32) : CmdReq := ⟨opcode, 0, 0, 0, 0⟩

/-- Call `r` runs to its end and is queued, with request id `k`. -/
def queued (r k : Nat) : List KernelAct :=
  [.uringCmd (plainReq 1), .issue r .ok, .issue r .ok, .issue r .ok, .issue r .ok, .issue r (.id k),
    .issue r .ok, .issue r .ok, .issue r .ok, .issue r .ok]

/-- Two requests are queued, the first is completed and its callback schedules the
work item. -/
def firstCompletion : List KernelAct :=
  queued 0 1 ++ queued 1 2 ++ ([.complete 0 ⟨0, 7, 8⟩, .interrupt, .cb, .cb] : List KernelAct)

/-- The second completion comes while the work item is at the first one. -/
theorem completions_attended_two :
    ∃ s : KernelState, s.used = [1] ∧ s.cbEnabled = false ∧ NoneStranded s := by
  obtain ⟨s, hrun, hview⟩ := Option.map_eq_some_iff.mp (show
    (replay kernelSystem noLateCompletion .initial (firstCompletion ++
      schedule [(1, .startWork), (4, .worker), (1, .complete 1 ⟨0, 9, 9⟩)])).map
        (fun s => (s.used, s.cbEnabled)) = some ([1], false) by decide)
  have hinit : Reach kernelSystem (fun s a => noLateCompletion s a = true) .initial := .init rfl
  have hreach := replay_reach (fun _ _ h => h) hinit hrun
  exact ⟨s, congrArg Prod.fst hview, congrArg Prod.snd hview, completions_attended hreach⟩

/-- The second completion comes after the last poll of the ring: it stays in the
used ring with callbacks enabled, nothing scheduled and no callback to come. -/
theorem completion_stranded :
    ∃ s : KernelState, Reach kernelSystem (fun _ _ => True) s ∧ s.used = [1] ∧
      s.cbEnabled = true ∧ ¬NoneStranded s := by
  obtain ⟨s, hrun, hview⟩ := Option.map_eq_some_iff.mp (show
    (replay kernelSystem (fun _ _ => true) .initial (firstCompletion ++
      schedule [(1, .startWork), (9, .worker), (1, .complete 1 ⟨0, 9, 9⟩), (2, .worker)])).map
        (fun s => (s.used, s.cbEnabled, s.workScheduled, s.worker, s.irq, s.cb)) =
      some ([1], true, false, .idle, false, .idle) by decide)
  simp only [Prod.mk.injEq] at hview
  obtain ⟨hused, hen, hsched, hworker, hirq, hcb⟩ := hview
  have hinit : Reach kernelSystem (fun _ _ => True) .initial := .init rfl
  refine ⟨s, replay_reach (fun _ _ _ => trivial) hinit hrun, hused, hen, ?_⟩
  intro hstranded
  rcases hstranded (by rw [hused]; exact List.cons_ne_nil 1 []) with h | h | h | h
  · rw [hsched] at h
    cases h
  · rw [hworker] at h
    cases h
  · rw [hirq] at h
    cases h
  · exact h hcb

end Deepspan
