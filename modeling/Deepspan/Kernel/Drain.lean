import Deepspan.Kernel.Progress
import Deepspan.Kernel.Removal

/-!
# Requests across a removal

A request that has been accepted is owed one `io_uring_cmd_done` and the release of its
buffers. `removal_completes_iff` says in which states a removal that goes on, or begins,
pays all of these debts before it returns, whatever else happens: when each request that
is open has left the available ring, is in the used ring only while `tx_work` runs and
will poll the ring again, and the removal has not yet waited for `tx_work`. Nothing in
`deepspan_virtio_remove` sees to it: a request that is with the device, or whose
completion has only had `tx_work` scheduled, is dropped.

In one direction a request that `tx_work` will get to is carried through
`cancel_work_sync`, which waits for it (`Draining`), and once reported it is left alone
(`Through`). In the other direction the removal is run to its end without the request:
whoever holds `vq_lock` can give it back (`LockHeld`), the work item can be run until it
stops, and every wait of the removal then ends (`exists_returned`).
-/

namespace Deepspan

open Transition

/-- The call that made request `r` has returned `-EIOCBQUEUED`. -/
def KernelState.Accepted (k : KernelState) (r : Nat) : Prop :=
  ∃ req, k.reqs[r]? = some req ∧ req.pc = .returned none

/-- Request `r` has been accepted and not yet completed. -/
def KernelState.Open (k : KernelState) (r : Nat) : Prop :=
  k.Accepted r ∧ r ∉ k.cqes.map Cqe.req

/-- Request `r` has been completed exactly once, and the work item is past the `kfree` of
its buffers. -/
def KernelState.Finished (k : KernelState) (r : Nat) : Prop :=
  (k.cqes.map Cqe.req).count r = 1 ∧ r ∈ k.popped ∧ k.worker.iteration ≠ some r

/-- Some run that has come to `s` goes on to `s'`. -/
def RemovalState.GoesTo (s s' : RemovalState) : Prop :=
  Reach (removalSystem.startedAt s) (fun _ _ => True) s'

/-- What is open in `s` is finished when `deepspan_virtio_remove` has returned. -/
def RemovalState.Completes (s : RemovalState) : Prop :=
  ∀ s', s.GoesTo s' → s'.pc = .returned → ∀ r, s.k.Open r → s'.k.Finished r

/-- The work item will get to every request that is open, and the removal still waits for
the work item. -/
def RemovalState.OpenInHand (s : RemovalState) : Prop :=
  ∀ r, s.k.Open r → s.pc.atLeast .cancelRx = false ∧ r ∉ s.k.avail ∧
    (r ∈ s.k.used → s.k.worker.willPoll = true)

/-! ## Requests that the work item gets to -/

/-- Request `r` has been popped or will be in this run of the work item. -/
structure Draining (r : Nat) (k : KernelState) : Prop where
  audited : Audited k
  accepted : k.Accepted r
  avail : r ∉ k.avail
  used : r ∈ k.used → k.worker.willPoll = true

/-- Nobody has anything to do with request `r` any more. -/
structure Through (r : Nat) (k : KernelState) : Prop where
  accepted : k.Accepted r
  avail : r ∉ k.avail
  used : r ∉ k.used
  finished : k.Finished r

section Kernel

variable {k k' : KernelState} {a : KernelAct} {r : Nat}

/-- A call that has returned does not move. -/
theorem KernelState.Accepted.ne_of_issue {i : Nat} {out : Outcome} (h : k.Accepted r)
    (hs : k.issueStep i out = some k') : i ≠ r := by
  rintro rfl
  obtain ⟨req, hr, hpc⟩ := h
  simp only [KernelState.issueStep, hr, hpc, Request.localStep] at hs
  cases hs

/-- A call leaves everything but its request, the table of ids, the lock and the available
ring alone, and puts no other request than its own into the ring. -/
theorem issueStep_rings {i : Nat} {out : Outcome} (hs : k.issueStep i out = some k') :
    (k'.avail = k.avail ∨ k'.avail = k.avail ++ [i]) ∧ k'.popped = k.popped ∧
      k'.cqes = k.cqes := by
  cases issueStep_cases hs with
  | addSgs hr hpc => exact ⟨.inr rfl, rfl, rfl⟩
  | _ => exact ⟨.inl rfl, rfl, rfl⟩

/-- An accepted request does not come into the available ring again. -/
theorem step_not_avail (hacc : k.Accepted r) (havail : r ∉ k.avail) (hs : k.step a = some k') :
    r ∉ k'.avail := by
  cases KernelState.step_cases hs with
  | issue hs =>
    have hne := hacc.ne_of_issue hs
    rcases (issueStep_rings hs).1 with heq | heq
    · rw [heq]
      exact havail
    · rw [heq, List.mem_append, List.mem_singleton]
      rintro (hmem | rfl)
      · exact havail hmem
      · exact hne rfl
  | complete hr hmem => exact fun hmem => havail (List.mem_of_mem_erase hmem)
  | worker hs =>
    rw [(workerStep_frame hs).2.2]
    exact havail
  | uringCmd ureq | interrupt hirq hidle | disableCb hp | scheduleWork hp | startWork hsched hidle =>
    exact havail

/-- What the device answers comes from the available ring. -/
theorem mem_used_of_complete {i : Nat} (havail : r ∉ k.avail) (hmem : i ∈ k.avail)
    (hr : r ∈ k.used ++ [i]) : r ∈ k.used := by
  rcases List.mem_append.mp hr with hr | hr
  · exact hr
  · cases List.mem_singleton.mp hr
    exact absurd hmem havail

/-- The work item adds nothing to the used ring, and does not leave the loop before the ring
is empty. -/
theorem workerStep_used (hs : k.workerStep = some k') (hr : r ∈ k'.used) :
    r ∈ k.used ∧ (k.worker.willPoll = true → k'.worker.willPoll = true) := by
  cases workerStep_cases hs with
  | pop hp hused =>
    rw [hused]
    exact ⟨List.mem_cons_of_mem _ hr, fun _ => rfl⟩
  | empty hp hused =>
    rw [show k.used = [] from hused] at hr
    cases hr
  | enableCb hp | unlockEnd hp =>
    refine ⟨hr, fun hpoll => ?_⟩
    rw [hp] at hpoll
    cases hpoll
  | _ => exact ⟨hr, fun _ => rfl⟩

/-- A request that is finished and out of the used ring stays finished. -/
theorem workerStep_finished (hs : k.workerStep = some k') (hused : r ∉ k.used)
    (h : k.Finished r) : k'.Finished r := by
  obtain ⟨hcount, hpop, hiter⟩ := h
  cases workerStep_cases hs with
  | pop hp hring =>
    refine ⟨hcount, List.mem_append_left _ hpop, ?_⟩
    intro heq
    cases heq
    exact hused (by rw [hring]; exact List.mem_cons_self)
  | @cmdDone i status res2 hp =>
    rw [hp] at hiter
    have hne : i ≠ r := fun heq => hiter (congrArg some heq)
    refine ⟨?_, hpop, hiter⟩
    rw [List.map_append, List.count_append, hcount]
    simp [hne]
  | unlockGot hp | erase hp =>
    rw [hp] at hiter
    exact ⟨hcount, hpop, hiter⟩
  | readResp hp hr =>
    rw [hp] at hiter
    exact ⟨hcount, hpop, hiter⟩
  | _ => exact ⟨hcount, hpop, fun hne => by cases hne⟩

theorem draining_step (h : Draining r k) (hs : k.step a = some k') : Draining r k' where
  audited := audited_step h.audited hs
  accepted := returned_step h.accepted hs
  avail := step_not_avail h.accepted h.avail hs
  used := by
    cases KernelState.step_cases hs with
    | issue hs =>
      obtain ⟨hused, _, _, _, _, hworker⟩ := issueStep_notify hs
      rw [hused, hworker]
      exact h.used
    | complete hr hmem => exact fun hr => h.used (mem_used_of_complete h.avail hmem hr)
    | startWork hsched hidle => exact fun _ => rfl
    | worker hs =>
      intro hr
      obtain ⟨hr, hpoll⟩ := workerStep_used hs hr
      exact hpoll (h.used hr)
    | uringCmd ureq | interrupt hirq hidle | disableCb hp | scheduleWork hp => exact h.used

theorem through_step (h : Through r k) (hs : k.step a = some k') : Through r k' := by
  have hacc := returned_step h.accepted hs
  have havail := step_not_avail h.accepted h.avail hs
  cases KernelState.step_cases hs with
  | issue hs =>
    obtain ⟨_, hpop, hcqes⟩ := issueStep_rings hs
    obtain ⟨hused, _, _, _, _, hworker⟩ := issueStep_notify hs
    refine ⟨hacc, havail, hused ▸ h.used, ?_⟩
    unfold KernelState.Finished
    rw [hpop, hcqes, hworker]
    exact h.finished
  | complete hr hmem =>
    exact ⟨hacc, havail, fun hr => h.used (mem_used_of_complete h.avail hmem hr), h.finished⟩
  | startWork hsched hidle =>
    exact ⟨hacc, havail, h.used, h.finished.1, h.finished.2.1, fun hne => by cases hne⟩
  | worker hs =>
    exact ⟨hacc, havail, fun hr => h.used (workerStep_used hs hr).1,
      workerStep_finished hs h.used h.finished⟩
  | uringCmd ureq | interrupt hirq hidle | disableCb hp | scheduleWork hp =>
    exact ⟨hacc, havail, h.used, h.finished⟩

/-- When the work item has stopped, it has gotten to the request. -/
theorem Draining.through (h : Draining r k) (hidle : k.worker = .idle) : Through r k := by
  have hused : r ∉ k.used := by
    intro hr
    have hpoll := h.used hr
    rw [hidle] at hpoll
    cases hpoll
  have hpop : r ∈ k.popped := by
    obtain ⟨req, hr, hpc⟩ := h.accepted
    have hring := h.audited.books.ring r
    have hq : k.books.queued r = true := by
      simp [KernelState.books, queuedAt, hr, hpc, IssuePc.added]
    have havail : k.books.avail.count r = 0 := List.count_eq_zero.mpr h.avail
    have hnone : k.books.used.count r = 0 := List.count_eq_zero.mpr hused
    rw [hq, havail, hnone, Nat.zero_add] at hring
    exact List.count_pos_iff.mp (by rw [show k.popped.count r = 1 from hring]; exact Nat.one_pos)
  have hiter : k.worker.iteration ≠ some r := by
    rw [hidle]
    exact fun hne => by cases hne
  exact ⟨h.accepted, h.avail, hused, h.audited.accounted.completed r hpop hiter, hpop, hiter⟩

end Kernel

/-! ## Removals that complete what is open -/

section Removal

variable {s s' : RemovalState} {a : RemovalAct} {r : Nat}

/-- The removal takes one step after the other. -/
theorem removeStep_index (hs : s.removeStep = some s') : s'.pc.index = s.pc.index + 1 := by
  unfold RemovalState.removeStep at hs
  split at hs
  case h_12 => cases hs
  all_goals
    next hpc =>
    first
      | cases hs
      | (split at hs <;> cases hs)
    rw [hpc]
    rfl

/-- It comes past `cancel_work_sync(&ddev->tx_work)` only when the work item has stopped. -/
theorem removeStep_flushed (hs : s.removeStep = some s') (hpc : s.pc.atLeast .cancelRx = false)
    (hpc' : s'.pc.atLeast .cancelRx = true) : s.k.worker = .idle ∧ s'.k = s.k := by
  have hindex := removeStep_index hs
  have hflush : s.pc = .flushTx := by
    simp only [RemovePc.atLeast, decide_eq_true_eq, decide_eq_false_iff_not] at hpc hpc'
    revert hpc hpc' hindex
    cases s.pc <;> simp [RemovePc.index]
    all_goals omega
  simp only [RemovalState.removeStep, hflush] at hs
  split at hs
  · next hidle =>
    cases hs
    exact ⟨hidle, rfl⟩
  · cases hs

theorem RemovePc.not_atLeast_free {pc : RemovePc} (h : pc.atLeast .cancelRx = false) :
    pc.atLeast .free = false := by
  revert h
  cases pc <;> simp [RemovePc.atLeast, RemovePc.index]

/-- Request `r` is on its way through the work item that the removal waits for, or through
with it. -/
def CarriedThrough (r : Nat) (s : RemovalState) : Prop :=
  s.pc.atLeast .cancelRx = false ∧ Draining r s.k ∨ Through r s.k

theorem carriedThrough_step (h : CarriedThrough r s) (hs : s.step a = some s') :
    CarriedThrough r s' := by
  obtain ⟨a', k', rfl, hk, rfl⟩ | ⟨cb, sched, irq, pending, hk, hmove⟩ :=
    RemovalState.step_cases hs
  · rcases h with ⟨hearly, hdrain⟩ | hthrough
    · exact .inl ⟨hearly, draining_step hdrain hk⟩
    · exact .inr (through_step hthrough hk)
  · rcases h with ⟨hearly, hdrain⟩ | hthrough
    · have hpending : pending = s.k.pending := by
        rcases hmove with ⟨_, heq⟩ | ⟨_, heq⟩
        · exact heq
        · exact heq fun hpc => by rw [hpc] at hearly; cases hearly
      have hdrain' : Draining r s'.k := by
        rw [hk, hpending]
        exact ⟨⟨hdrain.audited.books, hdrain.audited.named⟩, hdrain.accepted, hdrain.avail,
          hdrain.used⟩
      rcases hmove with ⟨hpc, _⟩ | ⟨rfl, _⟩
      · exact .inl ⟨hpc ▸ hearly, hdrain'⟩
      · cases hlate : s'.pc.atLeast .cancelRx with
        | false => exact .inl ⟨hlate, hdrain'⟩
        | true =>
          obtain ⟨hidle, hsame⟩ := removeStep_flushed hs hearly hlate
          exact .inr (hdrain'.through (by rw [hsame]; exact hidle))
    · rw [CarriedThrough, hk]
      exact .inr ⟨hthrough.accepted, hthrough.avail, hthrough.used, hthrough.finished⟩

/-- The books are right until `xa_destroy`. -/
theorem reach_removal_audited (h : Reach removalSystem (fun _ _ => True) s) :
    s.pc.atLeast .free = false → Audited s.k := by
  refine h.invariant (P := fun s => s.pc.atLeast .free = false → Audited s.k) ?_ ?_
  · rintro _ rfl _
    exact audited_init
  · intro s a s' haud _ hs hpc
    obtain ⟨a', k', rfl, hk, rfl⟩ | ⟨cb, sched, irq, pending, hk, hmove⟩ :=
      RemovalState.step_cases hs
    · exact audited_step (haud hpc) hk
    · have hkeep : s.pc.atLeast .free = false ∧ pending = s.k.pending := by
        rcases hmove with ⟨hsame, heq⟩ | ⟨rfl, heq⟩
        · exact ⟨hsame ▸ hpc, heq⟩
        · have hindex := removeStep_index hs
          have hbound : s'.pc.index < 10 := Nat.lt_of_not_le (of_decide_eq_false hpc)
          refine ⟨decide_eq_false (Nat.not_le_of_lt (by rw [show RemovePc.free.index = 10 from rfl]; omega)), heq ?_⟩
          intro hdestroy
          rw [hindex, hdestroy] at hbound
          exact absurd hbound (Nat.lt_irrefl 10)
      rw [hk, hkeep.2]
      exact ⟨(haud hkeep.1).books, (haud hkeep.1).named⟩

theorem RemovalState.OpenInHand.completes (haud : s.pc.atLeast .free = false → Audited s.k)
    (h : s.OpenInHand) : s.Completes := by
  intro s' hrun hpc r hopen
  obtain ⟨hearly, havail, hused⟩ := h r hopen
  have hstart : CarriedThrough r s :=
    .inl ⟨hearly, haud (RemovePc.not_atLeast_free hearly), hopen.1, havail, hused⟩
  have hcarried := Reach.after hstart (fun _ _ _ h _ hs => carriedThrough_step h hs) hrun
  rcases hcarried with ⟨hearly', _⟩ | hthrough
  · rw [hpc] at hearly'
    cases hearly'
  · exact hthrough.finished

end Removal

/-! ## Every removal can be run to its end -/

section Ending

variable {s s' s'' : RemovalState} {a : RemovalAct} {k' : KernelState}

theorem RemovalState.GoesTo.refl (s : RemovalState) : s.GoesTo s := .init rfl

theorem RemovalState.GoesTo.trans (h : s.GoesTo s') (h' : s'.GoesTo s'') : s.GoesTo s'' :=
  Reach.trans h h'

theorem RemovalState.GoesTo.next (h : s.GoesTo s') (hs : s'.step a = some s'') : s.GoesTo s'' :=
  .step h trivial hs

theorem lockHeld_removal (h : LockHeld s.k) (hs : s.step a = some s') : LockHeld s'.k := by
  obtain ⟨a', k', rfl, hk, rfl⟩ | ⟨cb, sched, irq, pending, hk, _⟩ := RemovalState.step_cases hs
  · exact lockHeld_step h hk
  · rw [hk]
    exact ⟨h.byCall, h.byWorker⟩

theorem RemovalState.GoesTo.lockHeld (h : s.GoesTo s') (hlock : LockHeld s.k) : LockHeld s'.k :=
  Reach.after (P := fun s => LockHeld s.k) hlock
    (fun _ _ _ hlock _ hs => lockHeld_removal hlock hs) h

/-- What the calls and the work item can do, they can do during a removal, as long as
`deepspan_rx_work_fn` does not hold the lock. -/
theorem goesTo_driver (hrx : s.rx.holdsLock = false) (h : s.k.GoesTo k') :
    s.GoesTo { s with k := k' } := by
  refine Reach.after (P := fun k => s.GoesTo { s with k := k }) (.refl s) ?_ h
  intro k a k' hgo hint hs
  refine hgo.next (a := .driver a) ?_
  have hallow : { s with k := k }.allows a = true := by
    cases a <;> simp [KernelAct.internal] at hint <;> simp [RemovalState.allows, hrx]
  have hsup : { s with k := k }.suppresses a = false := by
    cases a <;> simp [KernelAct.internal] at hint <;> simp [RemovalState.suppresses]
  have hk : k.step a = some k' := hs
  simp [RemovalState.step, RemovalState.driverStep, hallow, hsup, hk]

/-- In its critical section `deepspan_rx_work_fn` waits for nothing. -/
theorem exists_rx_left (hrx : s.rx.holdsLock = true) :
    ∃ rx, s.GoesTo { s with rx := rx } ∧ rx.worker = .idle := by
  have hend : ∀ s : RemovalState, s.rx.worker = .unlockEnd →
      s.GoesTo { s with rx := { s.rx with worker := .idle } } := by
    intro s hp
    refine RemovalState.GoesTo.next (a := .rxWorker) (.refl s) ?_
    simp only [RemovalState.step, RemovalState.rxWorkerStep, hp]
  cases hp : s.rx.worker with
  | enableCb =>
    have hs : s.step .rxWorker = some { s with rx := { s.rx with worker := .unlockEnd } } := by
      simp only [RemovalState.step, RemovalState.rxWorkerStep, hp]
    exact ⟨_, ((RemovalState.GoesTo.refl s).next hs).trans (hend _ rfl), rfl⟩
  | unlockEnd => exact ⟨_, hend s hp, rfl⟩
  | idle | lock =>
    rw [RxState.holdsLock, hp] at hrx
    cases hrx

/-- `s` goes on to `s'` without a completion and without a start of the work item. -/
structure RemovalState.GoesQuietly (s s' : RemovalState) : Prop where
  goes : s.GoesTo s'
  cqes : s'.k.cqes = s.k.cqes
  idle : s.k.worker = .idle → s'.k.worker = .idle

theorem RemovalState.GoesQuietly.trans (h : s.GoesQuietly s') (h' : s'.GoesQuietly s'') :
    s.GoesQuietly s'' :=
  ⟨h.goes.trans h'.goes, h'.cqes.trans h.cqes, fun hidle => h'.idle (h.idle hidle)⟩

theorem RemovalState.GoesQuietly.refl (s : RemovalState) : s.GoesQuietly s :=
  ⟨.refl s, rfl, fun hidle => hidle⟩

/-- `deepspan_rx_work_fn` can be run until it stops. -/
theorem exists_rx_idle (h : LockHeld s.k) :
    ∃ s', s.GoesQuietly s' ∧ s'.rx.worker = .idle ∧ s'.pc = s.pc := by
  cases hp : s.rx.worker with
  | idle => exact ⟨s, .refl s, hp, rfl⟩
  | enableCb | unlockEnd =>
    obtain ⟨rx, hgo, hidle⟩ := exists_rx_left (s := s) (by rw [RxState.holdsLock, hp]; rfl)
    exact ⟨_, ⟨hgo, rfl, fun hidle => hidle⟩, hidle, rfl⟩
  | lock =>
    have hrx : s.rx.holdsLock = false := by rw [RxState.holdsLock, hp]; rfl
    obtain ⟨k', hgo, hlock, hcqes, hidle⟩ := exists_unlocked h
    have hs : { s with k := k' }.step .rxWorker =
        some { s with k := k', rx := { s.rx with worker := .enableCb } } := by
      simp only [RemovalState.step, RemovalState.rxWorkerStep, hp, hlock, if_true]
    obtain ⟨rx, hgo', hidle'⟩ :=
      exists_rx_left (s := { s with k := k', rx := { s.rx with worker := .enableCb } }) rfl
    exact ⟨_, ⟨((goesTo_driver hrx hgo).next hs).trans hgo', hcqes, hidle⟩, hidle', rfl⟩

/-- `deepspan_vq_tx_cb` can be run until it returns; it may schedule `tx_work`. -/
theorem exists_txCb_idle (hpc : s.pc = .reset) : ∃ sched en,
    s.GoesTo { s with k := { s.k with cb := .idle, workScheduled := sched, cbEnabled := en } } := by
  have hend : ∀ s : RemovalState, s.pc = .reset → s.k.cb = .scheduleWork →
      s.GoesTo { s with k := { s.k with cb := .idle, workScheduled := true } } := by
    intro s hpc hp
    refine RemovalState.GoesTo.next (a := .driver .cb) (.refl s) ?_
    simp [RemovalState.step, RemovalState.driverStep, RemovalState.suppresses, RemovalState.allows,
      KernelState.step, KernelState.cbStep, hpc, hp]
  cases hp : s.k.cb with
  | idle =>
    refine ⟨s.k.workScheduled, s.k.cbEnabled, ?_⟩
    rw [← hp]
    exact .refl s
  | disableCb =>
    have hs : s.step (.driver .cb) =
        some { s with k := { s.k with cbEnabled := false, cb := .scheduleWork } } := by
      simp [RemovalState.step, RemovalState.driverStep, RemovalState.suppresses,
        RemovalState.allows, KernelState.step, KernelState.cbStep, hp]
    exact ⟨true, false, ((RemovalState.GoesTo.refl s).next hs).trans (hend _ hpc rfl)⟩
  | scheduleWork => exact ⟨true, s.k.cbEnabled, hend s hpc hp⟩

/-- `deepspan_vq_rx_cb` can be run until it returns; it may schedule `rx_work`. -/
theorem exists_rxCb_idle :
    ∃ sched, s.GoesTo { s with rx := { s.rx with cb := .idle, scheduled := sched } } := by
  have hend : ∀ s : RemovalState, s.rx.cb = .scheduleWork →
      ∃ sched, s.GoesTo { s with rx := { s.rx with cb := .idle, scheduled := sched } } := by
    intro s hp
    refine ⟨s.rx.scheduled || s.pc != .flushRx,
      RemovalState.GoesTo.next (a := .rxCb) (.refl s) ?_⟩
    simp only [RemovalState.step, RemovalState.rxCbStep, hp]
  cases hp : s.rx.cb with
  | idle =>
    refine ⟨s.rx.scheduled, ?_⟩
    rw [← hp]
    exact .refl s
  | disableCb =>
    have hs : s.step .rxCb = some { s with rx := { s.rx with cb := .scheduleWork } } := by
      simp only [RemovalState.step, RemovalState.rxCbStep, hp]
    obtain ⟨sched, hgo⟩ := hend { s with rx := { s.rx with cb := .scheduleWork } } rfl
    exact ⟨sched, ((RemovalState.GoesTo.refl s).next hs).trans hgo⟩
  | scheduleWork => exact hend s hp

/-- The next step of the removal can be taken, the one that waits for `tx_work` if that has
stopped. -/
theorem exists_ready (h : LockHeld s.k) (hpc : s.pc ≠ .returned)
    (hidle : s.pc.atLeast .cancelRx = false → s.k.worker = .idle) :
    ∃ s', s.GoesQuietly s' ∧ s'.pc = s.pc ∧ s'.removeStep.isSome = true := by
  cases hp : s.pc with
  | returned => exact absurd hp hpc
  | flushTx =>
    have hstop := hidle (by rw [hp]; rfl)
    refine ⟨s, .refl s, hp, ?_⟩
    simp [RemovalState.removeStep, hp, hstop]
  | flushRx =>
    obtain ⟨s', hgo, hstop, hsame⟩ := exists_rx_idle h
    refine ⟨s', hgo, hsame.trans hp, ?_⟩
    simp [RemovalState.removeStep, hsame.trans hp, hstop]
  | reset =>
    obtain ⟨sched, en, htx⟩ := exists_txCb_idle hp
    obtain ⟨sched', hrx⟩ := exists_rxCb_idle
      (s := { s with k := { s.k with cb := .idle, workScheduled := sched, cbEnabled := en } })
    refine ⟨_, ⟨htx.trans hrx, rfl, fun hidle => hidle⟩, hp, ?_⟩
    simp [RemovalState.removeStep, hp]
  | _ =>
    refine ⟨s, .refl s, hp, ?_⟩
    simp [RemovalState.removeStep, hp]

theorem removeStep_quietly (hs : s.removeStep = some s') : s.GoesQuietly s' := by
  have hstep : s.step .remove = some s' := hs
  obtain ⟨a', k', ha, _⟩ | ⟨cb, sched, irq, pending, hk, _⟩ := RemovalState.step_cases hstep
  · cases ha
  · refine ⟨(RemovalState.GoesTo.refl s).next hstep, ?_, ?_⟩
    · rw [hk]
    · rw [hk]
      exact fun hidle => hidle

/-- A removal can be run to its end without a completion, once `tx_work` has stopped or has
been waited for. -/
theorem exists_returned (h : LockHeld s.k)
    (hidle : s.pc.atLeast .cancelRx = false → s.k.worker = .idle) :
    ∃ s', s.GoesQuietly s' ∧ s'.pc = .returned := by
  obtain ⟨n, hn⟩ := Nat.exists_eq_add_of_le s.pc.index_le
  -- by induction on the steps that are left
  induction n generalizing s with
  | zero => exact ⟨s, .refl s, RemovePc.returned_of_index hn⟩
  | succ n ih =>
    have hpc : s.pc ≠ .returned := by
      intro hpc
      rw [hpc] at hn
      omega
    obtain ⟨s₁, hgo₁, hsame, hsome⟩ := exists_ready h hpc hidle
    obtain ⟨s₂, hs⟩ := Option.isSome_iff_exists.mp hsome
    have hindex := removeStep_index hs
    rw [hsame] at hindex
    have hgo₂ := hgo₁.trans (removeStep_quietly hs)
    have hidle₂ : s₂.pc.atLeast .cancelRx = false → s₂.k.worker = .idle := by
      intro hearly
      refine hgo₂.idle (hidle ?_)
      simp only [RemovePc.atLeast, decide_eq_false_iff_not] at hearly ⊢
      omega
    obtain ⟨s', hgo', hret⟩ := ih (hgo₂.goes.lockHeld h) hidle₂ (by omega)
    exact ⟨s', hgo₂.trans hgo', hret⟩

end Ending

/-! ## When a removal completes what is open -/

section Iff

variable {s : RemovalState} {r : Nat}

theorem reach_removal_lockHeld (h : Reach removalSystem (fun _ _ => True) s) : LockHeld s.k := by
  refine h.invariant (P := fun s => LockHeld s.k) ?_ ?_
  · rintro _ rfl
    exact .of_none rfl
  · intro s a s' hlock _ hs
    exact lockHeld_removal hlock hs

/-- A request that the device has not answered has no completion. -/
theorem Audited.not_completed {k : KernelState} (h : Audited k) (hr : r ∈ k.avail) :
    r ∉ k.cqes.map Cqe.req := by
  intro hmem
  obtain ⟨c, hc, rfl⟩ := List.mem_map.mp hmem
  have hcount : k.avail.count c.req + k.used.count c.req + k.popped.count c.req ≤ 1 :=
    h.books.count_le_one c.req
  have havail := List.count_pos_iff.mpr hr
  have hpop := List.count_pos_iff.mpr (h.accounted.popped c hc)
  omega

/-- Where the work item is out of the way, the removal returns without a completion for a
request that has none. -/
theorem exists_left_open (h : LockHeld s.k)
    (hidle : s.pc.atLeast .cancelRx = false → s.k.worker = .idle)
    (hr : r ∉ s.k.cqes.map Cqe.req) :
    ∃ s', s.GoesTo s' ∧ s'.pc = .returned ∧ ¬s'.k.Finished r := by
  obtain ⟨s', hgo, hret⟩ := exists_returned h hidle
  refine ⟨s', hgo.goes, hret, ?_⟩
  rintro ⟨hcount, _⟩
  rw [hgo.cqes, List.count_eq_zero.mpr hr] at hcount
  cases hcount

/-- `deepspan_rx_work_fn` can be brought out of its critical section. -/
theorem exists_rx_aside : ∃ s', s.GoesTo s' ∧ s'.k = s.k ∧ s'.pc = s.pc ∧
    s'.rx.holdsLock = false := by
  cases hrx : s.rx.holdsLock with
  | false => exact ⟨s, .refl s, rfl, rfl, hrx⟩
  | true =>
    obtain ⟨rx, hgo, hidle⟩ := exists_rx_left hrx
    exact ⟨_, hgo, rfl, rfl, by rw [RxState.holdsLock, hidle]; rfl⟩

/-- A request that is not in hand can be left open. -/
theorem exists_dropped (hlock : LockHeld s.k) (haud : s.pc.atLeast .free = false → Audited s.k)
    (hopen : s.k.Open r)
    (hdrop : ¬(s.pc.atLeast .cancelRx = false ∧ r ∉ s.k.avail ∧
      (r ∈ s.k.used → s.k.worker.willPoll = true))) :
    ∃ s', s.GoesTo s' ∧ s'.pc = .returned ∧ ¬s'.k.Finished r := by
  cases hpc : s.pc.atLeast .cancelRx with
  | true =>
    refine exists_left_open hlock ?_ hopen.2
    intro hearly
    rw [hpc] at hearly
    cases hearly
  | false =>
    have hbooks := haud (RemovePc.not_atLeast_free hpc)
    obtain ⟨s₁, hgo₁, hk, hsame, hrx⟩ := exists_rx_aside (s := s)
    -- the work item can stop without a completion of `r`
    have hstop : ∃ k', s.k.GoesTo k' ∧ k'.worker = .idle ∧ r ∉ k'.cqes.map Cqe.req := by
      by_cases havail : r ∈ s.k.avail
      · obtain ⟨k', hgo, hidle, hsame⟩ := exists_idle hbooks hlock
        exact ⟨k', hgo, hidle, (hgo.audited hbooks).not_completed (hsame ▸ havail)⟩
      · have hpoll : s.k.worker.willPoll = false := by
          cases hpoll : s.k.worker.willPoll with
          | false => rfl
          | true => exact absurd ⟨hpc, havail, fun _ => hpoll⟩ hdrop
        obtain ⟨k', hgo, hidle, hcqes⟩ := exists_ended hpoll
        exact ⟨k', hgo, hidle, hcqes ▸ hopen.2⟩
    obtain ⟨k', hgo, hidle, hr⟩ := hstop
    have hgo₂ : s.GoesTo { s₁ with k := k' } := hgo₁.trans (goesTo_driver hrx (hk ▸ hgo))
    obtain ⟨s', hgo', hret, hnot⟩ := exists_left_open (s := { s₁ with k := k' })
      (hgo.lockHeld hlock) (fun _ => hidle) hr
    exact ⟨s', hgo₂.trans hgo', hret, hnot⟩

/-- In every state that some run reaches: the requests that are open there are completed
exactly once and released when `deepspan_virtio_remove` returns, whatever comes in between,
if and only if they are in hand there. -/
theorem removal_completes_iff (h : Reach removalSystem (fun _ _ => True) s) :
    s.Completes ↔ s.OpenInHand := by
  have haud := reach_removal_audited h
  constructor
  · intro hall r hopen
    by_contra hdrop
    obtain ⟨s', hgo, hret, hnot⟩ := exists_dropped (reach_removal_lockHeld h) haud hopen hdrop
    exact hnot (hall s' hgo hret r hopen)
  · exact fun hhand => hhand.completes haud

end Iff

/-! ## Runs -/

/-- The one request has been answered, and its callback has had `tx_work` started. -/
def answeredInHand : List KernelAct :=
  queued 0 1 ++ ([.complete 0 ⟨0, 7, 8⟩, .interrupt, .cb, .cb, .startWork] : List KernelAct)

/-- `deepspan_virtio_remove` is called when `tx_work` has been started for the one request;
when it returns, the request has been completed. -/
theorem removal_completes_started :
    ∃ s : RemovalState, s.pc = .notCalled ∧ s.k.Open 0 ∧ s.k.used = [0] ∧ s.Completes ∧
      ∃ s', s.GoesTo s' ∧ s'.pc = .returned ∧ s'.k.Finished 0 := by
  obtain ⟨s, hrun, hview⟩ := Option.map_eq_some_iff.mp (show
    (replay removalSystem (fun _ _ => true) .initial (answeredInHand.map .driver)).map
        (fun s => (s.pc, (s.k.reqs[0]?).map Request.pc, s.k.cqes, s.k.avail, s.k.used, s.k.worker,
          (replay (removalSystem.startedAt s) (fun _ _ => true) s
            (schedule [(3, .remove), (11, .driver .worker), (8, .remove)])).map RemovalState.pc)) =
      some (.notCalled, some (.returned none), [], [], [0], .lock, some .returned) from rfl)
  simp only [Prod.mk.injEq] at hview
  obtain ⟨hpc, hreq, hcqes, havail, hused, hworker, hend⟩ := hview
  have hopen : s.k.Open 0 := by
    refine ⟨Option.map_eq_some_iff.mp hreq, ?_⟩
    rw [hcqes]
    exact List.not_mem_nil
  have hhand : s.OpenInHand := by
    intro r _
    rw [hpc, havail, hworker]
    exact ⟨rfl, List.not_mem_nil, fun _ => rfl⟩
  have hinit : Reach removalSystem (fun _ _ => True) .initial := .init rfl
  have hall : s.Completes :=
    (removal_completes_iff (replay_reach (fun _ _ _ => trivial) hinit hrun)).mpr hhand
  obtain ⟨s', hrun', hret⟩ := Option.map_eq_some_iff.mp hend
  have hgo : s.GoesTo s' := replay_reach (fun _ _ _ => trivial) (.init rfl) hrun'
  exact ⟨s, hpc, hopen, hused, hall, s', hgo, hret, hall s' hgo hret 0 hopen⟩

/-- A request is with the device when `deepspan_virtio_remove` is called, which returns
without a completion for it. -/
theorem removal_drops_request :
    ∃ s : RemovalState, Reach removalSystem (fun _ _ => True) s ∧ s.pc = .notCalled ∧
      s.k.Open 0 ∧ ∃ s', s.GoesTo s' ∧ s'.pc = .returned ∧ s'.k.cqes = [] ∧ ¬s'.k.Finished 0 := by
  obtain ⟨s, hrun, hview⟩ := Option.map_eq_some_iff.mp (show
    (replay removalSystem (fun _ _ => true) .initial ((queued 0 1).map .driver)).map
        (fun s => (s.pc, (s.k.reqs[0]?).map Request.pc, s.k.cqes,
          (replay (removalSystem.startedAt s) (fun _ _ => true) s (schedule [(11, .remove)])).map
            fun s' => (s'.pc, s'.k.cqes))) =
      some (.notCalled, some (.returned none), [], some (.returned, [])) from rfl)
  simp only [Prod.mk.injEq] at hview
  obtain ⟨hpc, hreq, hcqes, hend⟩ := hview
  obtain ⟨s', hrun', hview'⟩ := Option.map_eq_some_iff.mp hend
  simp only [Prod.mk.injEq] at hview'
  have hinit : Reach removalSystem (fun _ _ => True) .initial := .init rfl
  refine ⟨s, replay_reach (fun _ _ _ => trivial) hinit hrun, hpc,
    ⟨Option.map_eq_some_iff.mp hreq, ?_⟩, s',
    replay_reach (fun _ _ _ => trivial) (.init rfl) hrun', hview'.1, hview'.2, ?_⟩
  · rw [hcqes]
    exact List.not_mem_nil
  · rintro ⟨hcount, _⟩
    rw [hview'.2] at hcount
    cases hcount

end Deepspan
