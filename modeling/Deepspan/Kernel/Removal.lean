import Deepspan.Kernel.Requests

/-!
# Device removal

`deepspan_virtio_remove`, running against everything that can still happen to the
device: calls of `deepspan_uring_cmd_issue` on files that are open, interrupts of
both virtqueues until the device has been reset, and the two work items.

* `cancel_work_sync` takes a scheduled work item off its queue and then waits for a
  running one; in between `schedule_work` does nothing, afterwards it works again. It
  is two program points, `cancelTx` and `flushTx` (`cancelRx` and `flushRx`).
* `reset` waits for the callbacks that run and lets no other one start. The device
  completes nothing any more either.
* The driver never adds a buffer to the RX virtqueue, so that the loop of
  `deepspan_rx_work_fn` ends at its first poll. An interrupt may run
  `deepspan_vq_rx_cb`, or `deepspan_vq_tx_cb` without a completion, at any time.

What a call or a work item does with a virtqueue that has been deleted is left as it
was; what matters here is who still comes to use the `deepspan_device` after its
`kfree` (`RemovalState.accesses`).

Nobody does in a run in which no callback schedules a work item that has been
cancelled and no call is on its way at the `kfree` (`removed_device_unused`). Neither
is ruled out by the driver: the work items are cancelled before the device is reset,
and nothing waits for calls on open files.
-/

namespace Deepspan

open Transition

/-- Program points of `deepspan_virtio_remove`, named after what comes next. -/
inductive RemovePc where
  | notCalled
  | sysfsExit
  | cancelTx
  | flushTx
  | cancelRx
  | flushRx
  | cdevDel
  | reset
  | delVqs
  | xaDestroy
  | free
  | returned
deriving DecidableEq, Repr

def RemovePc.index : RemovePc → Nat
  | .notCalled => 0
  | .sysfsExit => 1
  | .cancelTx => 2
  | .flushTx => 3
  | .cancelRx => 4
  | .flushRx => 5
  | .cdevDel => 6
  | .reset => 7
  | .delVqs => 8
  | .xaDestroy => 9
  | .free => 10
  | .returned => 11

/-- The removal has come to `q` or further. -/
def RemovePc.atLeast (pc q : RemovePc) : Bool := q.index ≤ pc.index

/-- The device has not been reset: it completes requests and raises interrupts. -/
def RemovePc.live (pc : RemovePc) : Bool := !pc.atLeast .delVqs

/-- Program points of `deepspan_rx_work_fn`. -/
inductive RxPc where
  | idle
  | lock
  | enableCb
  | unlockEnd
deriving DecidableEq, Repr

/-- The RX virtqueue: `deepspan_vq_rx_cb` and `rx_work`. -/
structure RxState where
  cb : CbPc
  scheduled : Bool
  worker : RxPc
deriving DecidableEq, Repr

/-- `deepspan_rx_work_fn` holds `vq_lock`. -/
def RxState.holdsLock (rx : RxState) : Bool := rx.worker == .enableCb || rx.worker == .unlockEnd

structure RemovalState where
  k : KernelState
  rx : RxState
  pc : RemovePc

inductive RemovalAct where
  | driver (a : KernelAct)
  | txInterrupt
  | rxInterrupt
  | rxCb
  | startRxWork
  | rxWorker
  | remove
deriving DecidableEq, Repr

/-- What the reset of the device and the lock leave possible. -/
def RemovalState.allows (s : RemovalState) : KernelAct → Bool
  | .complete _ _ | .interrupt => s.pc.live
  | .issue r _ => !((s.k.reqs[r]?).any (fun req => req.pc == .lockVq) && s.rx.holdsLock)
  | .worker => !((s.k.worker == .lock || s.k.worker == .relock) && s.rx.holdsLock)
  | .uringCmd _ | .cb | .startWork => true

/-- `schedule_work(&ddev->tx_work)` during `cancel_work_sync(&ddev->tx_work)`. -/
def RemovalState.suppresses (s : RemovalState) (a : KernelAct) : Bool :=
  a == .cb && s.k.cb == .scheduleWork && s.pc == .flushTx

def RemovalState.driverStep (s : RemovalState) (a : KernelAct) : Option RemovalState :=
  if s.suppresses a then some { s with k := { s.k with cb := .idle } }
  else if s.allows a then (s.k.step a).map fun k => { s with k := k }
  else none

/-- The next step of `deepspan_vq_rx_cb`. -/
def RemovalState.rxCbStep (s : RemovalState) : Option RemovalState :=
  match s.rx.cb with
  | .idle => none
  | .disableCb => some { s with rx := { s.rx with cb := .scheduleWork } }
  | .scheduleWork =>
    -- nothing is scheduled during `cancel_work_sync(&ddev->rx_work)`
    some { s with rx := { s.rx with cb := .idle, scheduled := s.rx.scheduled || s.pc != .flushRx } }

/-- The next step of `deepspan_rx_work_fn`. -/
def RemovalState.rxWorkerStep (s : RemovalState) : Option RemovalState :=
  match s.rx.worker with
  | .idle => none
  | .lock =>
    if s.k.lock = none then some { s with rx := { s.rx with worker := .enableCb } } else none
  | .enableCb => some { s with rx := { s.rx with worker := .unlockEnd } }
  | .unlockEnd => some { s with rx := { s.rx with worker := .idle } }

/-- The next step of `deepspan_virtio_remove`. -/
def RemovalState.removeStep (s : RemovalState) : Option RemovalState :=
  match s.pc with
  | .notCalled => some { s with pc := .sysfsExit }
  | .sysfsExit => some { s with pc := .cancelTx }
  | .cancelTx => some { s with k := { s.k with workScheduled := false }, pc := .flushTx }
  | .flushTx => if s.k.worker = .idle then some { s with pc := .cancelRx } else none
  | .cancelRx => some { s with rx := { s.rx with scheduled := false }, pc := .flushRx }
  | .flushRx => if s.rx.worker = .idle then some { s with pc := .cdevDel } else none
  | .cdevDel => some { s with pc := .reset }
  | .reset =>
    if s.k.cb = .idle ∧ s.rx.cb = .idle then
      some { s with k := { s.k with irq := false }, pc := .delVqs }
    else none
  | .delVqs => some { s with pc := .xaDestroy }
  | .xaDestroy => some { s with k := { s.k with pending := fun _ => none }, pc := .free }
  | .free => some { s with pc := .returned }
  | .returned => none

def RemovalState.step (s : RemovalState) : RemovalAct → Option RemovalState
  | .driver a => s.driverStep a
  | .txInterrupt =>
    if s.pc.live ∧ s.k.cb = .idle then some { s with k := { s.k with cb := .disableCb } } else none
  | .rxInterrupt =>
    if s.pc.live ∧ s.rx.cb = .idle then some { s with rx := { s.rx with cb := .disableCb } }
    else none
  | .rxCb => s.rxCbStep
  | .startRxWork =>
    if s.rx.scheduled ∧ s.rx.worker = .idle then
      some { s with rx := { s.rx with scheduled := false, worker := .lock } }
    else none
  | .rxWorker => s.rxWorkerStep
  | .remove => s.removeStep

def RemovalState.initial : RemovalState := ⟨.initial, ⟨.idle, false, .idle⟩, .notCalled⟩

def removalSystem : System RemovalState RemovalAct where
  init s := s = .initial
  step := RemovalState.step

theorem RemovePc.index_le (pc : RemovePc) : pc.index ≤ RemovePc.returned.index := by
  cases pc <;> decide

theorem RemovePc.returned_of_index {pc : RemovePc} (h : RemovePc.returned.index = pc.index) :
    pc = .returned := by
  cases pc with
  | returned => rfl
  | _ => cases h

theorem RemovePc.atLeast_trans {pc q q' : RemovePc} (h : pc.atLeast q = true)
    (hq : q.atLeast q' = true) : pc.atLeast q' = true :=
  decide_eq_true (Nat.le_trans (of_decide_eq_true hq) (of_decide_eq_true h))

/-! ## Who uses the device -/

/-- The next step of the call reads or writes the `deepspan_device`. -/
def IssuePc.accesses : IssuePc → Bool
  | .xaAlloc | .lockVq | .addSgs | .kick | .unlockVq _ | .xaErase _ => true
  | .allocReq | .allocBuf | .allocResp | .copyIn | .freeResp _ | .freeBuf _ | .freeReq _
  | .returned _ => false

/-- The call may still come to such a step. -/
def IssuePc.mayAccess : IssuePc → Bool
  | .freeResp _ | .freeBuf _ | .freeReq _ | .returned _ => false
  | .allocReq | .allocBuf | .allocResp | .copyIn | .xaAlloc | .lockVq | .addSgs | .kick
  | .unlockVq _ | .xaErase _ => true

theorem IssuePc.not_accesses {pc : IssuePc} (h : pc.mayAccess = false) : pc.accesses = false := by
  cases pc with
  | freeResp e | freeBuf e | freeReq e => rfl
  | returned ret => rfl
  | _ => cases h

def WorkerPc.accesses : WorkerPc → Bool
  | .lock | .unlockGot _ | .erase _ | .relock | .unlockEnd => true
  | .idle | .getBuf | .readResp _ | .cmdDone _ _ _ | .free _ | .enableCb => false

def RxPc.accesses : RxPc → Bool
  | .lock | .unlockEnd => true
  | .idle | .enableCb => false

def RemovePc.accesses : RemovePc → Bool
  | .sysfsExit | .cancelTx | .flushTx | .cancelRx | .flushRx | .cdevDel | .xaDestroy | .free => true
  | .notCalled | .reset | .delVqs | .returned => false

/-- The step reads or writes the `deepspan_device`. A work item is part of it, so that
scheduling and starting one does. -/
def RemovalState.accesses (s : RemovalState) : RemovalAct → Bool
  | .driver (.issue r _) => (s.k.reqs[r]?).any fun req => req.pc.accesses
  | .driver .cb => s.k.cb == .scheduleWork
  | .driver .startWork => true
  | .driver .worker => s.k.worker.accesses
  | .driver (.uringCmd _) | .driver (.complete _ _) | .driver .interrupt => false
  | .txInterrupt | .rxInterrupt => false
  | .rxCb => s.rx.cb == .scheduleWork
  | .startRxWork => true
  | .rxWorker => s.rx.worker.accesses
  | .remove => s.pc.accesses

/-- Neither work item is scheduled or runs, and no step that can be taken uses the
device. -/
structure RemovalState.Unused (s : RemovalState) : Prop where
  txScheduled : s.k.workScheduled = false
  txIdle : s.k.worker = .idle
  rxScheduled : s.rx.scheduled = false
  rxIdle : s.rx.worker = .idle
  untouched : ∀ a s', s.step a = some s' → s.accesses a = false

/-- No callback schedules a work item after it has been cancelled, no call on an open
file is on its way at the `kfree`, and none is made after it. -/
def orderlyRemoval (s : RemovalState) : RemovalAct → Bool
  | .driver .cb => !(s.k.cb == .scheduleWork && s.pc.atLeast .cancelRx)
  | .rxCb => !(s.rx.cb == .scheduleWork && s.pc.atLeast .cdevDel)
  | .driver (.uringCmd _) => s.pc != .returned
  | .remove => !(s.pc == .free) || s.k.reqs.all fun req => !req.pc.mayAccess
  | _ => true

/-! ## What the steps of the driver do to the work item -/

section Kernel

variable {k k' : KernelState} {a : KernelAct}

/-- Only the callback schedules the work item. -/
theorem step_unscheduled (hs : k.step a = some k') (hno : k.workScheduled = false)
    (hcb : a = .cb → k.cb ≠ .scheduleWork) : k'.workScheduled = false := by
  cases KernelState.step_cases hs with
  | issue hs =>
    obtain ⟨_, _, _, _, hsched, _⟩ := issueStep_notify hs
    exact hsched.trans hno
  | scheduleWork hp => exact absurd hp (hcb rfl)
  | startWork hsched hidle => rfl
  | worker hs => exact (workerStep_frame hs).1.trans hno
  | uringCmd ureq | complete hr hmem | interrupt hirq hidle | disableCb hp => exact hno

/-- A work item that is not scheduled does not start. -/
theorem step_worker_idle (hs : k.step a = some k') (hno : k.workScheduled = false)
    (hidle : k.worker = .idle) : k'.worker = .idle := by
  cases KernelState.step_cases hs with
  | issue hs =>
    obtain ⟨_, _, _, _, _, hworker⟩ := issueStep_notify hs
    exact hworker.trans hidle
  | startWork hsched _ => cases hno.symm.trans hsched
  | worker hs =>
    simp only [KernelState.workerStep, hidle] at hs
    cases hs
  | uringCmd ureq | complete hr hmem | interrupt hirq hcb | disableCb hp | scheduleWork hp =>
    exact hidle

/-- Only an interrupt starts the callback. -/
theorem step_cb_idle (hs : k.step a = some k') (ha : a ≠ .interrupt) (hidle : k.cb = .idle) :
    k'.cb = .idle := by
  cases KernelState.step_cases hs with
  | issue hs =>
    obtain ⟨_, _, _, hcb, _, _⟩ := issueStep_notify hs
    exact hcb.trans hidle
  | interrupt hirq hcb => exact absurd rfl ha
  | disableCb hp => cases hidle.symm.trans hp
  | scheduleWork hp => rfl
  | worker hs => exact (workerStep_frame hs).2.1.trans hidle
  | uringCmd ureq | complete hr hmem | startWork hsched hw => exact hidle

theorem localStep_mayAccess {req req' : Request} (h : req.pc.mayAccess = false)
    (hs : LocalStep req req') : req'.pc.mayAccess = false := by
  cases hs with
  | moves hmoves =>
    generalize req.pc = pc at h hmoves
    cases hmoves with
    | freeResp e | freeBuf e | freeReq e => rfl
    | _ => cases h
  | payload hpc _ _ _ | inline hpc _ =>
    rw [hpc] at h
    cases h

/-- A call that is past its last use of the device stays there. -/
theorem issueStep_mayAccess {r : Nat} {out : Outcome}
    (h : ∀ req ∈ k.reqs, req.pc.mayAccess = false) (hs : k.issueStep r out = some k') :
    ∀ req ∈ k'.reqs, req.pc.mayAccess = false := by
  cases issueStep_cases hs with
  | @own req _ hr hlocal =>
    intro new hmem
    rcases List.mem_or_eq_of_mem_set hmem with hmem | rfl
    · exact h new hmem
    · exact localStep_mayAccess (h req (List.mem_of_getElem? hr)) hlocal
  | @xaAlloc req _ hr hpc _ _ _ | @lockVq req hr hpc _ | @addSgs req hr hpc
  | @unlockVq req _ hr hpc | @xaErase req _ hr hpc =>
    have hpast := h req (List.mem_of_getElem? hr)
    rw [hpc] at hpast
    cases hpast

end Kernel

/-! ## What a step of the system can do -/

/-- A step of the driver is one of `KernelState.step`, or a callback that schedules
nothing because the work item is being cancelled. -/
theorem driverStep_cases {s s' : RemovalState} {a : KernelAct} (h : s.driverStep a = some s') :
    (a = .cb ∧ s.k.cb = .scheduleWork ∧ s.pc = .flushTx ∧
      s' = { s with k := { s.k with cb := .idle } }) ∨
    (∃ k', s.allows a = true ∧ s.k.step a = some k' ∧
      (a = .cb → s.k.cb = .scheduleWork → s.pc ≠ .flushTx) ∧ s' = { s with k := k' }) := by
  unfold RemovalState.driverStep at h
  split at h
  · next hsup =>
    simp only [RemovalState.suppresses, Bool.and_eq_true, beq_iff_eq] at hsup
    cases h
    exact .inl ⟨hsup.1.1, hsup.1.2, hsup.2, rfl⟩
  · next hsup =>
    split at h
    · next hallow =>
      obtain ⟨k', hs, rfl⟩ := Option.map_eq_some_iff.mp h
      refine .inr ⟨k', hallow, hs, ?_, rfl⟩
      rintro rfl hcb hpc
      exact hsup (by simp [RemovalState.suppresses, hcb, hpc])
    · cases h

/-- Apart from the steps of the driver, nothing touches the requests, the rings and the
lock; and only `xa_destroy` touches the table of ids. -/
theorem RemovalState.step_cases {s s' : RemovalState} {a : RemovalAct} (h : s.step a = some s') :
    (∃ a' k', a = .driver a' ∧ s.k.step a' = some k' ∧ s' = { s with k := k' }) ∨
    (∃ cb sched irq pending, s'.k = { s.k with
        cb := cb, workScheduled := sched, irq := irq, pending := pending } ∧
      (s'.pc = s.pc ∧ pending = s.k.pending ∨
        a = .remove ∧ (s.pc ≠ .xaDestroy → pending = s.k.pending))) := by
  cases a with
  | driver a =>
    obtain ⟨_, _, _, rfl⟩ | ⟨k', _, hk, _, rfl⟩ := driverStep_cases h
    · exact .inr ⟨_, _, _, _, rfl, .inl ⟨rfl, rfl⟩⟩
    · exact .inl ⟨a, k', rfl, hk, rfl⟩
  | txInterrupt | rxInterrupt | startRxWork =>
    simp only [RemovalState.step] at h
    split at h
    · cases h
      exact .inr ⟨_, _, _, _, rfl, .inl ⟨rfl, rfl⟩⟩
    · cases h
  | rxCb =>
    simp only [RemovalState.step, RemovalState.rxCbStep] at h
    split at h <;> cases h <;> exact .inr ⟨_, _, _, _, rfl, .inl ⟨rfl, rfl⟩⟩
  | rxWorker =>
    simp only [RemovalState.step, RemovalState.rxWorkerStep] at h
    split at h
    · cases h
    · split at h <;> cases h
      exact .inr ⟨_, _, _, _, rfl, .inl ⟨rfl, rfl⟩⟩
    · cases h
      exact .inr ⟨_, _, _, _, rfl, .inl ⟨rfl, rfl⟩⟩
    · cases h
      exact .inr ⟨_, _, _, _, rfl, .inl ⟨rfl, rfl⟩⟩
  | remove =>
    simp only [RemovalState.step, RemovalState.removeStep] at h
    split at h
    case h_10 hpc =>
      cases h
      exact .inr ⟨_, _, _, _, rfl, .inr ⟨rfl, fun hne => absurd hpc hne⟩⟩
    case h_12 => cases h
    all_goals
      first
        | cases h
        | (split at h <;> cases h)
      exact .inr ⟨_, _, _, _, rfl, .inr ⟨rfl, fun _ => rfl⟩⟩

/-- The invariant of orderly removals: what has been cancelled stays cancelled, what has
been waited for does not start again. -/
structure Quiesced (s : RemovalState) : Prop where
  txScheduled : s.pc.atLeast .flushTx = true → s.k.workScheduled = false
  txIdle : s.pc.atLeast .cancelRx = true → s.k.worker = .idle
  rxScheduled : s.pc.atLeast .flushRx = true → s.rx.scheduled = false
  rxIdle : s.pc.atLeast .cdevDel = true → s.rx.worker = .idle
  txCb : s.pc.live = false → s.k.cb = .idle
  rxCb : s.pc.live = false → s.rx.cb = .idle
  calls : s.pc = .returned → ∀ req ∈ s.k.reqs, req.pc.mayAccess = false

theorem quiesced_init : Quiesced .initial where
  txScheduled := fun h => by cases h
  txIdle := fun h => by cases h
  rxScheduled := fun h => by cases h
  rxIdle := fun h => by cases h
  txCb := fun h => by cases h
  rxCb := fun h => by cases h
  calls := fun h => by cases h

section Steps

variable {s s' : RemovalState}

theorem quiesced_calls {k' : KernelState} {a : KernelAct} (h : Quiesced s)
    (hg : orderlyRemoval s (.driver a) = true) (hallow : s.allows a = true)
    (hs : s.k.step a = some k') (hpc : s.pc = .returned) :
    ∀ req ∈ k'.reqs, req.pc.mayAccess = false := by
  cases a with
  | uringCmd ureq =>
    simp only [orderlyRemoval, hpc] at hg
    cases hg
  | issue r out => exact issueStep_mayAccess (h.calls hpc) hs
  | complete r hdr =>
    simp only [RemovalState.allows, hpc] at hallow
    cases hallow
  | interrupt | cb | startWork | worker =>
    rw [step_reqs_same (by simp) hs]
    exact h.calls hpc

theorem quiesced_driver {a : KernelAct} (h : Quiesced s)
    (hg : orderlyRemoval s (.driver a) = true) (hs : s.driverStep a = some s') : Quiesced s' := by
  obtain ⟨rfl, _, hpc, rfl⟩ | ⟨k', hallow, hk, hsup, rfl⟩ := driverStep_cases hs
  · refine { h with txCb := fun _ => rfl, calls := ?_ }
    intro hret
    cases hpc.symm.trans hret
  · -- a callback comes too early or is suppressed, or else the guard forbids it
    have hsched : s.pc.atLeast .flushTx = true → k'.workScheduled = false := by
      intro hpc
      refine step_unscheduled hk (h.txScheduled hpc) ?_
      rintro rfl hcb
      have hlate : s.pc.atLeast .cancelRx = false := by simpa [orderlyRemoval, hcb] using hg
      have hflush : s.pc ≠ .flushTx := hsup rfl hcb
      revert hpc hlate hflush
      cases s.pc <;> simp [RemovePc.atLeast, RemovePc.index]
    refine { h with
      txScheduled := hsched, txIdle := ?_, txCb := ?_
      calls := fun hpc => quiesced_calls h hg hallow hk hpc }
    · intro hpc
      exact step_worker_idle hk (h.txScheduled (RemovePc.atLeast_trans hpc rfl)) (h.txIdle hpc)
    · intro hdead
      refine step_cb_idle hk ?_ (h.txCb hdead)
      rintro rfl
      rw [RemovalState.allows, hdead] at hallow
      cases hallow

theorem quiesced_rxCb (h : Quiesced s) (hg : orderlyRemoval s .rxCb = true)
    (hs : s.rxCbStep = some s') : Quiesced s' := by
  unfold RemovalState.rxCbStep at hs
  cases hcb : s.rx.cb with
  | idle => simp only [hcb] at hs; cases hs
  | disableCb =>
    simp only [hcb] at hs
    cases hs
    refine { h with rxCb := ?_ }
    intro hdead
    cases hcb.symm.trans (h.rxCb hdead)
  | scheduleWork =>
    simp only [hcb] at hs
    cases hs
    refine { h with rxScheduled := ?_, rxCb := fun _ => rfl }
    intro hpc
    have hlate : s.pc.atLeast .cdevDel = false := by simpa [orderlyRemoval, hcb] using hg
    have hflush : s.pc = .flushRx := by
      revert hpc hlate
      cases s.pc <;> simp [RemovePc.atLeast, RemovePc.index]
    show (s.rx.scheduled || s.pc != .flushRx) = false
    rw [h.rxScheduled hpc, hflush]
    rfl

theorem quiesced_rxWorker (h : Quiesced s) (hs : s.rxWorkerStep = some s') : Quiesced s' := by
  have hbusy : s.pc.atLeast .cdevDel = true → False := by
    intro hpc
    simp only [RemovalState.rxWorkerStep, h.rxIdle hpc] at hs
    cases hs
  unfold RemovalState.rxWorkerStep at hs
  split at hs
  · cases hs
  · split at hs
    · cases hs
      exact { h with rxIdle := fun hpc => (hbusy hpc).elim }
    · cases hs
  · cases hs
    exact { h with rxIdle := fun hpc => (hbusy hpc).elim }
  · cases hs
    exact { h with rxIdle := fun _ => rfl }

/-- The removal itself: it comes to each of its points with what that point needs. -/
theorem quiesced_remove (h : Quiesced s) (hg : orderlyRemoval s .remove = true)
    (hs : s.removeStep = some s') : Quiesced s' := by
  obtain ⟨htx, htxIdle, hrx, hrxIdle, htxCb, hrxCb, hcalls⟩ := h
  unfold RemovalState.removeStep at hs
  cases hp : s.pc <;> simp only [hp] at hs htx htxIdle hrx hrxIdle htxCb hrxCb
  case notCalled | sysfsExit | cdevDel | delVqs | xaDestroy =>
    cases hs
    exact ⟨htx, htxIdle, hrx, hrxIdle, htxCb, hrxCb, fun hret => by cases hret⟩
  case cancelTx =>
    cases hs
    exact ⟨fun _ => rfl, htxIdle, hrx, hrxIdle, htxCb, hrxCb, fun hret => by cases hret⟩
  case flushTx =>
    split at hs
    · next hidle =>
      cases hs
      exact ⟨htx, fun _ => hidle, hrx, hrxIdle, htxCb, hrxCb, fun hret => by cases hret⟩
    · cases hs
  case cancelRx =>
    cases hs
    exact ⟨htx, htxIdle, fun _ => rfl, hrxIdle, htxCb, hrxCb, fun hret => by cases hret⟩
  case flushRx =>
    split at hs
    · next hidle =>
      cases hs
      exact ⟨htx, htxIdle, hrx, fun _ => hidle, htxCb, hrxCb, fun hret => by cases hret⟩
    · cases hs
  case reset =>
    split at hs
    · next hidle =>
      cases hs
      exact ⟨htx, htxIdle, hrx, hrxIdle, fun _ => hidle.1, fun _ => hidle.2,
        fun hret => by cases hret⟩
    · cases hs
  case free =>
    cases hs
    refine ⟨htx, htxIdle, hrx, hrxIdle, htxCb, hrxCb, fun _ => ?_⟩
    simpa [orderlyRemoval, hp] using hg
  case returned => cases hs

theorem quiesced_step {a : RemovalAct} (h : Quiesced s) (hg : orderlyRemoval s a = true)
    (hs : s.step a = some s') : Quiesced s' := by
  cases a with
  | driver a => exact quiesced_driver h hg hs
  | txInterrupt =>
    simp only [RemovalState.step] at hs
    split at hs
    · next hlive =>
      cases hs
      exact { h with txCb := fun hdead => absurd hlive.1 (Bool.eq_false_iff.mp hdead) }
    · cases hs
  | rxInterrupt =>
    simp only [RemovalState.step] at hs
    split at hs
    · next hlive =>
      cases hs
      exact { h with rxCb := fun hdead => absurd hlive.1 (Bool.eq_false_iff.mp hdead) }
    · cases hs
  | rxCb => exact quiesced_rxCb h hg hs
  | startRxWork =>
    simp only [RemovalState.step] at hs
    split at hs
    · next hsched =>
      cases hs
      refine { h with rxScheduled := fun _ => rfl, rxIdle := ?_ }
      intro hpc
      rw [h.rxScheduled (RemovePc.atLeast_trans hpc rfl)] at hsched
      cases hsched.1
    · cases hs
  | rxWorker => exact quiesced_rxWorker h hs
  | remove => exact quiesced_remove h hg hs

/-- Once the device is freed, the calls that go on are past their last use of it. -/
theorem Quiesced.driver_untouched {a : KernelAct} (h : Quiesced s) (hpc : s.pc = .returned)
    (hs : s.driverStep a = some s') : s.accesses (.driver a) = false := by
  have hsched := h.txScheduled (by rw [hpc]; rfl)
  have hidle := h.txIdle (by rw [hpc]; rfl)
  have hcb := h.txCb (by rw [hpc]; rfl)
  cases a with
  | uringCmd ureq => rfl
  | issue r out =>
    simp only [RemovalState.accesses]
    cases hr : s.k.reqs[r]? with
    | none => rfl
    | some req => exact IssuePc.not_accesses (h.calls hpc req (List.mem_of_getElem? hr))
  | complete r hdr | interrupt => rfl
  | cb =>
    simp only [RemovalState.accesses, hcb]
    rfl
  | startWork =>
    simp [RemovalState.driverStep, RemovalState.suppresses, RemovalState.allows, KernelState.step,
      hsched] at hs
  | worker =>
    simp only [RemovalState.accesses, hidle]
    rfl

theorem Quiesced.unused (h : Quiesced s) (hpc : s.pc = .returned) : s.Unused where
  txScheduled := h.txScheduled (by rw [hpc]; rfl)
  txIdle := h.txIdle (by rw [hpc]; rfl)
  rxScheduled := h.rxScheduled (by rw [hpc]; rfl)
  rxIdle := h.rxIdle (by rw [hpc]; rfl)
  untouched := by
    have hsched := h.rxScheduled (by rw [hpc]; rfl)
    have hidle := h.rxIdle (by rw [hpc]; rfl)
    have hcb := h.rxCb (by rw [hpc]; rfl)
    intro a s' hs
    cases a with
    | driver a => exact h.driver_untouched hpc hs
    | txInterrupt | rxInterrupt => rfl
    | rxCb =>
      simp only [RemovalState.accesses, hcb]
      rfl
    | startRxWork =>
      simp only [RemovalState.step, hsched] at hs
      cases hs
    | rxWorker =>
      simp only [RemovalState.accesses, hidle]
      rfl
    | remove =>
      simp only [RemovalState.accesses, hpc]
      rfl

end Steps

/-- In every run in which no callback schedules a work item that has been cancelled and no
call on an open file is on its way at the `kfree` or made after it, nothing uses the
device after the `kfree`. -/
theorem removed_device_unused {s : RemovalState}
    (h : Reach removalSystem (fun s a => orderlyRemoval s a = true) s)
    (hpc : s.pc = .returned) : s.Unused := by
  have hinv : Quiesced s := by
    refine h.invariant ?_ ?_
    · rintro _ rfl
      exact quiesced_init
    · intro s a s' hinv hg hs
      exact quiesced_step hinv hg hs
  exact hinv.unused hpc

/-! ## Runs -/

/-- A request is completed when the removal has begun, and reported while `tx_work` is being
cancelled; the callbacks that come then schedule nothing that lasts. -/
theorem removed_device_unused_one :
    ∃ s : RemovalState, s.pc = .returned ∧ s.k.cqes = [⟨0, 0, 7 + 8 * 2 ^ 32⟩] ∧ s.Unused := by
  obtain ⟨s, hrun, hview⟩ := Option.map_eq_some_iff.mp (show
    (replay removalSystem orderlyRemoval .initial ((queued 0 1).map .driver ++
      schedule [(1, .remove), (1, .driver (.complete 0 ⟨0, 7, 8⟩)), (1, .driver .interrupt),
        (2, .driver .cb), (1, .driver .startWork), (2, .remove), (11, .driver .worker),
        (1, .txInterrupt), (2, .driver .cb), (1, .rxInterrupt), (2, .rxCb), (8, .remove)])).map
        (fun s => (s.pc, s.k.cqes)) = some (.returned, [⟨0, 0, 7 + 8 * 2 ^ 32⟩]) by decide)
  have hinit : Reach removalSystem (fun s a => orderlyRemoval s a = true) .initial := .init rfl
  have hreach := replay_reach (fun _ _ h => h) hinit hrun
  have hpc : s.pc = .returned := congrArg Prod.fst hview
  exact ⟨s, hpc, congrArg Prod.snd hview, removed_device_unused hreach hpc⟩

/-- Two runs in which the device is used after its `kfree`. In the first a request is
completed after both work items have been cancelled and before the device is reset: its
callback schedules `tx_work`, which can then start. In the second a call that was at
`copy_from_user` at the `kfree` comes to `xa_alloc`. -/
theorem freed_device_used :
    (∃ s : RemovalState, Reach removalSystem (fun _ _ => True) s ∧ s.pc = .returned ∧
      s.k.workScheduled = true ∧ s.accesses (.driver .startWork) = true ∧
      (s.step (.driver .startWork)).isSome = true) ∧
    ∃ s : RemovalState, Reach removalSystem (fun _ _ => True) s ∧ s.pc = .returned ∧
      s.accesses (.driver (.issue 0 (.id 1))) = true ∧
      (s.step (.driver (.issue 0 (.id 1)))).isSome = true := by
  have hinit : Reach removalSystem (fun _ _ => True) .initial := .init rfl
  constructor
  · obtain ⟨s, hrun, hview⟩ := Option.map_eq_some_iff.mp (show
      (replay removalSystem (fun _ _ => true) .initial ((queued 0 1).map .driver ++
        schedule [(6, .remove), (1, .driver (.complete 0 ⟨0, 7, 8⟩)), (1, .driver .interrupt),
          (2, .driver .cb), (5, .remove)])).map
          (fun s => (s.pc, s.k.workScheduled, (s.step (.driver .startWork)).isSome)) =
        some (.returned, true, true) by decide)
    simp only [Prod.mk.injEq] at hview
    obtain ⟨hpc, hsched, hsome⟩ := hview
    exact ⟨s, replay_reach (fun _ _ _ => trivial) hinit hrun, hpc, hsched, rfl, hsome⟩
  · obtain ⟨s, hrun, hview⟩ := Option.map_eq_some_iff.mp (show
      (replay removalSystem (fun _ _ => true) .initial (((queued 0 1).take 4).map .driver ++
        schedule [(11, .remove), (1, .driver (.issue 0 .ok))])).map
          (fun s => (s.pc, s.accesses (.driver (.issue 0 (.id 1))),
            (s.step (.driver (.issue 0 (.id 1)))).isSome)) =
        some (.returned, true, true) by decide)
    simp only [Prod.mk.injEq] at hview
    obtain ⟨hpc, hacc, hsome⟩ := hview
    exact ⟨s, replay_reach (fun _ _ _ => trivial) hinit hrun, hpc, hacc, hsome⟩

end Deepspan
