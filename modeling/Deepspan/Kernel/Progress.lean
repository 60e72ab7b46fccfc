import Deepspan.Kernel.Requests

/-!
# The driver can always go on

Nothing in the driver waits for ever: whoever holds `vq_lock` is in a critical section and
can leave it (`LockHeld`), so that the lock can be given back (`exists_unlocked`), and a
work item that is given the lock polls until the used ring is empty and stops
(`exists_idle`). The runs that show it take steps of the calls and of the work item only
(`KernelAct.internal`).
-/

namespace Deepspan

open Transition

/-! ## The lock -/

/-- The call is in the critical section. -/
def IssuePc.locked : IssuePc → Bool
  | .addSgs | .kick | .unlockVq _ => true
  | _ => false

/-- The work item is in the critical section. -/
def WorkerPc.locked : WorkerPc → Bool
  | .getBuf | .unlockGot _ | .enableCb | .unlockEnd => true
  | _ => false

/-- Whoever holds `vq_lock` is in its critical section. -/
structure LockHeld (k : KernelState) : Prop where
  byCall : ∀ i, k.lock = some (.issue i) → ∃ req, k.reqs[i]? = some req ∧ req.pc.locked = true
  byWorker : k.lock = some .worker → k.worker.locked = true

section Lock

variable {k k' : KernelState} {a : KernelAct} {i : Nat} {req req' : Request}

theorem LockHeld.of_none (h : k.lock = none) : LockHeld k where
  byCall := by
    intro i hlock
    rw [h] at hlock
    cases hlock
  byWorker := by
    intro hlock
    rw [h] at hlock
    cases hlock

/-- A work item that is not in its critical section does not hold the lock. -/
theorem LockHeld.not_worker (h : LockHeld k) {pc : WorkerPc} (hp : k.worker = pc)
    (hpc : pc.locked = false) : k.lock ≠ some .worker := by
  intro hlock
  have hlocked := h.byWorker hlock
  rw [hp, hpc] at hlocked
  cases hlocked

/-- Call `i` moves on without leaving the critical section. -/
theorem LockHeld.set (h : LockHeld k) (hr : k.reqs[i]? = some req)
    (hlocked : req.pc.locked = true → req'.pc.locked = true) :
    ∀ j, k.lock = some (.issue j) →
      ∃ new, (k.reqs.set i req')[j]? = some new ∧ new.pc.locked = true := by
  intro j hlock
  obtain ⟨old, hj, hold⟩ := h.byCall j hlock
  rcases Nat.decEq j i with hji | rfl
  · exact ⟨old, getElem?_set_of_ne hji hj, hold⟩
  · cases hr.symm.trans hj
    exact ⟨req', getElem?_set_self_of hr, hlocked hold⟩

theorem localStep_locked (h : req.pc.locked = true) (hs : LocalStep req req') :
    req'.pc.locked = true := by
  cases hs with
  | moves hmoves =>
    generalize req.pc = pc at h hmoves
    cases hmoves with
    | addSgsFails e | kick => rfl
    | _ => cases h
  | payload hpc _ _ _ | inline hpc _ =>
    rw [hpc] at h
    cases h

theorem lockHeld_issue {out : Outcome} (h : LockHeld k) (hs : k.issueStep i out = some k') :
    LockHeld k' := by
  cases issueStep_cases hs with
  | own hr hlocal =>
    exact ⟨h.set hr fun hlocked => localStep_locked hlocked hlocal, h.byWorker⟩
  | lockVq hr hpc _ =>
    refine ⟨?_, fun hlock => by cases hlock⟩
    intro j hlock
    cases hlock
    exact ⟨_, getElem?_set_self_of hr, rfl⟩
  | addSgs hr hpc => exact ⟨h.set hr fun _ => rfl, h.byWorker⟩
  | unlockVq hr hpc => exact .of_none rfl
  | xaAlloc hr hpc _ _ _ | xaErase hr hpc =>
    refine ⟨h.set hr ?_, h.byWorker⟩
    rw [hpc]
    exact fun hlocked => by cases hlocked

theorem lockHeld_worker (h : LockHeld k) (hs : k.workerStep = some k') : LockHeld k' := by
  cases workerStep_cases hs with
  | lock hp hlock => exact ⟨fun j hlock => (by cases hlock), fun _ => rfl⟩
  | pop hp hused | empty hp hused => exact ⟨h.byCall, fun _ => rfl⟩
  | enableCb hp => exact ⟨h.byCall, fun _ => rfl⟩
  | unlockGot hp | unlockEnd hp => exact .of_none rfl
  | erase hp | cmdDone hp | free hp =>
    exact ⟨h.byCall, fun hlock => absurd hlock (h.not_worker hp rfl)⟩
  | readResp hp hr => exact ⟨h.byCall, fun hlock => absurd hlock (h.not_worker hp rfl)⟩

theorem lockHeld_step (h : LockHeld k) (hs : k.step a = some k') : LockHeld k' := by
  cases KernelState.step_cases hs with
  | uringCmd ureq =>
    refine ⟨fun j hlock => ?_, h.byWorker⟩
    obtain ⟨req, hj, hlocked⟩ := h.byCall j hlock
    refine ⟨req, ?_, hlocked⟩
    rw [List.getElem?_append_left (List.getElem?_eq_some_iff.mp hj).1]
    exact hj
  | issue hs => exact lockHeld_issue h hs
  | complete hr hmem => exact ⟨h.set hr fun hlocked => hlocked, h.byWorker⟩
  | interrupt hirq hidle | disableCb hp | scheduleWork hp => exact ⟨h.byCall, h.byWorker⟩
  | startWork hsched hidle =>
    exact ⟨h.byCall, fun hlock => absurd hlock (h.not_worker hidle rfl)⟩
  | worker hs => exact lockHeld_worker h hs

end Lock

/-! ## Runs of the calls and the work item -/

/-- The steps of the calls and of the work item. -/
def KernelAct.internal : KernelAct → Bool
  | .issue _ _ | .worker => true
  | .uringCmd _ | .complete _ _ | .interrupt | .cb | .startWork => false

/-- The calls and the work item can take the driver from `k` to `k'`. -/
def KernelState.GoesTo (k k' : KernelState) : Prop :=
  Reach (kernelSystem.startedAt k) (fun _ a => a.internal = true) k'

section GoesTo

variable {k k' k'' : KernelState} {i : Nat} {req : Request}

theorem KernelState.GoesTo.refl (k : KernelState) : k.GoesTo k := .init rfl

theorem KernelState.GoesTo.trans (h : k.GoesTo k') (h' : k'.GoesTo k'') : k.GoesTo k'' :=
  Reach.trans h h'

theorem goesTo_worker (hs : k.workerStep = some k') : k.GoesTo k' :=
  .step (a := .worker) (.init rfl) rfl hs

theorem goesTo_issue {out : Outcome} (hs : k.issueStep i out = some k') : k.GoesTo k' :=
  .step (a := .issue i out) (.init rfl) rfl hs

theorem KernelState.GoesTo.audited (h : k.GoesTo k') (haud : Audited k) : Audited k' :=
  Reach.after haud (fun _ _ _ haud _ hs => audited_step haud hs) h

theorem KernelState.GoesTo.lockHeld (h : k.GoesTo k') (hlock : LockHeld k) : LockHeld k' :=
  Reach.after hlock (fun _ _ _ hlock _ hs => lockHeld_step hlock hs) h

theorem goesTo_unlockVq {ret : Option Errno} (hr : k.reqs[i]? = some req)
    (hpc : req.pc = .unlockVq ret) :
    ∃ reqs, k.GoesTo { k with lock := none, reqs := reqs } := by
  have hs : k.issueStep i .ok = some { k with
      lock := none, reqs := k.reqs.set i { req with pc := afterUnlock ret } } := by
    simp only [KernelState.issueStep, hr, hpc]
  exact ⟨_, goesTo_issue hs⟩

/-- One step before it. -/
theorem goesTo_unlockVq_next {out : Outcome} {req' : Request} {ret : Option Errno}
    (hr : k.reqs[i]? = some req)
    (hs : k.issueStep i out = some { k with reqs := k.reqs.set i req' })
    (hpc : req'.pc = .unlockVq ret) : ∃ reqs, k.GoesTo { k with lock := none, reqs := reqs } := by
  have hr' : { k with reqs := k.reqs.set i req' }.reqs[i]? = some req' := getElem?_set_self_of hr
  obtain ⟨reqs, hgo⟩ := goesTo_unlockVq hr' hpc
  exact ⟨reqs, (goesTo_issue hs).trans hgo⟩

/-- A call that holds the lock gives it back and changes nothing else but its own request:
`virtqueue_add_sgs`, if it is still to come, may fail. -/
theorem goesTo_call (h : LockHeld k) (hlock : k.lock = some (.issue i)) :
    ∃ reqs, k.GoesTo { k with lock := none, reqs := reqs } := by
  obtain ⟨req, hr, hlocked⟩ := h.byCall i hlock
  cases hpc : req.pc with
  | unlockVq ret => exact goesTo_unlockVq hr hpc
  | kick =>
    have hs : k.issueStep i .ok = some { k with
        reqs := k.reqs.set i { req with pc := .unlockVq none } } := by
      simp only [KernelState.issueStep, hr, hpc, Request.localStep, Option.map_some]
    exact goesTo_unlockVq_next hr hs rfl
  | addSgs =>
    have hs : k.issueStep i (.fails .enospc) = some { k with
        reqs := k.reqs.set i { req with pc := .unlockVq (some .enospc) } } := by
      simp only [KernelState.issueStep, hr, hpc, Request.localStep, Option.map_some]
    exact goesTo_unlockVq_next hr hs rfl
  | _ =>
    rw [hpc] at hlocked
    cases hlocked

/-- Behind its loop the work item gives the lock back and ends. -/
theorem exists_left (hp : k.worker = .enableCb ∨ k.worker = .unlockEnd) :
    ∃ k', k.GoesTo k' ∧ k'.lock = none ∧ k'.worker = .idle ∧ k'.cqes = k.cqes := by
  rcases hp with hp | hp
  · have hs : k.workerStep = some { k with cbEnabled := true, worker := .unlockEnd } := by
      simp only [KernelState.workerStep, hp]
    exact ⟨_, (goesTo_worker hs).trans (goesTo_worker rfl), rfl, rfl, rfl⟩
  · have hs : k.workerStep = some { k with lock := none, worker := .idle } := by
      simp only [KernelState.workerStep, hp]
    exact ⟨_, goesTo_worker hs, rfl, rfl, rfl⟩

/-- A work item that will not poll again can end without another completion. -/
theorem exists_ended (hpoll : k.worker.willPoll = false) :
    ∃ k', k.GoesTo k' ∧ k'.worker = .idle ∧ k'.cqes = k.cqes := by
  cases hp : k.worker with
  | idle => exact ⟨k, .refl k, hp, rfl⟩
  | enableCb | unlockEnd =>
    obtain ⟨k', hgo, _, hidle, hcqes⟩ := exists_left (k := k) (by simp [hp])
    exact ⟨k', hgo, hidle, hcqes⟩
  | _ =>
    rw [hp] at hpoll
    cases hpoll

/-- Inside its critical section the work item gives the lock back before it completes
anything. -/
theorem exists_worker_unlocked (hlocked : k.worker.locked = true) :
    ∃ k', k.GoesTo k' ∧ k'.lock = none ∧ k'.cqes = k.cqes := by
  cases hp : k.worker with
  | getBuf =>
    cases hused : k.used with
    | cons r rest =>
      have hs : k.workerStep = some { k with
          used := rest, popped := k.popped ++ [r], worker := .unlockGot r } := by
        simp only [KernelState.workerStep, hp, hused]
      exact ⟨_, (goesTo_worker hs).trans (goesTo_worker rfl), rfl, rfl⟩
    | nil =>
      have hs : k.workerStep = some { k with worker := .enableCb } := by
        simp only [KernelState.workerStep, hp, hused]
      obtain ⟨k', hgo, hnone, _, hcqes⟩ :=
        exists_left (k := { k with worker := .enableCb }) (.inl rfl)
      exact ⟨k', (goesTo_worker hs).trans hgo, hnone, hcqes⟩
  | unlockGot r =>
    have hs : k.workerStep = some { k with lock := none, worker := .erase r } := by
      simp only [KernelState.workerStep, hp]
    exact ⟨_, goesTo_worker hs, rfl, rfl⟩
  | enableCb | unlockEnd =>
    obtain ⟨k', hgo, hnone, _, hcqes⟩ := exists_left (k := k) (by simp [hp])
    exact ⟨k', hgo, hnone, hcqes⟩
  | _ =>
    rw [hp] at hlocked
    cases hlocked

/-- The lock can be given back without another completion. -/
theorem exists_unlocked (h : LockHeld k) :
    ∃ k', k.GoesTo k' ∧ k'.lock = none ∧ k'.cqes = k.cqes ∧
      (k.worker = .idle → k'.worker = .idle) := by
  cases hlock : k.lock with
  | none => exact ⟨k, .refl k, hlock, rfl, fun hidle => hidle⟩
  | some holder =>
    cases holder with
    | issue i =>
      obtain ⟨reqs, hgo⟩ := goesTo_call h hlock
      exact ⟨_, hgo, rfl, rfl, fun hidle => hidle⟩
    | worker =>
      have hlocked := h.byWorker hlock
      obtain ⟨k', hgo, hnone, hcqes⟩ := exists_worker_unlocked hlocked
      exact ⟨k', hgo, hnone, hcqes, fun hidle => absurd hlock (h.not_worker hidle rfl)⟩

/-! ## The work item stops -/

/-- How many more steps the work item takes if the used ring is empty from now on. -/
def WorkerPc.toGo : WorkerPc → Nat
  | .idle => 0
  | .unlockEnd => 1
  | .enableCb => 2
  | .getBuf => 3
  | .lock | .relock => 4
  | .free _ => 5
  | .cmdDone _ _ _ => 6
  | .readResp _ => 7
  | .erase _ => 8
  | .unlockGot _ => 9

/-- A buffer in the used ring costs one round of seven steps. -/
def KernelState.toGo (k : KernelState) : Nat := 7 * k.used.length + k.worker.toGo

theorem workerStep_toGo (hs : k.workerStep = some k') : k'.toGo < k.toGo := by
  cases workerStep_cases hs with
  | lock hp hlock => rcases hp with hp | hp <;> simp [KernelState.toGo, WorkerPc.toGo, hp]
  | pop hp hused =>
    simp only [KernelState.toGo, WorkerPc.toGo, hp, hused, List.length_cons]
    omega
  | empty hp hused => simp [KernelState.toGo, WorkerPc.toGo, hp]
  | readResp hp hr => simp [KernelState.toGo, WorkerPc.toGo, hp]
  | unlockGot hp | erase hp | cmdDone hp | free hp | enableCb hp | unlockEnd hp =>
    simp [KernelState.toGo, WorkerPc.toGo, hp]

/-- The work item waits for nothing but the lock. -/
theorem Audited.worker_enabled (haud : Audited k) (hne : k.worker ≠ .idle)
    (hlock : k.lock = none ∨ k.worker.locked = true) : ∃ k', k.workerStep = some k' := by
  unfold KernelState.workerStep
  cases hp : k.worker with
  | idle => exact absurd hp hne
  | lock | relock =>
    rcases hlock with hlock | hlocked
    · simp [hlock]
    · rw [hp] at hlocked
      cases hlocked
  | getBuf =>
    simp only
    split <;> exact ⟨_, rfl⟩
  | readResp r =>
    have hproceeds := haud.proceeds (r := r) (by rw [hp]; rfl)
    simpa only [KernelState.workerStep, hp] using hproceeds
  | _ => exact ⟨_, rfl⟩

theorem worker_next (haud : Audited k) (h : LockHeld k) (hne : k.worker ≠ .idle) :
    ∃ k', k.GoesTo k' ∧ k'.toGo < k.toGo ∧ k'.avail = k.avail := by
  cases hlock : k.lock with
  | none =>
    obtain ⟨k', hs⟩ := haud.worker_enabled hne (.inl hlock)
    exact ⟨k', goesTo_worker hs, workerStep_toGo hs, (workerStep_frame hs).2.2⟩
  | some holder =>
    cases holder with
    | worker =>
      obtain ⟨k', hs⟩ := haud.worker_enabled hne (.inr (h.byWorker hlock))
      exact ⟨k', goesTo_worker hs, workerStep_toGo hs, (workerStep_frame hs).2.2⟩
    | issue i =>
      -- the call gives the lock back first, and leaves the rings and the work item alone
      obtain ⟨reqs, hgo⟩ := goesTo_call h hlock
      obtain ⟨k', hs⟩ := (hgo.audited haud).worker_enabled hne (.inl rfl)
      have hlt := workerStep_toGo hs
      have havail := (workerStep_frame hs).2.2
      exact ⟨k', hgo.trans (goesTo_worker hs), hlt, havail⟩

/-- The work item can be run until it stops: what it has to do gets less. -/
theorem exists_idle (haud : Audited k) (h : LockHeld k) :
    ∃ k', k.GoesTo k' ∧ k'.worker = .idle ∧ k'.avail = k.avail := by
  have hrun : ∀ k₁, (Audited k₁ ∧ LockHeld k₁ ∧ k₁.avail = k.avail) → k₁.worker ≠ .idle →
      ∃ k₂, k₁.GoesTo k₂ ∧ (Audited k₂ ∧ LockHeld k₂ ∧ k₂.avail = k.avail) ∧
        k₂.toGo < k₁.toGo := by
    rintro k₁ ⟨haud₁, hlock₁, havail₁⟩ hne
    obtain ⟨k₂, hgo, hlt, havail₂⟩ := worker_next haud₁ hlock₁ hne
    exact ⟨k₂, hgo, ⟨hgo.audited haud₁, hgo.lockHeld hlock₁, havail₂.trans havail₁⟩, hlt⟩
  have hend : ∃ k', k.GoesTo k' ∧ (Audited k' ∧ LockHeld k' ∧ k'.avail = k.avail) ∧
      k'.worker = .idle :=
    Reach.progress KernelState.toGo hrun ⟨haud, h, rfl⟩
  obtain ⟨k', hgo, ⟨-, -, havail⟩, hidle⟩ := hend
  exact ⟨k', hgo, hidle, havail⟩

end GoesTo

end Deepspan
