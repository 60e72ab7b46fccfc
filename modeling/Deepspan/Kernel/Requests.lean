import Mathlib.Data.List.Nodup
import Mathlib.Data.UInt
import Deepspan.Kernel.Notify
import Deepspan.Lib.Ledger

/-!
# Every queued request is completed exactly once

The kernel driver keeps the books of `Ledger`: `KernelState.books` forgets locks,
callbacks and the program points that do not matter, and every step of the driver
either leaves the books as they are or is one move of the ledger (`step_books`). The
one thing the books do not know is that a request that holds an id has it in
`req->req_id`, which is what `xa_erase` is called with (`Request.Named`).
-/

namespace Deepspan

open Transition
open Ledger (Books Work Consistent Step)
open Function (update)

/-! ## The books of the driver -/

/-- `virtqueue_add_sgs` has succeeded. -/
def IssuePc.added : IssuePc → Bool
  | .kick | .unlockVq none | .returned none => true
  | _ => false

/-- `xa_alloc` has succeeded, and the call has not erased the id on its way out. -/
def IssuePc.holdsId : IssuePc → Bool
  | .lockVq | .addSgs | .kick | .unlockVq _ | .xaErase _ | .returned none => true
  | _ => false

def Request.heldId (req : Request) : Option Nat := if req.pc.holdsId then req.reqId else none

/-- A request that holds an id knows it, and it is one that `xa_alloc` hands out. -/
def Request.Named (req : Request) : Prop :=
  req.pc.holdsId = true → ∃ k, req.reqId = some k ∧ 1 ≤ k ∧ k ≤ deepspanMaxRequests

/-- What `io_uring_cmd_done` is to be called with. -/
def ResultHdr.words (hdr : ResultHdr) : Int × UInt64 := (hdr.status.toInt, hdr.res2)

def Cqe.entry (c : Cqe) : Nat × Int × UInt64 := (c.req, c.status, c.res2)

def WorkerPc.work : WorkerPc → Work (Int × UInt64)
  | .unlockGot r | .erase r => .popped r
  | .readResp r => .erased r
  | .cmdDone r status res2 => .read r (status, res2)
  | _ => .none

/-! An entry of the table of requests, as the books see it: a call that has not been
made yet holds no id and is not queued. -/

def idAt (entry : Option Request) : Option Nat := entry.bind Request.heldId

def queuedAt (entry : Option Request) : Bool := entry.any fun req => req.pc.added

def respAt (entry : Option Request) : Int × UInt64 := (entry.elim ⟨0, 0, 0⟩ Request.resp).words

def KernelState.books (s : KernelState) : Books (Int × UInt64) where
  id r := idAt s.reqs[r]?
  queued r := queuedAt s.reqs[r]?
  resp r := respAt s.reqs[r]?
  pending := s.pending
  avail := s.avail
  used := s.used
  popped := s.popped
  written := s.written.map fun p => (p.1, p.2.words)
  work := s.worker.work
  done := s.cqes.map Cqe.entry

theorem xaStore_eq_update (pending : Nat → Option Nat) (k : Nat) (entry : Option Nat) :
    xaStore pending k entry = update pending k entry := by
  funext j
  rw [Function.update_apply]
  rfl

section Table

variable {s s' : KernelState} {r : Nat} {req req' : Request}

/-- What is read off the requests, after request `r` has changed. -/
theorem reqs_set_update {β : Type} (f : Option Request → β) (hr : s.reqs[r]? = some req) :
    (fun j : Nat => f (s.reqs.set r req')[j]?) =
      update (fun j => f s.reqs[j]?) r (f (some req')) := by
  funext j
  rcases Nat.decEq j r with hj | rfl
  · rw [List.getElem?_set_ne (Ne.symm hj), Function.update_of_ne hj]
  · rw [getElem?_set_self_of hr, Function.update_self]

/-- What is read off the requests, after a change to request `r` that it does not see. -/
theorem reqs_set_keep {β : Type} (f : Option Request → β) (hr : s.reqs[r]? = some req)
    (hf : f (some req') = f (some req)) :
    (fun j : Nat => f (s.reqs.set r req')[j]?) = fun j => f s.reqs[j]? :=
  funext fun _ => getElem?_set_congr f hr hf

end Table

/-! ## Program points -/

theorem IssuePc.holdsId_of_added {pc : IssuePc} (h : pc.added = true) : pc.holdsId = true := by
  cases pc with
  | kick => rfl
  | unlockVq ret => rfl
  | returned ret =>
    cases ret with
    | none => rfl
    | some e => cases h
  | _ => cases h

/-- A call that is by itself neither takes nor gives up anything. -/
theorem localStep_keeps {req req' : Request} (h : LocalStep req req') :
    req'.pc.added = req.pc.added ∧ req'.pc.holdsId = req.pc.holdsId ∧
      req'.reqId = req.reqId ∧ req'.resp = req.resp := by
  cases h with
  | moves hpc =>
    generalize req.pc = pc at hpc
    cases hpc <;> exact ⟨rfl, rfl, rfl, rfl⟩
  | payload hpc _ _ _ | inline hpc _ =>
    rw [hpc]
    exact ⟨rfl, rfl, rfl, rfl⟩

/-! ## Every step is a move of the ledger -/

section Moves

variable {s s' : KernelState} {r : Nat} {req req' : Request}

/-- The call moves on without touching the books. -/
theorem books_keep (hr : s.reqs[r]? = some req) (hid : req'.heldId = req.heldId)
    (hadded : req'.pc.added = req.pc.added) (hresp : req'.resp = req.resp)
    (lock : Option LockHolder) :
    { s with lock := lock, reqs := s.reqs.set r req' }.books = s.books := by
  refine Books.ext ?_ ?_ ?_ rfl rfl rfl rfl rfl rfl rfl
  · exact reqs_set_keep idAt hr hid
  · exact reqs_set_keep queuedAt hr hadded
  · exact reqs_set_keep respAt hr (congrArg ResultHdr.words hresp)

theorem books_uringCmd (ureq : CmdReq) :
    { s with reqs := s.reqs ++ [Request.fresh ureq] }.books = s.books := by
  refine Books.ext ?_ ?_ ?_ rfl rfl rfl rfl rfl rfl rfl
  · exact funext fun _ => getElem?_concat_congr idAt rfl
  · exact funext fun _ => getElem?_concat_congr queuedAt rfl
  · exact funext fun _ => getElem?_concat_congr respAt rfl

theorem books_xaAlloc {k : Nat} (hr : s.reqs[r]? = some req) (hpc : req.pc = .xaAlloc)
    (hk : s.pending k = none) :
    Step s.books { s with
      pending := xaStore s.pending k (some r)
      reqs := s.reqs.set r { req with pc := .lockVq, reqId := some k } }.books := by
  have hid : s.books.id r = none := by
    simp [KernelState.books, idAt, hr, Request.heldId, hpc, IssuePc.holdsId]
  have hq : s.books.queued r = false := by
    simp [KernelState.books, queuedAt, hr, hpc, IssuePc.added]
  refine (Step.alloc (k := k) hid hq hk).of_eq (Books.ext ?_ ?_ ?_ ?_ rfl rfl rfl rfl rfl rfl)
  · exact reqs_set_update idAt hr
  · exact reqs_set_keep queuedAt hr (by simp [queuedAt, hpc, IssuePc.added])
  · exact reqs_set_keep respAt hr rfl
  · exact xaStore_eq_update ..

theorem books_xaErase {e : Errno} (hr : s.reqs[r]? = some req) (hpc : req.pc = .xaErase e)
    (hnamed : req.Named) :
    Step s.books { s with
      pending := match req.reqId with
        | some k => xaStore s.pending k none
        | none => s.pending
      reqs := s.reqs.set r { req with pc := .freeResp e } }.books := by
  obtain ⟨k, hk, _⟩ := hnamed (by rw [hpc]; rfl)
  have hid : s.books.id r = some k := by
    simp [KernelState.books, idAt, hr, Request.heldId, hpc, IssuePc.holdsId, hk]
  have hq : s.books.queued r = false := by
    simp [KernelState.books, queuedAt, hr, hpc, IssuePc.added]
  refine (Step.drop hid hq).of_eq (Books.ext ?_ ?_ ?_ ?_ rfl rfl rfl rfl rfl rfl)
  · exact reqs_set_update idAt hr
  · exact reqs_set_keep queuedAt hr (by simp [queuedAt, hpc, IssuePc.added])
  · exact reqs_set_keep respAt hr rfl
  · simp only [hk]
    exact xaStore_eq_update ..

theorem books_addSgs (hr : s.reqs[r]? = some req) (hpc : req.pc = .addSgs) :
    Step s.books { s with
      avail := s.avail ++ [r], reqs := s.reqs.set r { req with pc := .kick } }.books := by
  have hq : s.books.queued r = false := by
    simp [KernelState.books, queuedAt, hr, hpc, IssuePc.added]
  refine (Step.queue hq).of_eq (Books.ext ?_ ?_ ?_ rfl rfl rfl rfl rfl rfl rfl)
  · refine reqs_set_keep idAt hr ?_
    simp [idAt, Request.heldId, hpc, IssuePc.holdsId]
  · exact reqs_set_update queuedAt hr
  · exact reqs_set_keep respAt hr rfl

theorem books_complete {hdr : ResultHdr} (hr : s.reqs[r]? = some req) (hmem : r ∈ s.avail) :
    Step s.books { s with
      avail := s.avail.erase r, used := s.used ++ [r]
      reqs := s.reqs.set r { req with resp := hdr }, written := s.written ++ [(r, hdr)]
      irq := s.irq || s.cbEnabled }.books := by
  refine (Step.answer (w := hdr.words) hmem).of_eq (Books.ext ?_ ?_ ?_ rfl rfl rfl rfl ?_ rfl rfl)
  · exact reqs_set_keep idAt hr rfl
  · exact reqs_set_keep queuedAt hr rfl
  · exact reqs_set_update respAt hr
  · simp [KernelState.books]

end Moves

theorem books_work {s : KernelState} {pc : WorkerPc} (hp : s.worker = pc) :
    s.books.work = pc.work := congrArg WorkerPc.work hp

theorem issueStep_books {s s' : KernelState} {r : Nat} {out : Outcome}
    (hnamed : ∀ req ∈ s.reqs, req.Named) (h : s.issueStep r out = some s') :
    s'.books = s.books ∨ Step s.books s'.books := by
  cases issueStep_cases h with
  | own hr hlocal =>
    obtain ⟨hadded, hholds, hid, hresp⟩ := localStep_keeps hlocal
    exact .inl (books_keep hr (by simp only [Request.heldId, hholds, hid]) hadded hresp s.lock)
  | xaAlloc hr hpc _ _ hk => exact .inr (books_xaAlloc hr hpc hk)
  | lockVq hr hpc _ =>
    refine .inl (books_keep hr ?_ ?_ ?_ _)
    · simp only [Request.heldId, hpc, IssuePc.holdsId]
    · simp only [hpc, IssuePc.added]
    · rfl
  | addSgs hr hpc => exact .inr (books_addSgs hr hpc)
  | @unlockVq req ret hr hpc =>
    refine .inl (books_keep hr ?_ ?_ ?_ _)
    · cases ret <;> simp only [Request.heldId, hpc, afterUnlock, IssuePc.holdsId]
    · cases ret <;> simp only [hpc, afterUnlock, IssuePc.added]
    · rfl
  | @xaErase req e hr hpc => exact .inr (books_xaErase hr hpc (hnamed req (List.mem_of_getElem? hr)))

/-- What has been popped was queued, so it holds the id in its `req_id`. -/
theorem popped_named {s : KernelState} {r : Nat} (h : Consistent s.books)
    (hnamed : ∀ req ∈ s.reqs, req.Named) (hr : r ∈ s.popped) :
    ∃ req k, s.reqs[r]? = some req ∧ req.reqId = some k ∧ s.books.id r = some k := by
  have hq : queuedAt s.reqs[r]? = true := h.queued_of_popped hr
  cases hreq : s.reqs[r]? with
  | none => rw [hreq] at hq; cases hq
  | some req =>
    rw [hreq] at hq
    have hholds := IssuePc.holdsId_of_added hq
    obtain ⟨k, hk, _⟩ := hnamed req (List.mem_of_getElem? hreq) hholds
    refine ⟨req, k, rfl, hk, ?_⟩
    simp only [KernelState.books, idAt, hreq, Option.bind_some, Request.heldId, hholds, hk, if_true]

theorem workerStep_books {s s' : KernelState} (h : Consistent s.books)
    (hnamed : ∀ req ∈ s.reqs, req.Named) (hs : s.workerStep = some s') :
    s'.books = s.books ∨ Step s.books s'.books := by
  cases workerStep_cases hs with
  | pop hp hused =>
    have hwork : s.books.work = .none := books_work hp
    exact .inr (Step.pop hused hwork)
  | @erase r hp =>
    have hwork : s.books.work = .popped r := books_work hp
    obtain ⟨req, k, hr, hk, hid⟩ :=
      popped_named h hnamed (h.mem_popped (by rw [hwork]; exact List.mem_singleton_self r))
    refine .inr ((Step.erase hwork hid).of_eq ?_)
    simp only [KernelState.books, hr, Option.bind_some, hk, xaStore_eq_update, WorkerPc.work]
  | @readResp r req hp hr =>
    have hwork : s.books.work = .erased r := books_work hp
    refine .inr ((Step.read hwork).of_eq ?_)
    simp only [KernelState.books, WorkerPc.work, respAt, hr]
    rfl
  | @cmdDone r status res2 hp =>
    have hwork : s.books.work = .read r (status, res2) := books_work hp
    refine .inr ((Step.report hwork).of_eq ?_)
    simp only [KernelState.books, WorkerPc.work, List.map_append]
    rfl
  | lock hp hlock =>
    rcases hp with hp | hp
    · exact .inl (by simp only [KernelState.books, hp, WorkerPc.work])
    · exact .inl (by simp only [KernelState.books, hp, WorkerPc.work])
  | empty hp hused => exact .inl (by simp only [KernelState.books, hp, WorkerPc.work])
  | unlockGot hp | free hp | enableCb hp | unlockEnd hp =>
    exact .inl (by simp only [KernelState.books, hp, WorkerPc.work])

/-- Every step of the driver leaves the books as they are or is a move of the
ledger. -/
theorem step_books {s s' : KernelState} {a : KernelAct} (h : Consistent s.books)
    (hnamed : ∀ req ∈ s.reqs, req.Named) (hs : s.step a = some s') :
    s'.books = s.books ∨ Step s.books s'.books := by
  cases KernelState.step_cases hs with
  | uringCmd ureq => exact .inl (books_uringCmd ureq)
  | issue hs => exact issueStep_books hnamed hs
  | complete hr hmem => exact .inr (books_complete hr hmem)
  | interrupt hirq hidle | disableCb hp | scheduleWork hp => exact .inl rfl
  | startWork hsched hidle => exact .inl (by simp only [KernelState.books, hidle, WorkerPc.work])
  | worker hs => exact workerStep_books h hnamed hs

/-! ## The table of requests -/

/-- What every step of a request preserves. -/
structure Request.Advances (req req' : Request) : Prop where
  named : req.Named → req'.Named
  returned : ∀ ret, req.pc = .returned ret → req'.pc = .returned ret

theorem localStep_advances {req req' : Request} (h : LocalStep req req') : req.Advances req' where
  named := by
    obtain ⟨_, hholds, hid, _⟩ := localStep_keeps h
    rw [Request.Named, Request.Named, hholds, hid]
    exact id
  returned := by
    intro ret hpc
    cases h with
    | moves hmoves =>
      rw [hpc] at hmoves
      cases hmoves
    | payload hcopy _ _ _ | inline hcopy _ => cases hcopy.symm.trans hpc

/-- A request at a program point that is not the last one, which it leaves with the
id that it had. -/
theorem advances_of_pc {req : Request} {pc : IssuePc} (hret : ∀ ret, req.pc ≠ .returned ret)
    (hholds : pc.holdsId = true → req.pc.holdsId = true) :
    req.Advances { req with pc := pc } where
  named := fun hnamed hpc => hnamed (hholds hpc)
  returned := fun ret hpc => absurd hpc (hret ret)

theorem issueStep_reqs {s s' : KernelState} {r : Nat} {out : Outcome}
    (h : s.issueStep r out = some s') :
    ∃ req req', s.reqs[r]? = some req ∧ s'.reqs = s.reqs.set r req' ∧ req.Advances req' := by
  cases issueStep_cases h with
  | @own req req' hr hlocal => exact ⟨req, req', hr, rfl, localStep_advances hlocal⟩
  | @xaAlloc req k hr hpc hk1 hk2 _ =>
    refine ⟨req, _, hr, rfl, fun _ _ => ⟨k, rfl, hk1, hk2⟩, fun ret hret => ?_⟩
    rw [hpc] at hret
    cases hret
  | @lockVq req hr hpc _ | @addSgs req hr hpc | @unlockVq req _ hr hpc | @xaErase req _ hr hpc =>
    exact ⟨req, _, hr, rfl, advances_of_pc (by simp [hpc]) (by simp [hpc, IssuePc.holdsId])⟩

theorem workerStep_reqs {s s' : KernelState} (hs : s.workerStep = some s') : s'.reqs = s.reqs := by
  cases workerStep_cases hs <;> rfl

/-- The work item schedules nothing and queues nothing. -/
theorem workerStep_frame {s s' : KernelState} (hs : s.workerStep = some s') :
    s'.workScheduled = s.workScheduled ∧ s'.cb = s.cb ∧ s'.avail = s.avail := by
  cases workerStep_cases hs <;> exact ⟨rfl, rfl, rfl⟩

/-- The interrupt, the callback and the work item leave the table of requests alone. -/
theorem step_reqs_same {s s' : KernelState} {a : KernelAct}
    (ha : a = .interrupt ∨ a = .cb ∨ a = .startWork ∨ a = .worker) (hs : s.step a = some s') :
    s'.reqs = s.reqs := by
  cases KernelState.step_cases hs with
  | interrupt hirq hidle | disableCb hp | scheduleWork hp | startWork hsched hidle => rfl
  | worker hs => exact workerStep_reqs hs
  | uringCmd ureq | issue hs | complete hr hmem => simp at ha

/-- A step leaves the table of requests alone, adds a new one or advances one. -/
theorem step_reqs {s s' : KernelState} {a : KernelAct} (hs : s.step a = some s') :
    s'.reqs = s.reqs ∨ (∃ ureq, s'.reqs = s.reqs ++ [Request.fresh ureq]) ∨
      ∃ (r : Nat) (req req' : Request),
        s.reqs[r]? = some req ∧ s'.reqs = s.reqs.set r req' ∧ req.Advances req' := by
  cases KernelState.step_cases hs with
  | uringCmd ureq => exact .inr (.inl ⟨ureq, rfl⟩)
  | @issue r _ _ hs => exact .inr (.inr ⟨r, issueStep_reqs hs⟩)
  | @complete r _ req hr hmem =>
    exact .inr (.inr ⟨r, req, _, hr, rfl, fun hnamed => hnamed, fun _ hret => hret⟩)
  | interrupt hirq hidle | disableCb hp | scheduleWork hp | startWork hsched hidle => exact .inl rfl
  | worker hs => exact .inl (workerStep_reqs hs)

theorem named_step {s s' : KernelState} {a : KernelAct} (hnamed : ∀ req ∈ s.reqs, req.Named)
    (hs : s.step a = some s') : ∀ req ∈ s'.reqs, req.Named := by
  intro req' hmem
  rcases step_reqs hs with hreqs | ⟨ureq, hreqs⟩ | ⟨r, req, new, hr, hreqs, hadv⟩
  · exact hnamed req' (hreqs ▸ hmem)
  · rw [hreqs] at hmem
    rcases List.mem_append.mp hmem with hmem | hmem
    · exact hnamed req' hmem
    · cases List.mem_singleton.mp hmem
      intro hholds
      cases hholds
  · rw [hreqs] at hmem
    rcases List.mem_or_eq_of_mem_set hmem with hmem | rfl
    · exact hnamed req' hmem
    · exact hadv.named (hnamed req (List.mem_of_getElem? hr))

/-- A call that has returned stays returned. -/
theorem returned_step {s s' : KernelState} {a : KernelAct} {r : Nat} {ret : Option Errno}
    (h : ∃ req, s.reqs[r]? = some req ∧ req.pc = .returned ret) (hs : s.step a = some s') :
    ∃ req, s'.reqs[r]? = some req ∧ req.pc = .returned ret := by
  obtain ⟨req, hr, hpc⟩ := h
  rcases step_reqs hs with hreqs | ⟨ureq, hreqs⟩ | ⟨i, old, new, hi, hreqs, hadv⟩
  · exact ⟨req, hreqs ▸ hr, hpc⟩
  · rw [hreqs, List.getElem?_append_left (List.getElem?_eq_some_iff.mp hr).1]
    exact ⟨req, hr, hpc⟩
  · rw [hreqs]
    rcases Nat.decEq r i with hri | rfl
    · exact ⟨req, getElem?_set_of_ne hri hr, hpc⟩
    · cases hr.symm.trans hi
      exact ⟨new, getElem?_set_self_of hr, hadv.returned ret hpc⟩

theorem replay_returned {s s' : KernelState} {as : List KernelAct} {r : Nat} {ret : Option Errno}
    (hrun : replay kernelSystem (fun _ _ => true) s as = some s')
    (h : ∃ req, s.reqs[r]? = some req ∧ req.pc = .returned ret) :
    ∃ req, s'.reqs[r]? = some req ∧ req.pc = .returned ret := by
  induction as generalizing s with
  | nil =>
    cases hrun
    exact h
  | cons a as ih =>
    simp only [replay, if_true] at hrun
    obtain ⟨s₁, hs, hrun⟩ := Option.bind_eq_some_iff.mp hrun
    exact ih hrun (returned_step h hs)

/-! ## All runs -/

structure Audited (s : KernelState) : Prop where
  books : Consistent s.books
  named : ∀ req ∈ s.reqs, req.Named

theorem consistent_init : Consistent KernelState.initial.books where
  ring := fun _ => rfl
  ids := by
    intro k r
    constructor
    · intro h
      cases h
    · intro h
      cases h.1
  finished := rfl
  wrote := rfl
  resp := by
    intro r w hw
    cases hw
  words := by
    rintro r w (hw | hw)
    · cases hw
    · cases hw

theorem audited_init : Audited .initial where
  books := consistent_init
  named := by
    intro req hreq
    cases hreq

theorem audited_step {s s' : KernelState} {a : KernelAct} (h : Audited s)
    (hs : s.step a = some s') : Audited s' where
  books := by
    rcases step_books h.books h.named hs with heq | hstep
    · rw [heq]
      exact h.books
    · exact h.books.step hstep
  named := named_step h.named hs

theorem reach_audited {s : KernelState} (h : Reach kernelSystem (fun _ _ => True) s) :
    Audited s := by
  refine h.invariant ?_ ?_
  · rintro _ rfl
    exact audited_init
  · intro s a s' haud _ hs
    exact audited_step haud hs

/-- The buffer of request `r` has been popped and its id erased. -/
def KernelState.Erased (s : KernelState) (r : Nat) : Prop :=
  r ∈ s.popped ∧ s.worker ≠ .unlockGot r ∧ s.worker ≠ .erase r

/-- Request `r` was allocated with id `k`, and neither failed in
`deepspan_uring_cmd_issue` nor has been popped and erased. -/
def KernelState.InFlight (s : KernelState) (r k : Nat) : Prop :=
  ∃ req, s.reqs[r]? = some req ∧ req.pc.holdsId = true ∧ req.reqId = some k ∧ ¬s.Erased r

/-- The buffer whose iteration of the loop `deepspan_tx_work_fn` is in. -/
def WorkerPc.iteration : WorkerPc → Option Nat
  | .unlockGot r | .erase r | .readResp r | .cmdDone r _ _ | .free r => some r
  | _ => none

/-- What the driver owes its requests. -/
structure KernelState.Accounted (s : KernelState) : Prop where
  distinct : ∀ r r' k, s.InFlight r k → s.InFlight r' k → r = r'
  pending : ∀ k r, s.pending k = some r ↔ s.InFlight r k
  allocated : ∀ r req, s.reqs[r]? = some req → req.pc.holdsId = true → ¬s.Erased r →
    ∃ k, 1 ≤ k ∧ k ≤ deepspanMaxRequests ∧ s.InFlight r k
  once : (s.cqes.map Cqe.req).Nodup
  popped : ∀ c ∈ s.cqes, c.req ∈ s.popped
  completed : ∀ r ∈ s.popped, s.worker.iteration ≠ some r → (s.cqes.map Cqe.req).count r = 1
  proceeds : ∀ r, s.worker.iteration = some r → ∃ s', s.workerStep = some s'
  words : ∀ c ∈ s.cqes, ∃ hdr : ResultHdr, (∀ hdr', (c.req, hdr') ∈ s.written ↔ hdr' = hdr) ∧
    c.status = hdr.status.toInt ∧
    c.res2.toNat = hdr.resultLo.toNat + 2 ^ 32 * hdr.resultHi.toNat

/-- The two result words do not overlap in `res2`. -/
theorem ResultHdr.res2_toNat (hdr : ResultHdr) :
    hdr.res2.toNat = hdr.resultLo.toNat + 2 ^ 32 * hdr.resultHi.toNat := by
  have hlo := hdr.resultLo.toNat_lt
  have hhi := hdr.resultHi.toNat_lt
  have hshift : (hdr.resultHi.toUInt64 <<< 32).toNat = 2 ^ 32 * hdr.resultHi.toNat := by
    rw [UInt64.toNat_shiftLeft, UInt32.toNat_toUInt64, Nat.shiftLeft_eq,
      show UInt64.toNat 32 % 64 = 32 from rfl]
    omega
  rw [ResultHdr.res2, UInt64.toNat_or, hshift, UInt32.toNat_toUInt64, Nat.or_comm,
    ← Nat.two_pow_add_eq_or_of_lt hlo, Nat.add_comm]

section Accounted

variable {s : KernelState} {r k : Nat}

theorem work_eq_popped_iff :
    s.books.work = .popped r ↔ s.worker = .unlockGot r ∨ s.worker = .erase r := by
  simp only [KernelState.books]
  cases s.worker <;> simp [WorkerPc.work]

theorem not_erased_iff : ¬s.Erased r ↔ (r ∈ s.popped → s.books.work = .popped r) := by
  rw [work_eq_popped_iff, KernelState.Erased]
  constructor
  · intro h hr
    by_contra hw
    exact h ⟨hr, fun he => hw (.inl he), fun he => hw (.inr he)⟩
  · rintro h ⟨hr, hgot, herase⟩
    rcases h hr with hw | hw
    · exact hgot hw
    · exact herase hw

theorem inFlight_iff : s.InFlight r k ↔ s.books.InFlight r k := by
  constructor
  · rintro ⟨req, hr, hholds, hid, herased⟩
    refine ⟨?_, not_erased_iff.mp herased⟩
    simp [KernelState.books, idAt, hr, Request.heldId, hholds, hid]
  · rintro ⟨hid, hpop⟩
    obtain ⟨req, hr, hheld⟩ := Option.bind_eq_some_iff.mp hid
    rw [Request.heldId] at hheld
    split at hheld
    · next hholds => exact ⟨req, hr, hholds, hheld, not_erased_iff.mpr hpop⟩
    · cases hheld

theorem iteration_of_holding (h : r ∈ s.books.work.holding) : s.worker.iteration = some r := by
  simp only [KernelState.books] at h
  cases hp : s.worker <;> simp_all [WorkerPc.work, Work.holding, WorkerPc.iteration]

theorem map_fst_books_done : s.books.done.map Prod.fst = s.cqes.map Cqe.req := by
  simp [KernelState.books, Cqe.entry, Function.comp_def]

theorem mem_books_done {c : Cqe} (hc : c ∈ s.cqes) :
    (c.req, c.status, c.res2) ∈ s.books.done := List.mem_map_of_mem hc

/-- A completion carries the words of the one answer that the device wrote. -/
theorem Audited.words (h : Audited s) {c : Cqe} (hc : c ∈ s.cqes) :
    ∃ hdr, (∀ hdr', (c.req, hdr') ∈ s.written ↔ hdr' = hdr) ∧ c.status = hdr.status.toInt ∧
      c.res2 = hdr.res2 := by
  have hnodup : (s.written.map Prod.fst).Nodup := by
    have hbooks := h.books.written_nodup
    simpa [KernelState.books, Function.comp_def] using hbooks
  have hmem := h.books.words c.req (c.status, c.res2) (.inl (mem_books_done hc))
  obtain ⟨⟨r, hdr⟩, hw, he⟩ := List.mem_map.mp hmem
  simp only [Prod.mk.injEq, ResultHdr.words] at he
  obtain ⟨rfl, hstatus, hres2⟩ := he
  refine ⟨hdr, fun hdr' => ⟨fun hw' => ?_, fun he => he ▸ hw⟩, hstatus.symm, hres2.symm⟩
  exact congrArg Prod.snd (List.inj_on_of_nodup_map hnodup hw' hw rfl)

/-- The work item does not get stuck in an iteration. -/
theorem Audited.proceeds (h : Audited s) (hr : s.worker.iteration = some r) :
    ∃ s', s.workerStep = some s' := by
  unfold KernelState.workerStep
  cases hp : s.worker with
  | readResp i =>
    have hwork : s.books.work = .erased i := books_work hp
    obtain ⟨req, _, hreq, _⟩ := popped_named h.books h.named
      (h.books.mem_popped (by rw [hwork]; exact List.mem_singleton_self i))
    simp only [hreq, Option.map_some]
    exact ⟨_, rfl⟩
  | unlockGot i | erase i | free i => exact ⟨_, rfl⟩
  | cmdDone i status res2 => exact ⟨_, rfl⟩
  | _ =>
    rw [hp] at hr
    cases hr

theorem Audited.accounted (h : Audited s) : s.Accounted where
  distinct := fun _ _ _ hr hr' =>
    h.books.ids_unique (inFlight_iff.mp hr) (inFlight_iff.mp hr')
  pending := fun k r => (h.books.ids k r).trans inFlight_iff.symm
  allocated := by
    intro r req hr hholds herased
    obtain ⟨k, hk, hk1, hk2⟩ := h.named req (List.mem_of_getElem? hr) hholds
    exact ⟨k, hk1, hk2, req, hr, hholds, hk, herased⟩
  once := by
    rw [← map_fst_books_done]
    exact h.books.done_nodup
  popped := fun _ hc => h.books.mem_popped_of_done (mem_books_done hc)
  completed := by
    intro r hr hiter
    rw [← map_fst_books_done]
    exact h.books.count_done hr fun hhold => hiter (iteration_of_holding hhold)
  proceeds := fun _ hr => h.proceeds hr
  words := by
    intro c hc
    obtain ⟨hdr, hw, hstatus, hres2⟩ := h.words hc
    refine ⟨hdr, hw, hstatus, ?_⟩
    rw [hres2]
    exact hdr.res2_toNat

/-- A call that has returned an error has no completion. -/
theorem Audited.refused (h : Audited s) {req : Request} {e : Errno} (hr : s.reqs[r]? = some req)
    (hpc : req.pc = .returned (some e)) : ∀ c ∈ s.cqes, c.req ≠ r := by
  rintro c hc rfl
  have hq := h.books.queued_of_popped (h.books.mem_popped_of_done (mem_books_done hc))
  simp [KernelState.books, queuedAt, hr, hpc, IssuePc.added] at hq

end Accounted

/-- In every state that some run reaches, the driver has accounted for all of its
requests; and a call that has returned anything but `-EIOCBQUEUED` has no completion
then or later. -/
theorem requests_completed_once {s : KernelState} (h : Reach kernelSystem (fun _ _ => True) s) :
    s.Accounted ∧
    ∀ (as : List KernelAct) (s' : KernelState), replay kernelSystem (fun _ _ => true) s as = some s' →
      ∀ (r : Nat) (req : Request) (e : Errno), s.reqs[r]? = some req →
        req.pc = .returned (some e) → ∀ c ∈ s'.cqes, c.req ≠ r := by
  refine ⟨(reach_audited h).accounted, ?_⟩
  intro as s' hrun r req e hr hpc
  have hreach := replay_reach (fun _ _ _ => trivial) h hrun
  obtain ⟨req', hr', hpc'⟩ := replay_returned hrun ⟨req, hr, hpc⟩
  exact (reach_audited hreach).refused hr' hpc'

/-- Call `r` is given request id `k`, finds the virtqueue full and unwinds. -/
def unqueued (r k : Nat) : List KernelAct :=
  [.uringCmd (plainReq 1), .issue r .ok, .issue r .ok, .issue r .ok, .issue r .ok, .issue r (.id k),
    .issue r .ok, .issue r (.fails .enospc), .issue r .ok, .issue r .ok, .issue r .ok, .issue r .ok,
    .issue r .ok]

/-- The work item has erased id 1 of the first request when a third call is given it
again and fails; then the first request is completed. The second one is with the
device. -/
theorem requests_completed_once_three :
    ∃ s : KernelState, s.popped = [0] ∧ s.avail = [1] ∧ s.cqes = [⟨0, 0, 7 + 8 * 2 ^ 32⟩] ∧
      s.reqs.map Request.pc = [.returned none, .returned none, .returned (some .enospc)] ∧
      s.Accounted := by
  obtain ⟨s, hrun, hview⟩ := Option.map_eq_some_iff.mp (show
    (replay kernelSystem (fun _ _ => true) .initial (firstCompletion ++
      schedule [(1, .startWork), (4, .worker)] ++ unqueued 2 1 ++ schedule [(3, .worker)])).map
        (fun s => (s.popped, s.avail, s.cqes, s.reqs.map Request.pc)) =
      some ([0], [1], [⟨0, 0, 7 + 8 * 2 ^ 32⟩],
        [.returned none, .returned none, .returned (some .enospc)]) by decide)
  simp only [Prod.mk.injEq] at hview
  obtain ⟨hpopped, havail, hcqes, hpcs⟩ := hview
  have hinit : Reach kernelSystem (fun _ _ => True) .initial := .init rfl
  have hreach := replay_reach (fun _ _ _ => trivial) hinit hrun
  exact ⟨s, hpopped, havail, hcqes, hpcs, (requests_completed_once hreach).1⟩

end Deepspan
