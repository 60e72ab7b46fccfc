import Deepspan.Lib.Transition
import Deepspan.Segment

/-!
# The kernel driver: io_uring commands over the TX virtqueue

`deepspan_iouring.c` and the TX half of `deepspan_vqueue.c`, with any number of
`deepspan_uring_cmd_issue` calls, the virtqueue callback, the work item and the
device running concurrently.

* `issueStep` is `deepspan_uring_cmd_issue` with its ladder of unwind labels; an
  `Outcome` resolves what allocations, `copy_from_user`, `xa_alloc` and
  `virtqueue_add_sgs` do. `xa_alloc` is taken as on an array with `XA_FLAGS_ALLOC`,
  which the `xa_init` of the probe does not give it (`issue_failures_iff`).
* `cbStep` is `deepspan_vq_tx_cb`, `workerStep` is `deepspan_tx_work_fn`. A work
  item that is scheduled while it runs runs again, and never runs twice at the
  same time.
* The virtqueue follows the contract of virtio: the device moves a buffer to the
  used ring at any time (`complete`) and raises the callback if callbacks are
  enabled at that moment; `virtqueue_enable_cb` enables them again and raises
  nothing for buffers that are already waiting.

A request is named by the number of the call that made it. `popped`, `written` and
`cqes` are history: the buffers that `virtqueue_get_buf` has returned, what the
device wrote, and the calls of `io_uring_cmd_done`.

`LocalStep`, `IssueStep`, `WorkerStep` and `KernelStep` list what the step functions can
do, one constructor a branch; invariants are proved by cases on them.
-/

namespace Deepspan

open Transition

/-- The errors that `deepspan_uring_cmd_issue` passes on. -/
inductive Errno where
  | enomem
  | efault
  | ebusy
  | einval
  | enospc
  | eio
deriving DecidableEq, Repr

/-- `struct deepspan_cmd_req`. -/
structure CmdReq where
  opcode : UInt32
  flags : UInt32
  dataPtr : UInt64
  dataLen : UInt32
  timeoutMs : UInt32
deriving DecidableEq, Repr

/-- The 24 bytes of the structure. -/
def CmdReq.bytes (u : CmdReq) : List UInt8 :=
  le32 u.opcode ++ le32 u.flags ++ le32 (UInt32.ofNat (u.dataPtr.toNat % 2 ^ 32)) ++
  le32 (UInt32.ofNat (u.dataPtr.toNat / 2 ^ 32)) ++ le32 u.dataLen ++ le32 u.timeoutMs

/-- `struct deepspan_result_hdr`, as the device writes it. -/
structure ResultHdr where
  status : Int32
  resultLo : UInt32
  resultHi : UInt32
deriving DecidableEq, Repr

/-- `(u64)r->result_lo | ((u64)r->result_hi << 32)`. -/
def ResultHdr.res2 (hdr : ResultHdr) : UInt64 :=
  hdr.resultLo.toUInt64 ||| (hdr.resultHi.toUInt64 <<< 32)

/-- A call of `io_uring_cmd_done`. -/
structure Cqe where
  req : Nat
  status : Int
  res2 : UInt64
deriving DecidableEq, Repr

/-- Program points of `deepspan_uring_cmd_issue`; an error code is one that is being
unwound or returned, `none` is `-EIOCBQUEUED`. -/
inductive IssuePc where
  | allocReq
  | allocBuf
  | allocResp
  | copyIn
  | xaAlloc
  | lockVq
  | addSgs
  | kick
  | unlockVq (ret : Option Errno)
  | xaErase (e : Errno)
  | freeResp (e : Errno)
  | freeBuf (e : Errno)
  | freeReq (e : Errno)
  | returned (ret : Option Errno)
deriving DecidableEq, Repr

/-- `struct deepspan_request`, and the call that made it. -/
structure Request where
  ureq : CmdReq
  pc : IssuePc
  reqId : Option Nat
  buf : List UInt8
  resp : ResultHdr
deriving DecidableEq, Repr

/-- How a fallible step turns out. -/
inductive Outcome where
  | ok
  | fails (e : Errno)
  | copied (data : List UInt8)
  | id (k : Nat)
deriving DecidableEq, Repr

inductive LockHolder where
  | issue (r : Nat)
  | worker
deriving DecidableEq, Repr

/-- Program points of `deepspan_vq_tx_cb`. -/
inductive CbPc where
  | idle
  | disableCb
  | scheduleWork
deriving DecidableEq, Repr

/-- Program points of `deepspan_tx_work_fn`. -/
inductive WorkerPc where
  | idle
  | lock
  | getBuf
  | unlockGot (r : Nat)
  | erase (r : Nat)
  | readResp (r : Nat)
  | cmdDone (r : Nat) (status : Int) (res2 : UInt64)
  | free (r : Nat)
  | relock
  | enableCb
  | unlockEnd
deriving DecidableEq, Repr

structure KernelState where
  reqs : List Request
  pending : Nat → Option Nat
  avail : List Nat
  used : List Nat
  cbEnabled : Bool
  lock : Option LockHolder
  irq : Bool
  cb : CbPc
  workScheduled : Bool
  worker : WorkerPc
  popped : List Nat
  written : List (Nat × ResultHdr)
  cqes : List Cqe

inductive KernelAct where
  | uringCmd (ureq : CmdReq)
  | issue (r : Nat) (out : Outcome)
  | complete (r : Nat) (hdr : ResultHdr)
  | interrupt
  | cb
  | startWork
  | worker
deriving DecidableEq, Repr

/-- `DEEPSPAN_MAX_REQUESTS`. -/
def deepspanMaxRequests : Nat := 4096

/-- An XArray store. -/
def xaStore (pending : Nat → Option Nat) (k : Nat) (entry : Option Nat) : Nat → Option Nat :=
  fun j => if j = k then entry else pending j

/-- `memcpy(req->buf, src, n)` into a buffer from `kzalloc`. -/
def fillBuf (len : Nat) (src : List UInt8) : List UInt8 :=
  src ++ List.replicate (len - src.length) 0

/-- `ureq->data_len ?: sizeof(struct deepspan_cmd_req)`. -/
def CmdReq.bufLen (u : CmdReq) : Nat := if u.dataLen = 0 then 24 else u.dataLen.toNat

/-- The steps of a call that touch its own request only. -/
def Request.localStep (req : Request) (out : Outcome) : Option Request :=
  match req.pc, out with
  | .allocReq, .ok => some { req with pc := .allocBuf }
  | .allocReq, .fails .enomem => some { req with pc := .returned (some .enomem) }
  | .allocBuf, .ok => some { req with pc := .allocResp }
  | .allocBuf, .fails .enomem => some { req with pc := .freeReq .enomem }
  | .allocResp, .ok => some { req with pc := .copyIn }
  | .allocResp, .fails .enomem => some { req with pc := .freeBuf .enomem }
  | .copyIn, .copied data =>
    if req.ureq.dataLen ≠ 0 ∧ req.ureq.dataPtr ≠ 0 ∧ data.length = req.ureq.dataLen.toNat then
      some { req with pc := .xaAlloc, buf := fillBuf req.ureq.bufLen data }
    else none
  | .copyIn, .fails .efault =>
    if req.ureq.dataLen ≠ 0 ∧ req.ureq.dataPtr ≠ 0 then some { req with pc := .freeResp .efault }
    else none
  | .copyIn, .ok =>
    -- no payload: the SQE command itself is the request
    if req.ureq.dataLen ≠ 0 ∧ req.ureq.dataPtr ≠ 0 then none
    else some { req with
      pc := .xaAlloc
      buf := fillBuf req.ureq.bufLen (req.ureq.bytes.take (min req.ureq.bufLen 24)) }
  | .xaAlloc, .fails e => some { req with pc := .freeResp e }
  | .addSgs, .fails e => some { req with pc := .unlockVq (some e) }
  | .kick, .ok => some { req with pc := .unlockVq none }
  | .freeResp e, .ok => some { req with pc := .freeBuf e }
  | .freeBuf e, .ok => some { req with pc := .freeReq e }
  | .freeReq e, .ok => some { req with pc := .returned (some e) }
  | _, _ => none

/-- `if (ret) goto err_xa_erase; return -EIOCBQUEUED;`. -/
def afterUnlock : Option Errno → IssuePc
  | none => .returned none
  | some e => .xaErase e

/-- The next step of call `r` of `deepspan_uring_cmd_issue`. -/
def KernelState.issueStep (s : KernelState) (r : Nat) (out : Outcome) : Option KernelState :=
  match s.reqs[r]? with
  | none => none
  | some req =>
    match req.pc, out with
    | .xaAlloc, .id k =>
      if 1 ≤ k ∧ k ≤ deepspanMaxRequests ∧ s.pending k = none then
        some { s with
          pending := xaStore s.pending k (some r)
          reqs := s.reqs.set r { req with pc := .lockVq, reqId := some k } }
      else none
    | .lockVq, .ok =>
      if s.lock = none then
        some { s with lock := some (.issue r), reqs := s.reqs.set r { req with pc := .addSgs } }
      else none
    | .addSgs, .ok =>
      some { s with avail := s.avail ++ [r], reqs := s.reqs.set r { req with pc := .kick } }
    | .unlockVq ret, .ok =>
      some { s with lock := none, reqs := s.reqs.set r { req with pc := afterUnlock ret } }
    | .xaErase e, .ok =>
      some { s with
        pending := match req.reqId with
          | some k => xaStore s.pending k none
          | none => s.pending
        reqs := s.reqs.set r { req with pc := .freeResp e } }
    | _, _ => (req.localStep out).map fun req' => { s with reqs := s.reqs.set r req' }

/-- The next step of `deepspan_vq_tx_cb`. -/
def KernelState.cbStep (s : KernelState) : Option KernelState :=
  match s.cb with
  | .idle => none
  | .disableCb => some { s with cbEnabled := false, cb := .scheduleWork }
  | .scheduleWork => some { s with workScheduled := true, cb := .idle }

/-- The next step of `deepspan_tx_work_fn`. -/
def KernelState.workerStep (s : KernelState) : Option KernelState :=
  match s.worker with
  | .idle => none
  | .lock => if s.lock = none then some { s with lock := some .worker, worker := .getBuf } else none
  | .getBuf =>
    match s.used with
    | r :: rest => some { s with used := rest, popped := s.popped ++ [r], worker := .unlockGot r }
    | [] => some { s with worker := .enableCb }
  | .unlockGot r => some { s with lock := none, worker := .erase r }
  | .erase r =>
    some { s with
      pending := match (s.reqs[r]?).bind Request.reqId with
        | some k => xaStore s.pending k none
        | none => s.pending
      worker := .readResp r }
  | .readResp r =>
    -- `resp_buf` was allocated with `resp_len` the size of the header
    (s.reqs[r]?).map fun req =>
      { s with worker := .cmdDone r req.resp.status.toInt req.resp.res2 }
  | .cmdDone r status res2 =>
    some { s with cqes := s.cqes ++ [⟨r, status, res2⟩], worker := .free r }
  | .free _ => some { s with worker := .relock }
  | .relock => if s.lock = none then some { s with lock := some .worker, worker := .getBuf } else none
  | .enableCb =>
    -- the return value of `virtqueue_enable_cb` is not looked at
    some { s with cbEnabled := true, worker := .unlockEnd }
  | .unlockEnd => some { s with lock := none, worker := .idle }

/-- A request before its first step. -/
def Request.fresh (ureq : CmdReq) : Request := ⟨ureq, .allocReq, none, [], ⟨0, 0, 0⟩⟩

def KernelState.step (s : KernelState) : KernelAct → Option KernelState
  | .uringCmd ureq => some { s with reqs := s.reqs ++ [.fresh ureq] }
  | .issue r out => s.issueStep r out
  | .complete r hdr =>
    match s.reqs[r]? with
    | none => none
    | some req =>
      if r ∈ s.avail then
        some { s with
          avail := s.avail.erase r, used := s.used ++ [r]
          reqs := s.reqs.set r { req with resp := hdr }, written := s.written ++ [(r, hdr)]
          irq := s.irq || s.cbEnabled }
      else none
  | .interrupt => if s.irq ∧ s.cb = .idle then some { s with irq := false, cb := .disableCb } else none
  | .cb => s.cbStep
  | .startWork =>
    if s.workScheduled ∧ s.worker = .idle then
      some { s with workScheduled := false, worker := .lock }
    else none
  | .worker => s.workerStep

/-- A device that has just been probed. -/
def KernelState.initial : KernelState where
  reqs := []
  pending := fun _ => none
  avail := []
  used := []
  cbEnabled := true
  lock := none
  irq := false
  cb := .idle
  workScheduled := false
  worker := .idle
  popped := []
  written := []
  cqes := []

def kernelSystem : System KernelState KernelAct where
  init s := s = .initial
  step := KernelState.step

/-! ## What a step of a call can do -/

/-- The steps of a call that change nothing but its program point. -/
inductive IssuePc.Moves : IssuePc → IssuePc → Prop
  | allocReq : Moves .allocReq .allocBuf
  | allocReqFails : Moves .allocReq (.returned (some .enomem))
  | allocBuf : Moves .allocBuf .allocResp
  | allocBufFails : Moves .allocBuf (.freeReq .enomem)
  | allocResp : Moves .allocResp .copyIn
  | allocRespFails : Moves .allocResp (.freeBuf .enomem)
  | copyInFails : Moves .copyIn (.freeResp .efault)
  | xaAllocFails (e : Errno) : Moves .xaAlloc (.freeResp e)
  | addSgsFails (e : Errno) : Moves .addSgs (.unlockVq (some e))
  | kick : Moves .kick (.unlockVq none)
  | freeResp (e : Errno) : Moves (.freeResp e) (.freeBuf e)
  | freeBuf (e : Errno) : Moves (.freeBuf e) (.freeReq e)
  | freeReq (e : Errno) : Moves (.freeReq e) (.returned (some e))

/-- The steps of a call that touch its own request only. -/
inductive LocalStep (req : Request) : Request → Prop
  | moves {pc : IssuePc} : req.pc.Moves pc → LocalStep req { req with pc := pc }
  | payload {data : List UInt8} : req.pc = .copyIn → req.ureq.dataLen ≠ 0 →
      req.ureq.dataPtr ≠ 0 → data.length = req.ureq.dataLen.toNat →
      LocalStep req { req with pc := .xaAlloc, buf := fillBuf req.ureq.bufLen data }
  | inline : req.pc = .copyIn → ¬(req.ureq.dataLen ≠ 0 ∧ req.ureq.dataPtr ≠ 0) →
      LocalStep req { req with
        pc := .xaAlloc
        buf := fillBuf req.ureq.bufLen (req.ureq.bytes.take (min req.ureq.bufLen 24)) }

theorem localStep_cases {req req' : Request} {out : Outcome} (h : req.localStep out = some req') :
    LocalStep req req' := by
  unfold Request.localStep at h
  split at h
  case h_7 hpc =>
    split at h
    · next hpay =>
      cases h
      exact .payload hpc hpay.1 hpay.2.1 hpay.2.2
    · cases h
  case h_8 hpc =>
    split at h
    · cases h
      exact .moves (hpc ▸ .copyInFails)
    · cases h
  case h_9 hpc =>
    split at h
    · cases h
    · next hno =>
      cases h
      exact .inline hpc hno
  case h_16 => cases h
  all_goals
    next hpc =>
    cases h
    refine .moves ?_
    rw [hpc]
    constructor

/-- The steps of call `r` of `deepspan_uring_cmd_issue`. -/
inductive IssueStep (s : KernelState) (r : Nat) : KernelState → Prop
  | own {req req' : Request} : s.reqs[r]? = some req → LocalStep req req' →
      IssueStep s r { s with reqs := s.reqs.set r req' }
  | xaAlloc {req : Request} {k : Nat} : s.reqs[r]? = some req → req.pc = .xaAlloc → 1 ≤ k →
      k ≤ deepspanMaxRequests → s.pending k = none →
      IssueStep s r { s with
        pending := xaStore s.pending k (some r)
        reqs := s.reqs.set r { req with pc := .lockVq, reqId := some k } }
  | lockVq {req : Request} : s.reqs[r]? = some req → req.pc = .lockVq → s.lock = none →
      IssueStep s r { s with
        lock := some (.issue r), reqs := s.reqs.set r { req with pc := .addSgs } }
  | addSgs {req : Request} : s.reqs[r]? = some req → req.pc = .addSgs →
      IssueStep s r { s with
        avail := s.avail ++ [r], reqs := s.reqs.set r { req with pc := .kick } }
  | unlockVq {req : Request} {ret : Option Errno} : s.reqs[r]? = some req →
      req.pc = .unlockVq ret →
      IssueStep s r { s with
        lock := none, reqs := s.reqs.set r { req with pc := afterUnlock ret } }
  | xaErase {req : Request} {e : Errno} : s.reqs[r]? = some req → req.pc = .xaErase e →
      IssueStep s r { s with
        pending := match req.reqId with
          | some k => xaStore s.pending k none
          | none => s.pending
        reqs := s.reqs.set r { req with pc := .freeResp e } }

theorem issueStep_cases {s s' : KernelState} {r : Nat} {out : Outcome}
    (h : s.issueStep r out = some s') : IssueStep s r s' := by
  unfold KernelState.issueStep at h
  cases hr : s.reqs[r]? with
  | none => simp only [hr] at h; cases h
  | some req =>
    simp only [hr] at h
    split at h
    · next k hpc =>
      split at h
      · next hk =>
        cases h
        exact .xaAlloc hr hpc hk.1 hk.2.1 hk.2.2
      · cases h
    · next hpc =>
      split at h
      · next hlock =>
        cases h
        exact .lockVq hr hpc hlock
      · cases h
    · next hpc =>
      cases h
      exact .addSgs hr hpc
    · next ret hpc =>
      cases h
      exact .unlockVq hr hpc
    · next e hpc =>
      cases h
      exact .xaErase hr hpc
    · obtain ⟨req', hlocal, rfl⟩ := Option.map_eq_some_iff.mp h
      exact .own hr (localStep_cases hlocal)

/-! ## What the other steps can do -/

/-- The steps of `deepspan_tx_work_fn`, one by one. -/
inductive WorkerStep (s : KernelState) : KernelState → Prop
  | lock : s.worker = .lock ∨ s.worker = .relock → s.lock = none →
      WorkerStep s { s with lock := some .worker, worker := .getBuf }
  | pop {r : Nat} {rest : List Nat} : s.worker = .getBuf → s.used = r :: rest →
      WorkerStep s { s with used := rest, popped := s.popped ++ [r], worker := .unlockGot r }
  | empty : s.worker = .getBuf → s.used = [] → WorkerStep s { s with worker := .enableCb }
  | unlockGot {r : Nat} : s.worker = .unlockGot r →
      WorkerStep s { s with lock := none, worker := .erase r }
  | erase {r : Nat} : s.worker = .erase r →
      WorkerStep s { s with
        pending := match (s.reqs[r]?).bind Request.reqId with
          | some k => xaStore s.pending k none
          | none => s.pending
        worker := .readResp r }
  | readResp {r : Nat} {req : Request} : s.worker = .readResp r → s.reqs[r]? = some req →
      WorkerStep s { s with worker := .cmdDone r req.resp.status.toInt req.resp.res2 }
  | cmdDone {r : Nat} {status : Int} {res2 : UInt64} : s.worker = .cmdDone r status res2 →
      WorkerStep s { s with cqes := s.cqes ++ [⟨r, status, res2⟩], worker := .free r }
  | free {r : Nat} : s.worker = .free r → WorkerStep s { s with worker := .relock }
  | enableCb : s.worker = .enableCb →
      WorkerStep s { s with cbEnabled := true, worker := .unlockEnd }
  | unlockEnd : s.worker = .unlockEnd → WorkerStep s { s with lock := none, worker := .idle }

theorem workerStep_cases {s s' : KernelState} (h : s.workerStep = some s') : WorkerStep s s' := by
  unfold KernelState.workerStep at h
  cases hp : s.worker with
  | idle => simp only [hp] at h; cases h
  | lock | relock =>
    simp only [hp] at h
    split at h
    · next hlock =>
      cases h
      exact .lock (by simp [hp]) hlock
    · cases h
  | getBuf =>
    simp only [hp] at h
    split at h
    · next hused =>
      cases h
      exact .pop hp hused
    · next hused =>
      cases h
      exact .empty hp hused
  | unlockGot r => simp only [hp] at h; cases h; exact .unlockGot hp
  | erase r => simp only [hp] at h; cases h; exact .erase hp
  | readResp r =>
    simp only [hp, Option.map_eq_some_iff] at h
    obtain ⟨req, hr, rfl⟩ := h
    exact .readResp hp hr
  | cmdDone r status res2 => simp only [hp] at h; cases h; exact .cmdDone hp
  | free r => simp only [hp] at h; cases h; exact .free hp
  | enableCb => simp only [hp] at h; cases h; exact .enableCb hp
  | unlockEnd => simp only [hp] at h; cases h; exact .unlockEnd hp

/-- The steps of the system, with those of a call and of the work item left as they are. -/
inductive KernelStep (s : KernelState) : KernelAct → KernelState → Prop
  | uringCmd (ureq : CmdReq) :
      KernelStep s (.uringCmd ureq) { s with reqs := s.reqs ++ [.fresh ureq] }
  | issue {r : Nat} {out : Outcome} {s' : KernelState} : s.issueStep r out = some s' →
      KernelStep s (.issue r out) s'
  | complete {r : Nat} {hdr : ResultHdr} {req : Request} : s.reqs[r]? = some req → r ∈ s.avail →
      KernelStep s (.complete r hdr) { s with
        avail := s.avail.erase r, used := s.used ++ [r]
        reqs := s.reqs.set r { req with resp := hdr }, written := s.written ++ [(r, hdr)]
        irq := s.irq || s.cbEnabled }
  | interrupt : s.irq = true → s.cb = .idle →
      KernelStep s .interrupt { s with irq := false, cb := .disableCb }
  | disableCb : s.cb = .disableCb →
      KernelStep s .cb { s with cbEnabled := false, cb := .scheduleWork }
  | scheduleWork : s.cb = .scheduleWork →
      KernelStep s .cb { s with workScheduled := true, cb := .idle }
  | startWork : s.workScheduled = true → s.worker = .idle →
      KernelStep s .startWork { s with workScheduled := false, worker := .lock }
  | worker {s' : KernelState} : s.workerStep = some s' → KernelStep s .worker s'

theorem KernelState.step_cases {s s' : KernelState} {a : KernelAct} (h : s.step a = some s') :
    KernelStep s a s' := by
  cases a with
  | uringCmd ureq => cases h; exact .uringCmd ureq
  | issue r out => exact .issue h
  | complete r hdr =>
    simp only [KernelState.step] at h
    split at h
    · cases h
    · next hr =>
      split at h
      · next hmem =>
        cases h
        exact .complete hr hmem
      · cases h
  | interrupt =>
    simp only [KernelState.step] at h
    split at h
    · next hirq =>
      cases h
      exact .interrupt hirq.1 hirq.2
    · cases h
  | cb =>
    simp only [KernelState.step, KernelState.cbStep] at h
    split at h
    · cases h
    · next hcb =>
      cases h
      exact .disableCb hcb
    · next hcb =>
      cases h
      exact .scheduleWork hcb
  | startWork =>
    simp only [KernelState.step] at h
    split at h
    · next hsched =>
      cases h
      exact .startWork hsched.1 hsched.2
    · cases h
  | worker => exact .worker h

end Deepspan
