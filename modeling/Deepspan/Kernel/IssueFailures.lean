import Deepspan.Kernel.OutBuf

/-!
# How `deepspan_uring_cmd_issue` fails

One call of `deepspan_uring_cmd_issue` from beginning to end, on a device as
`deepspan_virtio_probe` leaves it: the XArray of pending requests, the TX virtqueue and the
live allocations. `issue_simulated` ties the call to the steps of `kernelSystem`.

Every failure is unwound completely, whatever the state of the device (`issue_restores`). But
the probe initialises the array with `xa_init`, without `XA_FLAGS_ALLOC`, and `xa_alloc`
refuses such an array with `-EINVAL`. So no call ever comes as far as the virtqueue, and
`issue_failures_iff` says which calls fail for a reason that the driver foresees.
-/

namespace Deepspan

open Transition

/-! ## The XArray -/

/-- An `xarray`; `trackFree` is `XA_FLAGS_ALLOC`. -/
structure XArray where
  trackFree : Bool
  entries : Nat → Option Nat

/-- `xa_init`: `xa_init_flags` with the flags 0. -/
def xaInit : XArray := ⟨false, fun _ => none⟩

/-- `xa_alloc` with the limit `[lo, hi]`: the lowest free index, if the array tracks them and
there is memory for its `nodes`. -/
def XArray.alloc (xa : XArray) (entry lo hi : Nat) (nodes : Bool) : Except Errno (Nat × XArray) :=
  if xa.trackFree = false then .error .einval
  else
    match (List.range' lo (hi + 1 - lo)).find? fun k => (xa.entries k).isNone with
    | none => .error .ebusy
    | some k =>
      if nodes then .ok (k, { xa with entries := xaStore xa.entries k (some entry) })
      else .error .enomem

/-- `xa_erase`. -/
def XArray.erase (xa : XArray) (k : Nat) : XArray :=
  { xa with entries := xaStore xa.entries k none }

/-! ## The device -/

/-- A buffer pair in the TX virtqueue: the request it belongs to, with its id and its
allocations, and what the device is to read. -/
structure TxBuf where
  req : Nat
  reqId : Nat
  buf : Nat
  resp : Nat
  out : List UInt8

structure Device where
  pending : XArray
  tx : List TxBuf
  live : List Nat

namespace Device

def kzalloc (d : Device) (p : Nat) : Device := { d with live := p :: d.live }

def kfree (d : Device) (p : Nat) : Device := { d with live := d.live.erase p }

/-! The unwind labels, each falling through to the next. -/

def errFreeReq (d : Device) (req : Nat) : Device := d.kfree req

def errFreeBuf (d : Device) (req buf : Nat) : Device := (d.kfree buf).errFreeReq req

def errFreeResp (d : Device) (req buf resp : Nat) : Device := (d.kfree resp).errFreeBuf req buf

def errXaErase (d : Device) (req buf resp reqId : Nat) : Device :=
  { d with pending := d.pending.erase reqId }.errFreeResp req buf resp

end Device

/-- `deepspan_virtio_probe`, up to the device that calls work on; `ddev` is what `kzalloc`
returns, `findVqs` and `cdevAdd` the errors of the functions it calls. -/
def deepspanVirtioProbe (ddev : Option Nat) (findVqs cdevAdd : Option Errno) :
    Except Errno Device :=
  match ddev with
  | none => .error .enomem
  | some p =>
    let d : Device := { pending := xaInit, tx := [], live := [p] }
    match findVqs with
    | some e => .error e
    | none =>
      match cdevAdd with
      | some e => .error e
      | none => .ok d

/-! ## One call -/

/-- What the functions that a call uses do: the pointers that `kzalloc` returns, what
`copy_from_user` copies, whether there is memory for the XArray, and the error of
`virtqueue_add_sgs`. -/
structure IssueEnv where
  req : Option Nat
  buf : Option Nat
  resp : Option Nat
  copy : Option (List UInt8)
  nodes : Bool
  addSgs : Option Errno

/-- The function whose failure makes a call unwind. -/
inductive IssueFailure where
  | kzalloc
  | copyFromUser
  | xaAlloc (e : Errno)
  | virtqueueAddSgs (e : Errno)
deriving DecidableEq, Repr

/-- What the call returns then. -/
def IssueFailure.errno : IssueFailure → Errno
  | .kzalloc => .enomem
  | .copyFromUser => .efault
  | .xaAlloc e | .virtqueueAddSgs e => e

/-- `deepspan_uring_cmd_issue`; `.ok` is `-EIOCBQUEUED`. -/
def deepspanUringCmdIssue (d : Device) (u : CmdReq) (env : IssueEnv) :
    Except IssueFailure Unit × Device :=
  match env.req with
  | none => (.error .kzalloc, d)
  | some req =>
    let d := d.kzalloc req
    match env.buf with
    | none => (.error .kzalloc, d.errFreeReq req)
    | some buf =>
      let d := d.kzalloc buf
      match env.resp with
      | none => (.error .kzalloc, d.errFreeBuf req buf)
      | some resp =>
        let d := d.kzalloc resp
        if u.HasPayload ∧ env.copy = none then
          (.error .copyFromUser, d.errFreeResp req buf resp)
        else
          match d.pending.alloc req 1 deepspanMaxRequests env.nodes with
          | .error e => (.error (.xaAlloc e), d.errFreeResp req buf resp)
          | .ok (reqId, pending) =>
            let d := { d with pending := pending }
            match env.addSgs with
            | some e => (.error (.virtqueueAddSgs e), d.errXaErase req buf resp reqId)
            | none =>
              let out := u.outBuf (env.copy.getD [])
              (.ok (), { d with tx := d.tx ++ [⟨req, reqId, buf, resp, out⟩] })

/-! ## The runs of a device -/

inductive DeviceAct where
  | uringCmd (u : CmdReq) (env : IssueEnv)
  | complete (i : Nat)

/-- A call, or the device and the work item finish the `i`-th buffer of the virtqueue. -/
def deviceStep (d : Device) : DeviceAct → Option Device
  | .uringCmd u env => some (deepspanUringCmdIssue d u env).2
  | .complete i =>
    (d.tx[i]?).map fun b =>
      { d with tx := d.tx.eraseIdx i }.errXaErase b.req b.buf b.resp b.reqId

def deviceSystem : System Device DeviceAct where
  init d := ∃ ddev findVqs cdevAdd, deepspanVirtioProbe ddev findVqs cdevAdd = .ok d
  step := deviceStep

/-! ## What `xa_alloc` can do -/

theorem alloc_error_cases {xa : XArray} {entry lo hi : Nat} {nodes : Bool} {e : Errno}
    (h : xa.alloc entry lo hi nodes = .error e) :
    (xa.trackFree = false ∧ e = .einval) ∨ e = .enomem ∨
      ∀ k, lo ≤ k → k ≤ hi → xa.entries k ≠ none := by
  unfold XArray.alloc at h
  split at h
  · next htrack =>
    cases h
    exact .inl ⟨htrack, rfl⟩
  · split at h
    · next hfull =>
      refine .inr (.inr fun k hlo hhi hfree => ?_)
      have hk := List.find?_eq_none.mp hfull k (List.mem_range'_1.mpr ⟨hlo, by omega⟩)
      exact hk (Option.isNone_iff_eq_none.mpr hfree)
    · split at h
      · cases h
      · cases h
        exact .inr (.inl rfl)

theorem alloc_ok_cases {xa xa' : XArray} {entry lo hi k : Nat} {nodes : Bool}
    (h : xa.alloc entry lo hi nodes = .ok (k, xa')) :
    lo ≤ k ∧ k ≤ hi ∧ xa.entries k = none ∧
      xa' = { xa with entries := xaStore xa.entries k (some entry) } := by
  unfold XArray.alloc at h
  split at h
  · cases h
  · split at h
    · cases h
    · next found hfound =>
      split at h
      · cases h
        have hrange := List.mem_range'_1.mp (List.mem_of_find?_eq_some hfound)
        exact ⟨hrange.1, by omega, by simpa using List.find?_some hfound, rfl⟩
      · cases h

theorem xaStore_self {entries : Nat → Option Nat} {k : Nat} (h : entries k = none)
    (entry : Option Nat) : xaStore (xaStore entries k entry) k none = entries := by
  funext j
  unfold xaStore
  split
  · next hj => rw [hj, h]
  · rfl

/-! ## The unwind ladder -/

theorem kfree_kzalloc (d : Device) (p : Nat) : (d.kzalloc p).kfree p = d := by
  simp [Device.kfree, Device.kzalloc]

theorem errFreeReq_kzalloc (d : Device) (req : Nat) : (d.kzalloc req).errFreeReq req = d :=
  kfree_kzalloc d req

theorem errFreeBuf_kzalloc (d : Device) (req buf : Nat) :
    ((d.kzalloc req).kzalloc buf).errFreeBuf req buf = d := by
  rw [Device.errFreeBuf, kfree_kzalloc, errFreeReq_kzalloc]

theorem errFreeResp_kzalloc (d : Device) (req buf resp : Nat) :
    (((d.kzalloc req).kzalloc buf).kzalloc resp).errFreeResp req buf resp = d := by
  rw [Device.errFreeResp, kfree_kzalloc, errFreeBuf_kzalloc]

/-- What a call can come to. A failure leaves the device as it was. -/
inductive IssueCase (d : Device) (u : CmdReq) (env : IssueEnv) :
    Except IssueFailure Unit × Device → Prop
  | noMemory : env.req = none ∨ env.buf = none ∨ env.resp = none →
      IssueCase d u env (.error .kzalloc, d)
  | copyFault {req buf resp : Nat} : env.req = some req → env.buf = some buf →
      env.resp = some resp → u.HasPayload → env.copy = none →
      IssueCase d u env (.error .copyFromUser, d)
  | noId {req buf resp : Nat} {e : Errno} : env.req = some req → env.buf = some buf →
      env.resp = some resp → ¬(u.HasPayload ∧ env.copy = none) →
      d.pending.alloc req 1 deepspanMaxRequests env.nodes = .error e →
      IssueCase d u env (.error (.xaAlloc e), d)
  | refused {req buf resp reqId : Nat} {pending : XArray} {e : Errno} : env.req = some req →
      env.buf = some buf → env.resp = some resp → ¬(u.HasPayload ∧ env.copy = none) →
      d.pending.alloc req 1 deepspanMaxRequests env.nodes = .ok (reqId, pending) →
      env.addSgs = some e → IssueCase d u env (.error (.virtqueueAddSgs e), d)
  | queued {req buf resp reqId : Nat} {pending : XArray} : env.req = some req →
      env.buf = some buf → env.resp = some resp → ¬(u.HasPayload ∧ env.copy = none) →
      d.pending.alloc req 1 deepspanMaxRequests env.nodes = .ok (reqId, pending) →
      env.addSgs = none →
      IssueCase d u env (.ok (),
        { pending := pending
          tx := d.tx ++ [⟨req, reqId, buf, resp, u.outBuf (env.copy.getD [])⟩]
          live := resp :: buf :: req :: d.live })

theorem issue_cases (d : Device) (u : CmdReq) (env : IssueEnv) :
    IssueCase d u env (deepspanUringCmdIssue d u env) := by
  unfold deepspanUringCmdIssue
  cases hreq : env.req with
  | none => exact .noMemory (.inl hreq)
  | some req =>
    cases hbuf : env.buf with
    | none =>
      simp only [errFreeReq_kzalloc]
      exact .noMemory (.inr (.inl hbuf))
    | some buf =>
      cases hresp : env.resp with
      | none =>
        simp only [errFreeBuf_kzalloc]
        exact .noMemory (.inr (.inr hresp))
      | some resp =>
        simp only [errFreeResp_kzalloc]
        split
        · next hfault => exact .copyFault hreq hbuf hresp hfault.1 hfault.2
        · next hcopied =>
          split
          · next e herr => exact .noId hreq hbuf hresp hcopied herr
          · next reqId pending hok =>
            cases hadd : env.addSgs with
            | none => exact .queued hreq hbuf hresp hcopied hok hadd
            | some e =>
              obtain ⟨_, _, hfree, hstore⟩ := alloc_ok_cases hok
              have herase : pending.erase reqId = d.pending := by
                rw [hstore, XArray.erase]
                exact congrArg (XArray.mk d.pending.trackFree) (xaStore_self hfree _)
              simp only [Device.errXaErase, herase]
              have hladder := errFreeResp_kzalloc d req buf resp
              refine Eq.subst (motive := fun d' => IssueCase d u env
                (.error (.virtqueueAddSgs e), d')) hladder.symm ?_
              exact .refused hreq hbuf hresp hcopied hok hadd

/-- Every failure is unwound completely. -/
theorem issue_restores {d : Device} {u : CmdReq} {env : IssueEnv} {f : IssueFailure}
    (h : (deepspanUringCmdIssue d u env).1 = .error f) : (deepspanUringCmdIssue d u env).2 = d := by
  have hcase := issue_cases d u env
  generalize deepspanUringCmdIssue d u env = result at h hcase ⊢
  cases hcase with
  | noMemory _ => rfl
  | copyFault _ _ _ _ _ => rfl
  | noId _ _ _ _ _ => rfl
  | refused _ _ _ _ _ _ => rfl
  | queued _ _ _ _ _ _ => cases h

/-- The failures that are foreseen: of an allocation, `xa_alloc`'s own included, of the copy, of
`virtqueue_add_sgs`, or for want of a free id. -/
def IssueFailure.Foreseen (d : Device) (f : IssueFailure) : Prop :=
  f = .kzalloc ∨ f = .copyFromUser ∨ f = .xaAlloc .enomem ∨ (∃ e, f = .virtqueueAddSgs e) ∨
    ∀ k, 1 ≤ k → k ≤ deepspanMaxRequests → d.pending.entries k ≠ none

/-- A call fails for a foreseen reason only, and leaves nothing behind. -/
structure FailsCleanly (d : Device) (u : CmdReq) (env : IssueEnv) : Prop where
  foreseen : ∀ f, (deepspanUringCmdIssue d u env).1 = .error f → f.Foreseen d
  restored : ∀ f, (deepspanUringCmdIssue d u env).1 = .error f →
    (deepspanUringCmdIssue d u env).2 = d

/-- With an array that has `XA_FLAGS_ALLOC`, every call does. -/
theorem failsCleanly_of_trackFree {d : Device} (h : d.pending.trackFree = true) (u : CmdReq)
    (env : IssueEnv) : FailsCleanly d u env := by
  refine ⟨fun f hf => ?_, fun f hf => issue_restores hf⟩
  have hcase := issue_cases d u env
  generalize deepspanUringCmdIssue d u env = result at hf hcase
  cases hcase with
  | noMemory _ =>
    cases hf
    exact .inl rfl
  | copyFault _ _ _ _ _ =>
    cases hf
    exact .inr (.inl rfl)
  | noId _ _ _ _ herr =>
    cases hf
    rcases alloc_error_cases herr with ⟨hno, _⟩ | rfl | hfull
    · rw [h] at hno
      cases hno
    · exact .inr (.inr (.inl rfl))
    · exact .inr (.inr (.inr (.inr hfull)))
  | refused _ _ _ _ _ _ =>
    cases hf
    exact .inr (.inr (.inr (.inl ⟨_, rfl⟩)))
  | queued _ _ _ _ _ _ => cases hf

/-! ## The device that the probe has set up -/

theorem probe_pending {ddev : Option Nat} {findVqs cdevAdd : Option Errno} {d : Device}
    (h : deepspanVirtioProbe ddev findVqs cdevAdd = .ok d) : d.pending = xaInit ∧ d.tx = [] := by
  unfold deepspanVirtioProbe at h
  split at h
  · cases h
  · dsimp only at h
    split at h
    · cases h
    · split at h
      · cases h
      · cases h
        exact ⟨rfl, rfl⟩

/-- On the array of `xa_init` every call fails. -/
theorem issue_xaInit {d : Device} (h : d.pending = xaInit) (u : CmdReq) (env : IssueEnv) :
    ∃ f, (deepspanUringCmdIssue d u env).1 = .error f := by
  have hcase := issue_cases d u env
  generalize deepspanUringCmdIssue d u env = result at hcase ⊢
  cases hcase with
  | noMemory _ => exact ⟨_, rfl⟩
  | copyFault _ _ _ _ _ => exact ⟨_, rfl⟩
  | noId _ _ _ _ _ => exact ⟨_, rfl⟩
  | refused _ _ _ _ _ _ => exact ⟨_, rfl⟩
  | queued _ _ _ _ hok _ =>
    rw [h] at hok
    cases hok

/-- So the array stays as the probe has left it, and nothing is ever queued. -/
theorem reach_xaInit {d : Device} (h : Reach deviceSystem (fun _ _ => True) d) :
    d.pending = xaInit ∧ d.tx = [] := by
  refine h.invariant (P := fun d => d.pending = xaInit ∧ d.tx = []) ?_ ?_
  · rintro d ⟨ddev, findVqs, cdevAdd, hprobe⟩
    exact probe_pending hprobe
  · rintro d a d' ⟨hpending, htx⟩ _ hs
    cases a with
    | uringCmd u env =>
      obtain ⟨f, hf⟩ := issue_xaInit hpending u env
      cases hs
      rw [issue_restores hf]
      exact ⟨hpending, htx⟩
    | complete i =>
      simp only [deviceSystem, deviceStep, htx, List.getElem?_nil, Option.map_none] at hs
      cases hs

/-- A call on a probed device fails for a foreseen reason, and leaves nothing behind, exactly
when it fails before it comes to `xa_alloc`: an allocation fails, or the copy does. -/
theorem issue_failures_iff {d : Device} (h : Reach deviceSystem (fun _ _ => True) d) (u : CmdReq)
    (env : IssueEnv) :
    FailsCleanly d u env ↔ env.req = none ∨ env.buf = none ∨ env.resp = none ∨
      (u.HasPayload ∧ env.copy = none) := by
  have hpending := (reach_xaInit h).1
  have hcase := issue_cases d u env
  constructor
  · intro hclean
    have hforeseen := hclean.foreseen
    generalize deepspanUringCmdIssue d u env = result at hforeseen hcase
    cases hcase with
    | noMemory hnone =>
      rcases hnone with hnone | hnone | hnone
      · exact .inl hnone
      · exact .inr (.inl hnone)
      · exact .inr (.inr (.inl hnone))
    | copyFault _ _ _ hpay hcopy => exact .inr (.inr (.inr ⟨hpay, hcopy⟩))
    | noId _ _ _ _ herr =>
      -- here the array refuses to give ids at all, while every id is free
      exfalso
      rw [hpending] at herr
      cases herr
      rcases hforeseen _ rfl with hf | hf | hf | ⟨_, hf⟩ | hfull
      · cases hf
      · cases hf
      · cases hf
      · cases hf
      · exact hfull 1 (Nat.le_refl _) (by decide) (by rw [hpending]; rfl)
    | refused _ _ _ _ hok _ =>
      rw [hpending] at hok
      cases hok
    | queued _ _ _ _ hok _ =>
      rw [hpending] at hok
      cases hok
  · intro hearly
    refine ⟨fun f hf => ?_, fun f hf => issue_restores hf⟩
    generalize deepspanUringCmdIssue d u env = result at hf hcase
    cases hcase with
    | noMemory _ =>
      cases hf
      exact .inl rfl
    | copyFault _ _ _ _ _ =>
      cases hf
      exact .inr (.inl rfl)
    | noId hreq hbuf hresp hcopied _ => simp [hreq, hbuf, hresp, hcopied] at hearly
    | refused hreq hbuf hresp hcopied _ _ => simp [hreq, hbuf, hresp, hcopied] at hearly
    | queued hreq hbuf hresp hcopied _ _ => simp [hreq, hbuf, hresp, hcopied] at hearly

/-- A device right after the probe. -/
def probedDevice : Device := ⟨xaInit, [], [1]⟩

theorem reach_probedDevice : Reach deviceSystem (fun _ _ => True) probedDevice :=
  .init ⟨some 1, none, none, rfl⟩

/-- A command without a payload. -/
def inlineCmd : CmdReq := ⟨1, 0, 0, 0, 0⟩

/-- The second allocation fails. -/
theorem issue_failures_noMemory :
    FailsCleanly probedDevice inlineCmd ⟨some 2, none, some 4, some [], true, none⟩ :=
  (issue_failures_iff reach_probedDevice _ _).mpr (.inr (.inl rfl))

/-- On a fresh device, with memory for everything and an empty virtqueue, the command fails
with `-EINVAL`. -/
theorem issue_failures_einval :
    Reach deviceSystem (fun _ _ => True) probedDevice ∧
    deepspanUringCmdIssue probedDevice inlineCmd ⟨some 2, some 3, some 4, some [], true, none⟩ =
      (.error (.xaAlloc .einval), probedDevice) ∧
    IssueFailure.errno (.xaAlloc .einval) = .einval ∧
    ¬FailsCleanly probedDevice inlineCmd ⟨some 2, some 3, some 4, some [], true, none⟩ := by
  refine ⟨reach_probedDevice, rfl, rfl, ?_⟩
  intro h
  rcases h.foreseen (.xaAlloc .einval) rfl with hf | hf | hf | ⟨_, hf⟩ | hfull
  · cases hf
  · cases hf
  · cases hf
  · cases hf
  · exact hfull 1 (Nat.le_refl _) (by decide) rfl

/-! ## The call as steps of the driver -/

/-- The steps that call `r` takes on its own. -/
def OnlyIssue (r : Nat) (_ : KernelState) (a : KernelAct) : Prop := ∃ out, a = .issue r out

section Simulation

variable {s0 s : KernelState} {r : Nat} {p q : Request} {o : Outcome}

theorem issueStep_own (hr : s.reqs[r]? = some p) (h : p.localStep o = some q) :
    s.issueStep r o = some { s with reqs := s.reqs.set r q } := by
  unfold KernelState.issueStep
  simp only [hr]
  split
  all_goals first
    | rw [h]
      rfl
    | next hpc => simp [Request.localStep, hpc] at h

/-- A call that has come to `p` takes a step that touches its own request only. -/
theorem reach_own (hlt : r < s.reqs.length)
    (h : Reach (kernelSystem.startedAt s0) (OnlyIssue r) { s with reqs := s.reqs.set r p })
    (hlocal : p.localStep o = some q) :
    Reach (kernelSystem.startedAt s0) (OnlyIssue r) { s with reqs := s.reqs.set r q } := by
  refine .step h ⟨o, rfl⟩ ?_
  have hstep := issueStep_own (s := { s with reqs := s.reqs.set r p })
    (List.getElem?_set_self hlt) hlocal
  simp only [List.set_set] at hstep
  exact hstep

theorem reach_errFreeReq {e : Errno} (hlt : r < s.reqs.length)
    (h : Reach (kernelSystem.startedAt s0) (OnlyIssue r)
      { s with reqs := s.reqs.set r { p with pc := .freeReq e } }) :
    Reach (kernelSystem.startedAt s0) (OnlyIssue r)
      { s with reqs := s.reqs.set r { p with pc := .returned (some e) } } :=
  reach_own (o := .ok) hlt h rfl

theorem reach_errFreeBuf {e : Errno} (hlt : r < s.reqs.length)
    (h : Reach (kernelSystem.startedAt s0) (OnlyIssue r)
      { s with reqs := s.reqs.set r { p with pc := .freeBuf e } }) :
    Reach (kernelSystem.startedAt s0) (OnlyIssue r)
      { s with reqs := s.reqs.set r { p with pc := .returned (some e) } } :=
  reach_errFreeReq hlt (reach_own (o := .ok) hlt h rfl)

theorem reach_errFreeResp {e : Errno} (hlt : r < s.reqs.length)
    (h : Reach (kernelSystem.startedAt s0) (OnlyIssue r)
      { s with reqs := s.reqs.set r { p with pc := .freeResp e } }) :
    Reach (kernelSystem.startedAt s0) (OnlyIssue r)
      { s with reqs := s.reqs.set r { p with pc := .returned (some e) } } :=
  reach_errFreeBuf hlt (reach_own (o := .ok) hlt h rfl)

/-- The call has returned `ret`, with these pending requests and these buffers queued. -/
structure IssueEnds (s0 : KernelState) (r : Nat) (ret : Option Errno)
    (pending : Nat → Option Nat) (avail : List Nat) (s' : KernelState) : Prop where
  reach : Reach (kernelSystem.startedAt s0) (OnlyIssue r) s'
  ret : (s'.reqs[r]?).map (·.pc) = some (.returned ret)
  pending : s'.pending = pending
  avail : s'.avail = avail
  lock : s'.lock = s0.lock

theorem issueEnds_own {ret : Option Errno} (hlt : r < s.reqs.length)
    (h : Reach (kernelSystem.startedAt s) (OnlyIssue r)
      { s with reqs := s.reqs.set r { p with pc := .returned ret } }) :
    IssueEnds s r ret s.pending s.avail
      { s with reqs := s.reqs.set r { p with pc := .returned ret } } where
  reach := h
  ret := by
    show ((s.reqs.set r _)[r]?).map _ = _
    rw [List.getElem?_set_self hlt]
    rfl
  pending := rfl
  avail := rfl
  lock := rfl

theorem reach_fresh {u : CmdReq} (hr : s.reqs[r]? = some (.fresh u)) :
    Reach (kernelSystem.startedAt s) (OnlyIssue r)
      { s with reqs := s.reqs.set r { Request.fresh u with pc := .allocReq } } := by
  obtain ⟨hlt, hget⟩ := List.getElem?_eq_some_iff.mp hr
  have hself : s.reqs.set r (.fresh u) = s.reqs := by
    rw [← hget]
    exact List.set_getElem_self hlt
  show Reach _ _ { s with reqs := s.reqs.set r (.fresh u) }
  rw [hself]
  exact .init rfl

theorem reach_allocReq {u : CmdReq} (hr : s.reqs[r]? = some (.fresh u)) :
    Reach (kernelSystem.startedAt s) (OnlyIssue r)
      { s with reqs := s.reqs.set r { Request.fresh u with pc := .allocBuf } } :=
  reach_own (o := .ok) (List.getElem?_eq_some_iff.mp hr).1 (reach_fresh hr) rfl

theorem reach_allocBuf {u : CmdReq} (hr : s.reqs[r]? = some (.fresh u)) :
    Reach (kernelSystem.startedAt s) (OnlyIssue r)
      { s with reqs := s.reqs.set r { Request.fresh u with pc := .allocResp } } :=
  reach_own (o := .ok) (List.getElem?_eq_some_iff.mp hr).1 (reach_allocReq hr) rfl

/-- The three allocations succeed. -/
theorem reach_allocated {u : CmdReq} (hr : s.reqs[r]? = some (.fresh u)) :
    Reach (kernelSystem.startedAt s) (OnlyIssue r)
      { s with reqs := s.reqs.set r { Request.fresh u with pc := .copyIn } } :=
  reach_own (o := .ok) (List.getElem?_eq_some_iff.mp hr).1 (reach_allocBuf hr) rfl

/-- The buffer has been filled. -/
theorem reach_copied {u : CmdReq} {data : List UInt8} (hr : s.reqs[r]? = some (.fresh u))
    (hpay : u.Payload data) :
    Reach (kernelSystem.startedAt s) (OnlyIssue r)
      { s with reqs := s.reqs.set r { Request.fresh u with pc := .xaAlloc, buf := u.outBuf data } } := by
  have hlt := (List.getElem?_eq_some_iff.mp hr).1
  by_cases hhas : u.HasPayload
  · have hcond : u.dataLen ≠ 0 ∧ u.dataPtr ≠ 0 ∧ data.length = u.dataLen.toNat :=
      ⟨hhas.1, hhas.2, hpay hhas⟩
    refine reach_own (o := .copied data) hlt (reach_allocated hr) ?_
    rw [CmdReq.outBuf, if_pos hhas]
    exact if_pos hcond
  · refine reach_own (o := .ok) hlt (reach_allocated hr) ?_
    rw [CmdReq.outBuf, if_neg hhas]
    exact if_neg hhas

/-- `xa_alloc` gives the id `k`, and the call takes the lock of the virtqueue. -/
theorem reach_locked {u : CmdReq} {data : List UInt8} {k : Nat}
    (hr : s.reqs[r]? = some (.fresh u)) (hpay : u.Payload data) (hlock : s.lock = none)
    (hlow : 1 ≤ k) (hhigh : k ≤ deepspanMaxRequests) (hfree : s.pending k = none) :
    Reach (kernelSystem.startedAt s) (OnlyIssue r)
      { s with
        pending := xaStore s.pending k (some r)
        lock := some (.issue r)
        reqs := s.reqs.set r
          { Request.fresh u with pc := .addSgs, buf := u.outBuf data, reqId := some k } } := by
  have hlt := (List.getElem?_eq_some_iff.mp hr).1
  have hid : Reach (kernelSystem.startedAt s) (OnlyIssue r)
      { s with
        pending := xaStore s.pending k (some r)
        reqs := s.reqs.set r
          { Request.fresh u with pc := .lockVq, buf := u.outBuf data, reqId := some k } } := by
    refine .step (reach_copied hr hpay) ⟨.id k, rfl⟩ ?_
    show KernelState.issueStep _ r (.id k) = _
    simp [KernelState.issueStep, List.getElem?_set_self hlt, hlow, hhigh, hfree]
  refine .step hid ⟨.ok, rfl⟩ ?_
  show KernelState.issueStep _ r .ok = _
  simp [KernelState.issueStep, List.getElem?_set_self hlt, hlock]

/-- `virtqueue_add_sgs` fails: the lock is given back and the id erased. -/
theorem reach_refused {u : CmdReq} {data : List UInt8} {k : Nat}
    (hr : s.reqs[r]? = some (.fresh u)) (hpay : u.Payload data) (hlock : s.lock = none)
    (hlow : 1 ≤ k) (hhigh : k ≤ deepspanMaxRequests) (hfree : s.pending k = none) (e : Errno) :
    ∃ s', IssueEnds s r (some e) s.pending s.avail s' := by
  have hlt := (List.getElem?_eq_some_iff.mp hr).1
  let given : Request := { Request.fresh u with buf := u.outBuf data, reqId := some k }
  let locked : KernelState :=
    { s with pending := xaStore s.pending k (some r), lock := some (.issue r) }
  have hfails := reach_own (s := locked) (p := { given with pc := .addSgs })
    (q := { given with pc := .unlockVq (some e) }) (o := .fails e) hlt
    (reach_locked hr hpay hlock hlow hhigh hfree) rfl
  have hunlocked : Reach (kernelSystem.startedAt s) (OnlyIssue r)
      { s with
        pending := xaStore s.pending k (some r)
        lock := none
        reqs := s.reqs.set r { given with pc := .xaErase e } } := by
    refine .step hfails ⟨.ok, rfl⟩ ?_
    show KernelState.issueStep _ r .ok = _
    simp [KernelState.issueStep, List.getElem?_set_self hlt, afterUnlock, locked]
  have herased : Reach (kernelSystem.startedAt s) (OnlyIssue r)
      { s with lock := none, reqs := s.reqs.set r { given with pc := .freeResp e } } := by
    refine .step hunlocked ⟨.ok, rfl⟩ ?_
    show KernelState.issueStep _ r .ok = _
    simp [KernelState.issueStep, List.getElem?_set_self hlt, given, xaStore_self hfree]
  rw [← hlock] at herased
  exact ⟨_, issueEnds_own hlt (reach_errFreeResp (p := given) hlt herased)⟩

/-- The buffer is queued, and the device is kicked. -/
theorem reach_queued {u : CmdReq} {data : List UInt8} {k : Nat}
    (hr : s.reqs[r]? = some (.fresh u)) (hpay : u.Payload data) (hlock : s.lock = none)
    (hlow : 1 ≤ k) (hhigh : k ≤ deepspanMaxRequests) (hfree : s.pending k = none) :
    ∃ s', IssueEnds s r none (xaStore s.pending k (some r)) (s.avail ++ [r]) s' := by
  have hlt := (List.getElem?_eq_some_iff.mp hr).1
  let given : Request := { Request.fresh u with buf := u.outBuf data, reqId := some k }
  let added : KernelState :=
    { s with
      pending := xaStore s.pending k (some r)
      lock := some (.issue r)
      avail := s.avail ++ [r] }
  have hadded : Reach (kernelSystem.startedAt s) (OnlyIssue r)
      { added with reqs := s.reqs.set r { given with pc := .kick } } := by
    refine .step (reach_locked hr hpay hlock hlow hhigh hfree) ⟨.ok, rfl⟩ ?_
    show KernelState.issueStep _ r .ok = _
    simp [KernelState.issueStep, List.getElem?_set_self hlt, given, added]
  have hkicked := reach_own (s := added) (p := { given with pc := .kick })
    (q := { given with pc := .unlockVq none }) (o := .ok) hlt hadded rfl
  have hended : Reach (kernelSystem.startedAt s) (OnlyIssue r)
      { s with
        pending := xaStore s.pending k (some r)
        avail := s.avail ++ [r]
        lock := s.lock
        reqs := s.reqs.set r { given with pc := .returned none } } := by
    refine .step hkicked ⟨.ok, rfl⟩ ?_
    show KernelState.issueStep _ r .ok = _
    simp [KernelState.issueStep, List.getElem?_set_self hlt, afterUnlock, hlock, added]
  refine ⟨_, hended, ?_, rfl, rfl, rfl⟩
  show ((s.reqs.set r _)[r]?).map _ = _
  rw [List.getElem?_set_self hlt]
  rfl

/-- The call of `deepspanUringCmdIssue` is one of the driver: from every state in which call
`r` has not begun and the lock is free, its own steps lead to a state in which it has returned
the same, with the same requests pending and the same buffers queued. -/
theorem issue_simulated {d : Device} {u : CmdReq} {env : IssueEnv}
    (hr : s.reqs[r]? = some (.fresh u)) (hlock : s.lock = none)
    (hpending : d.pending.entries = s.pending) (hqueued : d.tx.map (·.req) = s.avail)
    (hptr : ∀ p, env.req = some p → p = r) (hcopy : ∀ data, env.copy = some data → u.Payload data) :
    ∃ s', IssueEnds s r
      (match (deepspanUringCmdIssue d u env).1 with
        | .error f => some f.errno
        | .ok () => none)
      (deepspanUringCmdIssue d u env).2.pending.entries
      ((deepspanUringCmdIssue d u env).2.tx.map (·.req)) s' := by
  have hlt := (List.getElem?_eq_some_iff.mp hr).1
  have hpay : ¬(u.HasPayload ∧ env.copy = none) → u.Payload (env.copy.getD []) := by
    intro hcopied
    cases hdata : env.copy with
    | none => exact fun hhas => absurd ⟨hhas, hdata⟩ hcopied
    | some data => exact hcopy data hdata
  have hcase := issue_cases d u env
  generalize deepspanUringCmdIssue d u env = result at hcase ⊢
  cases hcase with
  | noMemory hnone =>
    rw [hpending, hqueued]
    rcases hnone with _ | _ | _
    · have hfails := reach_own (q := { Request.fresh u with pc := .returned (some .enomem) })
        (o := .fails .enomem) hlt (reach_fresh hr) rfl
      exact ⟨_, issueEnds_own hlt hfails⟩
    · have hfails := reach_own (q := { Request.fresh u with pc := .freeReq .enomem })
        (o := .fails .enomem) hlt (reach_allocReq hr) rfl
      exact ⟨_, issueEnds_own hlt (reach_errFreeReq hlt hfails)⟩
    · have hfails := reach_own (q := { Request.fresh u with pc := .freeBuf .enomem })
        (o := .fails .enomem) hlt (reach_allocBuf hr) rfl
      exact ⟨_, issueEnds_own hlt (reach_errFreeBuf hlt hfails)⟩
  | copyFault _ _ _ hhas _ =>
    have hfails := reach_own (q := { Request.fresh u with pc := .freeResp .efault })
      (o := .fails .efault) hlt (reach_allocated hr) (if_pos hhas)
    rw [hpending, hqueued]
    exact ⟨_, issueEnds_own hlt (reach_errFreeResp hlt hfails)⟩
  | @noId _ _ _ e _ _ _ hcopied _ =>
    let filled : Request := { Request.fresh u with buf := u.outBuf (env.copy.getD []) }
    have hfails := reach_own (q := { filled with pc := .freeResp e }) (o := .fails e) hlt
      (reach_copied hr (hpay hcopied)) rfl
    rw [hpending, hqueued]
    exact ⟨_, issueEnds_own hlt (reach_errFreeResp (p := filled) hlt hfails)⟩
  | @refused req _ _ reqId _ e hreq _ _ hcopied hok _ =>
    obtain ⟨hlow, hhigh, hfree, _⟩ := alloc_ok_cases hok
    rw [hpending] at hfree
    rw [hpending, hqueued]
    exact reach_refused hr (hpay hcopied) hlock hlow hhigh hfree e
  | @queued req _ _ reqId _ hreq _ _ hcopied hok _ =>
    obtain ⟨hlow, hhigh, hfree, rfl⟩ := alloc_ok_cases hok
    rw [hpending] at hfree
    obtain rfl := hptr req hreq
    rw [hpending, List.map_append, hqueued]
    exact reach_queued hr (hpay hcopied) hlock hlow hhigh hfree

end Simulation

end Deepspan
