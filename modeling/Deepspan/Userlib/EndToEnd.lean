import Deepspan.Kernel.Requests
import Deepspan.Userlib.Results

/-!
# Clients and driver together

Any number of `AsyncClient`s on one device, each with a ring of its own: the clients of
`clientSystem` and the driver of `kernelSystem`, with io_uring in between.

* io_uring calls `deepspan_uring_cmd_issue` once for every entry that `io_uring_submit` has
  passed on, at any later moment. What the driver reads as the command is left open here
  (`Sqe` says what it is).
* An error that the call returns is the result of the entry's completion, which io_uring
  posts afterwards. `-EIOCBQUEUED` posts nothing.
* `io_uring_cmd_done` posts a completion to the ring that the command came from, which the
  driver has kept in `req->cmd`.

`Joined` is what the parts know of each other: an entry with the driver is in flight in its
ring until its completion is posted, and a posted completion is the reply of the one call
that was made for it. `deliveries_right` is what this means for callbacks, whatever the
clients, the driver and the device do.
-/

namespace Deepspan

open Transition

/-- What an error is as the return value of a handler. -/
def Errno.ret : Errno → Int32
  | .enomem => -12
  | .efault => -14
  | .ebusy => -16
  | .einval => -22
  | .enospc => -28
  | .eio => -5

/-- `calls` are the client and the entry that the calls of `deepspan_uring_cmd_issue`
serve; `refused` are the calls whose error has been posted. -/
structure Machine where
  clients : List ClientState
  kernel : KernelState
  calls : List (Nat × Nat)
  refused : List Nat

inductive MachineAct where
  | create (fd ret : Int) (depth : Nat)
  | client (i : Nat) (a : ClientAct)
  | uringCmd (i r : Nat) (ureq : CmdReq)
  | kernel (a : KernelAct)
  | refuse (k : Nat)

/-- The steps that a client takes by itself. -/
def ClientAct.byUser : ClientAct → Bool
  | .post _ _ _ => false
  | _ => true

/-- The entry that call `k` serves is completed. -/
def Machine.post (m : Machine) (k : Nat) (ret : Int32) (res2 : UInt64) : Option Machine := do
  let (i, r) ← m.calls[k]?
  let c ← m.clients[i]?
  let c' ← clientStep c (.post r ret res2)
  return { m with clients := m.clients.set i c' }

def Machine.step (m : Machine) : MachineAct → Option Machine
  | .create fd ret depth =>
    match ClientState.create fd ret depth with
    | .ok c => if 0 < depth then some { m with clients := m.clients ++ [c] } else none
    | .error _ => some m
  | .client i a =>
    if a.byUser then do
      let c ← m.clients[i]?
      let c' ← clientStep c a
      return { m with clients := m.clients.set i c' }
    else none
  | .uringCmd i r ureq => do
    let c ← m.clients[i]?
    if r ∈ c.ring.inflight ∧ (i, r) ∉ m.calls then
      (m.kernel.step (.uringCmd ureq)).map fun kernel =>
        { m with kernel := kernel, calls := m.calls ++ [(i, r)] }
    else none
  | .kernel a =>
    match a, m.kernel.worker with
    | .uringCmd _, _ => none
    | .worker, .cmdDone k status res2 => do
      let kernel ← m.kernel.step .worker
      { m with kernel := kernel }.post k (Int32.ofInt status) res2
    | a, _ => (m.kernel.step a).map fun kernel => { m with kernel := kernel }
  | .refuse k =>
    match (m.kernel.reqs[k]?).map Request.pc with
    | some (.returned (some e)) =>
      if k ∈ m.refused then none else { m with refused := m.refused ++ [k] }.post k e.ret 0
    | _ => none

def machineSystem : System Machine MachineAct where
  init m := m = ⟨[], .initial, [], []⟩
  step := Machine.step

/-! ## What a step can do -/

/-- The completion of call `k` is posted to client `i`, which serves its entry `r` with it. -/
structure Machine.Posts (m : Machine) (k : Nat) (ret : Int32) (res2 : UInt64) (i r : Nat)
    (c c' : ClientState) : Prop where
  call : m.calls[k]? = some (i, r)
  client : m.clients[i]? = some c
  step : clientStep c (.post r ret res2) = some c'

theorem Machine.post_cases {m m' : Machine} {k : Nat} {ret : Int32} {res2 : UInt64}
    (h : m.post k ret res2 = some m') :
    ∃ i r c c', m.Posts k ret res2 i r c c' ∧ m' = { m with clients := m.clients.set i c' } := by
  unfold Machine.post at h
  obtain ⟨⟨i, r⟩, hcall, h⟩ := Option.bind_eq_some_iff.mp h
  obtain ⟨c, hc, h⟩ := Option.bind_eq_some_iff.mp h
  obtain ⟨c', hc', h⟩ := Option.bind_eq_some_iff.mp h
  cases h
  exact ⟨i, r, c, c', ⟨hcall, hc, hc'⟩, rfl⟩

theorem Machine.Posts.post_eq {m : Machine} {k i r : Nat} {ret : Int32} {res2 : UInt64}
    {c c' : ClientState} (h : m.Posts k ret res2 i r c c') :
    m.post k ret res2 = some { m with clients := m.clients.set i c' } := by
  simp only [Machine.post, h.call, h.client, h.step, Option.bind_eq_bind, Option.bind_some]
  rfl

inductive MachineStep (m : Machine) : MachineAct → Machine → Prop
  | created {fd ret : Int} {depth : Nat} {c : ClientState} : clientSystem.init c →
      MachineStep m (.create fd ret depth) { m with clients := m.clients ++ [c] }
  | notCreated {fd ret : Int} {depth : Nat} : MachineStep m (.create fd ret depth) m
  | client {i : Nat} {a : ClientAct} {c c' : ClientState} : a.byUser = true →
      m.clients[i]? = some c → clientStep c a = some c' →
      MachineStep m (.client i a) { m with clients := m.clients.set i c' }
  | uringCmd {i r : Nat} {ureq : CmdReq} {c : ClientState} {kernel : KernelState} :
      m.clients[i]? = some c → r ∈ c.ring.inflight → (i, r) ∉ m.calls →
      m.kernel.step (.uringCmd ureq) = some kernel →
      MachineStep m (.uringCmd i r ureq) { m with kernel := kernel, calls := m.calls ++ [(i, r)] }
  | kernel {a : KernelAct} {kernel : KernelState} : (∀ ureq, a ≠ .uringCmd ureq) →
      (∀ k status res2, a = .worker → m.kernel.worker ≠ .cmdDone k status res2) →
      m.kernel.step a = some kernel → MachineStep m (.kernel a) { m with kernel := kernel }
  | cmdDone {k : Nat} {status : Int} {res2 : UInt64} {kernel : KernelState} {i r : Nat}
      {c c' : ClientState} : m.kernel.worker = .cmdDone k status res2 →
      m.kernel.step .worker = some kernel → m.Posts k (Int32.ofInt status) res2 i r c c' →
      MachineStep m (.kernel .worker)
        { m with kernel := kernel, clients := m.clients.set i c' }
  | refuse {k : Nat} {req : Request} {e : Errno} {i r : Nat} {c c' : ClientState} :
      m.kernel.reqs[k]? = some req → req.pc = .returned (some e) → k ∉ m.refused →
      m.Posts k e.ret 0 i r c c' →
      MachineStep m (.refuse k)
        { m with refused := m.refused ++ [k], clients := m.clients.set i c' }

theorem Machine.step_cases {m m' : Machine} {a : MachineAct} (h : m.step a = some m') :
    MachineStep m a m' := by
  cases a with
  | create fd ret depth =>
    simp only [Machine.step] at h
    split at h
    · next c hcreate =>
      split at h
      · next hdepth =>
        cases h
        exact .created ⟨fd, ret, depth, hdepth, hcreate⟩
      · cases h
    · cases h
      exact .notCreated
  | client i a =>
    simp only [Machine.step] at h
    split at h
    · next huser =>
      obtain ⟨c, hc, h⟩ := Option.bind_eq_some_iff.mp h
      obtain ⟨c', hc', h⟩ := Option.bind_eq_some_iff.mp h
      cases h
      exact .client huser hc hc'
    · cases h
  | uringCmd i r ureq =>
    obtain ⟨c, hc, h⟩ := Option.bind_eq_some_iff.mp h
    split at h
    · next hr =>
      obtain ⟨kernel, hk, rfl⟩ := Option.map_eq_some_iff.mp h
      exact .uringCmd hc hr.1 hr.2 hk
    · cases h
  | kernel a =>
    simp only [Machine.step] at h
    split at h
    · cases h
    · next k status res2 hw =>
      obtain ⟨kernel, hk, h⟩ := Option.bind_eq_some_iff.mp h
      obtain ⟨i, r, c, c', hposts, rfl⟩ := Machine.post_cases h
      exact .cmdDone hw hk ⟨hposts.call, hposts.client, hposts.step⟩
    · next hcmd hdone =>
      obtain ⟨kernel, hk, rfl⟩ := Option.map_eq_some_iff.mp h
      exact .kernel (fun ureq ha => hcmd ureq ha)
        (fun k status res2 ha hw => hdone k status res2 ha hw) hk
  | refuse k =>
    simp only [Machine.step] at h
    split at h
    · next e hpc =>
      obtain ⟨req, hreq, hpc⟩ := Option.map_eq_some_iff.mp hpc
      split at h
      · cases h
      · next hnew =>
        obtain ⟨i, r, c, c', hposts, rfl⟩ := Machine.post_cases h
        exact .refuse hreq hpc hnew ⟨hposts.call, hposts.client, hposts.step⟩
    · cases h

/-! ## What a client does to its ring -/

section Ring

variable {c c' : ClientState} {a : ClientAct} {r : Nat} {ret : Int32} {res2 : UInt64}

theorem posted_submit (c : ClientState) (u : UInt64) (k : Option Nat) :
    (c.submit u k).2.ring.posted = c.ring.posted := by
  rcases submit_cases c u k with ⟨_, h⟩ | ⟨_, _, h⟩ | ⟨_, _, _, h⟩ <;> rw [h] <;> rfl

theorem inflight_submit {u : UInt64} {k : Option Nat} (hr : r ∈ c.ring.inflight) :
    r ∈ (c.submit u k).2.ring.inflight := by
  rcases submit_cases c u k with ⟨_, h⟩ | ⟨_, _, h⟩ | ⟨_, _, _, h⟩
  · rw [h]
    exact hr
  · rw [h]
    exact hr
  · rw [h]
    exact List.mem_append_left _ hr

theorem posted_handOver {d : Drain} {cqe : RingCqe} {rest : List RingCqe}
    (h : c.ring.cq = cqe :: rest) : (c.handOver d cqe rest).ring.posted = c.ring.posted :=
  QueuePair.posted_pop h

/-- By itself a client posts nothing, and takes nothing back from the kernel. -/
theorem clientStep_byUser (ha : a.byUser = true) (h : clientStep c a = some c') :
    c'.ring.posted = c.ring.posted ∧ ∀ r ∈ c.ring.inflight, r ∈ c'.ring.inflight := by
  cases clientStep_cases h with
  | submit _ | refused _ _ | accepted _ _ =>
    exact ⟨posted_submit c _ _, fun _ hr => inflight_submit hr⟩
  | waited _ hcq | peeked _ hcq => exact ⟨posted_handOver hcq, fun _ hr => hr⟩
  | reap _ | waitFailed _ | callbackReturn _ | drained _ _ => exact ⟨rfl, fun _ hr => hr⟩
  | post _ => cases ha

/-- The completion of entry `r` moves it from the entries in flight to those posted. -/
theorem clientStep_post (h : clientStep c (.post r ret res2) = some c') :
    r ∈ c.ring.inflight ∧ c'.ring.inflight = c.ring.inflight.erase r ∧
      ∃ t, c'.ring.posted = c.ring.posted ++ [⟨r, t, cmdDone c.flags ret res2⟩] := by
  obtain ⟨q, hq, rfl⟩ := Option.map_eq_some_iff.mp h
  obtain ⟨hr, t, _, rfl⟩ := QueuePair.post_cases hq
  exact ⟨hr, rfl, t, (List.append_assoc _ _ _).symm⟩

/-- An entry in flight can be completed. -/
theorem post_possible (hc : c.ring.Conserved) (hr : r ∈ c.ring.inflight) :
    ∃ c', clientStep c (.post r ret res2) = some c' := by
  obtain ⟨t, ht⟩ := hc.token_of_inflight hr
  exact ⟨_, by simp only [clientStep, QueuePair.post, if_pos hr, ht, Option.map_some]; rfl⟩

end Ring

/-! ## What the parts know of each other -/

/-- The driver's reply to call `k`: the status of its completion, or the error that the
call has returned. -/
def KernelState.Replied (s : KernelState) (k : Nat) (ret : Int32) : Prop :=
  (∃ x ∈ s.cqes, x.req = k ∧ ret = Int32.ofInt x.status) ∨
  (∃ req e, s.reqs[k]? = some req ∧ req.pc = .returned (some e) ∧ ret = e.ret)

/-- The completion of the entry that call `k` serves has been posted. -/
def Machine.Posted (m : Machine) (k : Nat) : Prop := k ∈ m.kernel.cqes.map Cqe.req ∨ k ∈ m.refused

structure Joined (m : Machine) : Prop where
  kernel : Reach kernelSystem (fun _ _ => True) m.kernel
  clients : ∀ c ∈ m.clients, Reach clientSystem (fun _ _ => True) c
  total : m.calls.length = m.kernel.reqs.length
  once : m.calls.Nodup
  refused : ∀ k ∈ m.refused, ∃ req e, m.kernel.reqs[k]? = some req ∧ req.pc = .returned (some e)
  owned : ∀ k i r, m.calls[k]? = some (i, r) → ∃ c, m.clients[i]? = some c ∧
    (m.Posted k → r ∈ c.ring.posted.map (·.req)) ∧ (¬m.Posted k → r ∈ c.ring.inflight)
  replies : ∀ i c, m.clients[i]? = some c → ∀ x ∈ c.ring.posted, ∃ k,
    m.calls[k]? = some (i, x.req) ∧ m.kernel.Replied k x.res.res

section Joined

variable {m : Machine}

/-- The driver only ever appends to the completions it has signalled, in
`io_uring_cmd_done`. -/
theorem step_cqes {s s' : KernelState} {a : KernelAct} (hs : s.step a = some s') :
    s'.cqes = s.cqes ∨ ∃ k status res2, a = .worker ∧ s.worker = .cmdDone k status res2 ∧
      s'.cqes = s.cqes ++ [⟨k, status, res2⟩] := by
  cases KernelState.step_cases hs with
  | issue hs => cases issueStep_cases hs <;> exact .inl rfl
  | worker hs =>
    cases workerStep_cases hs with
    | @cmdDone k status res2 hp => exact .inr ⟨k, status, res2, rfl, hp, rfl⟩
    | _ => exact .inl rfl
  | _ => exact .inl rfl

theorem KernelState.Replied.step {s s' : KernelState} {a : KernelAct} {k : Nat} {ret : Int32}
    (h : s.Replied k ret) (hs : s.step a = some s') : s'.Replied k ret := by
  rcases h with ⟨x, hx, hk⟩ | ⟨req, e, hreq, hpc, hret⟩
  · refine .inl ⟨x, ?_, hk⟩
    rcases step_cqes hs with hsame | ⟨_, _, _, _, _, hadd⟩
    · exact hsame ▸ hx
    · exact hadd ▸ List.mem_append_left _ hx
  · obtain ⟨req', hreq', hpc'⟩ := returned_step ⟨req, hreq, hpc⟩ hs
    exact .inr ⟨req', e, hreq', hpc', hret⟩

/-- Only io_uring adds calls. -/
theorem step_reqs_length {s s' : KernelState} {a : KernelAct} (ha : ∀ ureq, a ≠ .uringCmd ureq)
    (hs : s.step a = some s') : s'.reqs.length = s.reqs.length := by
  cases KernelState.step_cases hs with
  | uringCmd ureq => exact absurd rfl (ha ureq)
  | issue hs =>
    obtain ⟨_, _, _, hreqs, _⟩ := issueStep_reqs hs
    rw [hreqs, List.length_set]
  | complete hr hmem => exact List.length_set
  | worker hs => rw [workerStep_reqs hs]
  | _ => rfl

/-- A call whose completion is posted has been made. -/
theorem Joined.posted_lt (h : Joined m) {k : Nat} (hk : m.Posted k) : k < m.kernel.reqs.length := by
  have hentry : m.kernel.reqs[k]? ≠ none := by
    rcases hk with hk | hk
    · obtain ⟨x, hx, rfl⟩ := List.mem_map.mp hk
      have haud := reach_audited h.kernel
      have hq := haud.books.queued_of_popped (haud.books.mem_popped_of_done (mem_books_done hx))
      intro hnone
      simp [KernelState.books, queuedAt, hnone] at hq
    · obtain ⟨req, _, hreq, _⟩ := h.refused k hk
      simp [hreq]
  exact Nat.lt_of_not_le fun hle => hentry (List.getElem?_eq_none hle)

theorem joined_create (h : Joined m) {c : ClientState} (hc : clientSystem.init c) :
    Joined { m with clients := m.clients ++ [c] } := by
  refine { h with clients := ?_, owned := ?_, replies := ?_ }
  · intro x hx
    rcases List.mem_append.mp hx with hx | hx
    · exact h.clients x hx
    · cases List.mem_singleton.mp hx
      exact .init hc
  · intro k i r hk
    obtain ⟨x, hx, hposted⟩ := h.owned k i r hk
    refine ⟨x, ?_, hposted⟩
    rw [List.getElem?_append_left (List.getElem?_eq_some_iff.mp hx).1]
    exact hx
  · intro i x hx y hy
    rcases getElem?_concat_cases hx with hx | ⟨_, rfl⟩
    · exact h.replies i x hx y hy
    · obtain ⟨depth, rfl⟩ := clientSystem_init hc
      cases hy

theorem joined_client (h : Joined m) {i : Nat} {a : ClientAct} {c c' : ClientState}
    (ha : a.byUser = true) (hc : m.clients[i]? = some c) (hs : clientStep c a = some c') :
    Joined { m with clients := m.clients.set i c' } := by
  obtain ⟨hposted, hinflight⟩ := clientStep_byUser ha hs
  refine { h with clients := ?_, owned := ?_, replies := ?_ }
  · intro x hx
    rcases List.mem_or_eq_of_mem_set hx with hx | rfl
    · exact h.clients x hx
    · exact .step (h.clients c (List.mem_of_getElem? hc)) trivial hs
  · intro k j r hk
    obtain ⟨x, hx, hdone, hopen⟩ := h.owned k j r hk
    rcases Nat.decEq j i with hji | rfl
    · exact ⟨x, getElem?_set_of_ne hji hx, hdone, hopen⟩
    · cases hc.symm.trans hx
      refine ⟨c', getElem?_set_self_of hc, ?_, ?_⟩
      · rw [hposted]
        exact hdone
      · exact fun hk => hinflight r (hopen hk)
  · intro j x hx y hy
    rcases getElem?_set_cases hc hx with ⟨rfl, rfl⟩ | ⟨_, hx⟩
    · rw [hposted] at hy
      exact h.replies j c hc y hy
    · exact h.replies j x hx y hy

/-- io_uring makes call number `m.calls.length` for an entry of client `i`. -/
theorem joined_uringCmd (h : Joined m) {i r : Nat} {ureq : CmdReq} {c : ClientState}
    {kernel : KernelState} (hc : m.clients[i]? = some c) (hr : r ∈ c.ring.inflight)
    (hnew : (i, r) ∉ m.calls) (hs : m.kernel.step (.uringCmd ureq) = some kernel) :
    Joined { m with kernel := kernel, calls := m.calls ++ [(i, r)] } := by
  cases hs
  refine
    { kernel := .step (a := .uringCmd ureq) h.kernel trivial rfl
      clients := h.clients
      total := ?_
      once := ?_
      refused := ?_
      owned := ?_
      replies := ?_ }
  · rw [List.length_append, List.length_append, h.total]
    rfl
  · have honce := h.once.concat hnew
    rwa [List.concat_eq_append] at honce
  · intro k hk
    obtain ⟨req, e, hreq, hpc⟩ := h.refused k hk
    obtain ⟨req', hreq', hpc'⟩ := returned_step (a := .uringCmd ureq) ⟨req, hreq, hpc⟩ rfl
    exact ⟨req', e, hreq', hpc'⟩
  · intro k j n hk
    rcases getElem?_concat_cases hk with hk | ⟨rfl, hcall⟩
    · exact h.owned k j n hk
    · cases hcall
      refine ⟨c, hc, fun hposted => ?_, fun _ => hr⟩
      have hlt := h.posted_lt hposted
      rw [← h.total] at hlt
      exact absurd hlt (Nat.lt_irrefl _)
  · intro j x hx y hy
    obtain ⟨k, hk, hreply⟩ := h.replies j x hx y hy
    refine ⟨k, ?_, hreply.step (a := .uringCmd ureq) rfl⟩
    rw [List.getElem?_append_left (List.getElem?_eq_some_iff.mp hk).1]
    exact hk

/-- The driver takes a step that signals nothing. -/
theorem joined_kernel (h : Joined m) {a : KernelAct} {kernel : KernelState}
    (ha : ∀ ureq, a ≠ .uringCmd ureq)
    (hquiet : ∀ k status res2, a = .worker → m.kernel.worker ≠ .cmdDone k status res2)
    (hs : m.kernel.step a = some kernel) : Joined { m with kernel := kernel } := by
  have hcqes : kernel.cqes = m.kernel.cqes := by
    rcases step_cqes hs with hsame | ⟨k, status, res2, rfl, hw, _⟩
    · exact hsame
    · exact absurd hw (hquiet k status res2 rfl)
  have hposted (k : Nat) : { m with kernel := kernel }.Posted k ↔ m.Posted k := by
    rw [Machine.Posted, Machine.Posted, hcqes]
  refine { h with kernel := .step h.kernel trivial hs, total := ?_, refused := ?_,
                  owned := ?_, replies := ?_ }
  · rw [step_reqs_length ha hs]
    exact h.total
  · intro k hk
    obtain ⟨req, e, hreq, hpc⟩ := h.refused k hk
    obtain ⟨req', hreq', hpc'⟩ := returned_step ⟨req, hreq, hpc⟩ hs
    exact ⟨req', e, hreq', hpc'⟩
  · intro k i r hk
    rw [hposted]
    exact h.owned k i r hk
  · intro i x hx y hy
    obtain ⟨k, hk, hreply⟩ := h.replies i x hx y hy
    exact ⟨k, hk, hreply.step hs⟩

/-- The completion of call `k`, which had none, is posted with the driver's reply. -/
theorem joined_post (h : Joined m) {k i r : Nat} {ret : Int32} {res2 : UInt64}
    {c c' : ClientState} (hp : m.Posts k ret res2 i r c c') (hk : ¬m.Posted k)
    {kernel : KernelState} {refused : List Nat}
    (hkernel : Reach kernelSystem (fun _ _ => True) kernel)
    (hlen : kernel.reqs.length = m.kernel.reqs.length)
    (hrefused : ∀ j ∈ refused, ∃ req e, kernel.reqs[j]? = some req ∧ req.pc = .returned (some e))
    (hposted : ∀ j, (⟨m.clients, kernel, m.calls, refused⟩ : Machine).Posted j ↔ m.Posted j ∨ j = k)
    (hmono : ∀ j v, m.kernel.Replied j v → kernel.Replied j v) (hreply : kernel.Replied k ret) :
    Joined ⟨m.clients.set i c', kernel, m.calls, refused⟩ := by
  obtain ⟨hr, hinflight, t, hpost⟩ := clientStep_post hp.step
  have hdone (j : Nat) : (⟨m.clients.set i c', kernel, m.calls, refused⟩ : Machine).Posted j ↔
      m.Posted j ∨ j = k := hposted j
  refine
    { kernel := hkernel
      clients := ?_
      total := h.total.trans hlen.symm
      once := h.once
      refused := hrefused
      owned := ?_
      replies := ?_ }
  · intro x hx
    rcases List.mem_or_eq_of_mem_set hx with hx | rfl
    · exact h.clients x hx
    · have hreach := h.clients c (List.mem_of_getElem? hp.client)
      exact .step (a := .post r ret res2) hreach trivial hp.step
  · intro j i' r' hj
    rw [hdone]
    obtain ⟨x, hx, hin, hout⟩ := h.owned j i' r' hj
    rcases Nat.decEq i' i with hne | rfl
    · refine ⟨x, getElem?_set_of_ne hne hx, ?_, fun hno => hout fun hj => hno (.inl hj)⟩
      rintro (hj' | rfl)
      · exact hin hj'
      · cases hj.symm.trans hp.call
        exact absurd rfl hne
    · cases hp.client.symm.trans hx
      refine ⟨c', getElem?_set_self_of hp.client, ?_, ?_⟩
      · rw [hpost, List.map_append]
        rintro (hj' | rfl)
        · exact List.mem_append_left _ (hin hj')
        · cases hj.symm.trans hp.call
          exact List.mem_append_right _ (List.mem_singleton_self r)
      · intro hno
        have hjk : j ≠ k := fun hjk => hno (.inr hjk)
        have hne : r' ≠ r := by
          rintro rfl
          exact hjk ((List.getElem?_inj (List.getElem?_eq_some_iff.mp hj).1 h.once).mp
            (hj.trans hp.call.symm))
        rw [hinflight]
        exact (List.mem_erase_of_ne hne).mpr (hout fun hj => hno (.inl hj))
  · intro j x hx y hy
    rcases getElem?_set_cases hp.client hx with ⟨rfl, rfl⟩ | ⟨_, hx⟩
    · rw [hpost] at hy
      rcases List.mem_append.mp hy with hy | hy
      · obtain ⟨n, hn, hrep⟩ := h.replies j c hp.client y hy
        exact ⟨n, hn, hmono n _ hrep⟩
      · cases List.mem_singleton.mp hy
        exact ⟨k, hp.call, hreply⟩
    · obtain ⟨n, hn, hrep⟩ := h.replies j x hx y hy
      exact ⟨n, hn, hmono n _ hrep⟩

/-- A call that `io_uring_cmd_done` is about to be called for has no completion. -/
theorem Joined.cmdDone_new (h : Joined m) {k : Nat} {status : Int} {res2 : UInt64}
    (hw : m.kernel.worker = .cmdDone k status res2) : ¬m.Posted k := by
  have hstep : m.kernel.step .worker = some { m.kernel with
      cqes := m.kernel.cqes ++ [⟨k, status, res2⟩], worker := .free k } := by
    simp only [KernelState.step, KernelState.workerStep, hw]
  have haud := reach_audited (.step (a := .worker) h.kernel trivial hstep)
  rintro (hk | hk)
  · have honce := haud.accounted.once
    rw [List.map_append, List.nodup_append] at honce
    exact honce.2.2 k hk k (List.mem_singleton_self k) rfl
  · obtain ⟨req, e, hreq, hpc⟩ := h.refused k hk
    exact haud.refused hreq hpc ⟨k, status, res2⟩
      (List.mem_append_right _ (List.mem_singleton_self _)) rfl

/-- Nor has a call whose error has not been posted. -/
theorem Joined.refuse_new (h : Joined m) {k : Nat} {req : Request} {e : Errno}
    (hreq : m.kernel.reqs[k]? = some req) (hpc : req.pc = .returned (some e))
    (hk : k ∉ m.refused) : ¬m.Posted k := by
  rintro (hdone | hdone)
  · obtain ⟨x, hx, rfl⟩ := List.mem_map.mp hdone
    exact (reach_audited h.kernel).refused hreq hpc x hx rfl
  · exact hk hdone

theorem joined_step {a : MachineAct} {m' : Machine} (h : Joined m) (hs : m.step a = some m') :
    Joined m' := by
  cases Machine.step_cases hs with
  | created hc => exact joined_create h hc
  | notCreated => exact h
  | client ha hc hc' => exact joined_client h ha hc hc'
  | uringCmd hc hr hnew hk => exact joined_uringCmd h hc hr hnew hk
  | kernel ha hquiet hk => exact joined_kernel h ha hquiet hk
  | @cmdDone k status res2 kernel i r c c' hw hk hp =>
    have hcqes : kernel.cqes = m.kernel.cqes ++ [⟨k, status, res2⟩] := by
      simp only [KernelState.step, KernelState.workerStep, hw, Option.some.injEq] at hk
      rw [← hk]
    refine joined_post h hp (h.cmdDone_new hw) (.step (a := .worker) h.kernel trivial hk)
      (step_reqs_length (by simp) hk) ?_ ?_ (fun _ _ hrep => hrep.step hk) ?_
    · intro j hj
      obtain ⟨req, e, hreq, hpc⟩ := h.refused j hj
      obtain ⟨req', hreq', hpc'⟩ := returned_step ⟨req, hreq, hpc⟩ hk
      exact ⟨req', e, hreq', hpc'⟩
    · intro j
      simp only [Machine.Posted, hcqes, List.map_append, List.mem_append, List.map_cons,
        List.map_nil, List.mem_singleton]
      exact or_right_comm
    · refine .inl ⟨⟨k, status, res2⟩, ?_, rfl, rfl⟩
      rw [hcqes]
      exact List.mem_append_right _ (List.mem_singleton_self _)
  | @refuse k req e i r c c' hreq hpc hk hp =>
    refine joined_post h hp (h.refuse_new hreq hpc hk) h.kernel rfl ?_ ?_ (fun _ _ hrep => hrep)
      (.inr ⟨req, e, hreq, hpc, rfl⟩)
    · intro j hj
      rcases List.mem_append.mp hj with hj | hj
      · exact h.refused j hj
      · cases List.mem_singleton.mp hj
        exact ⟨req, e, hreq, hpc⟩
    · intro j
      simp only [Machine.Posted, List.mem_append, List.mem_singleton]
      exact or_assoc.symm

theorem reach_joined {G : Machine → MachineAct → Prop} (h : Reach machineSystem G m) :
    Joined m := by
  refine h.invariant ?_ fun _ _ _ hm _ hs => joined_step hm hs
  rintro _ rfl
  exact {
    kernel := .init rfl
    clients := fun _ hc => by cases hc
    total := rfl
    once := List.nodup_nil
    refused := fun _ hk => by cases hk
    owned := fun _ _ _ hk => by cases hk
    replies := fun _ _ hc => by cases hc }

/-! ## What callbacks are told -/

/-- What a client is to be told of call `k`: the status that the device wrote in its one
answer, or that the driver failed. -/
def KernelState.Answers (s : KernelState) (k : Nat) (v : Except Error DeepspanResult) : Prop :=
  (∃ hdr : ResultHdr, (∀ hdr', (k, hdr') ∈ s.written ↔ hdr' = hdr) ∧
    v = if hdr.status < 0 then .error .ioError else .ok { status := hdr.status }) ∨
  (∃ req e, s.reqs[k]? = some req ∧ req.pc = .returned (some e) ∧ v = .error .ioError)

theorem Errno.ret_neg (e : Errno) : e.ret < 0 := by
  cases e <;> decide

/-- The reply of the driver, as `reap` makes it out. -/
theorem Audited.answers {s : KernelState} (h : Audited s) {k : Nat} {cqe : CqeResult}
    (hreply : s.Replied k cqe.res) : s.Answers k (completionResult cqe) := by
  rcases hreply with ⟨x, hx, rfl, hret⟩ | ⟨req, e, hreq, hpc, hret⟩
  · obtain ⟨hdr, hwritten, hstatus, _⟩ := h.words hx
    rw [hstatus, Int32.ofInt_toInt] at hret
    refine .inl ⟨hdr, hwritten, ?_⟩
    simp only [completionResult, hret]
  · refine .inr ⟨req, e, hreq, hpc, ?_⟩
    simp only [completionResult, hret, e.ret_neg, if_true]

/-- What clients and driver owe each other. -/
structure Machine.Right (m : Machine) : Prop where
  served : ∀ i c d, m.clients[i]? = some c → d ∈ c.delivered →
    c.ring.tokens[d.cqe.req]? = some d.token ∧
    ∃ k, (∀ k', m.calls[k']? = some (i, d.cqe.req) ↔ k' = k) ∧ m.kernel.Answers k d.result
  once : ∀ c ∈ m.clients, (c.delivered.map (·.cqe.req)).Nodup
  complete : ∀ k i r, m.calls[k]? = some (i, r) → m.Posted k →
    ∃ c, m.clients[i]? = some c ∧ (c.ring.cq = [] → r ∈ c.delivered.map (·.cqe.req))
  proceeds : ∀ a kernel, (∀ ureq, a ≠ .uringCmd ureq) → m.kernel.step a = some kernel →
    ∃ m', m.step (.kernel a) = some m' ∧ m'.kernel = kernel
  refuses : ∀ k req e, m.kernel.reqs[k]? = some req → req.pc = .returned (some e) →
    k ∉ m.refused → ∃ m', m.step (.refuse k) = some m'

/-- A call without a completion can be completed: its entry is in flight. -/
theorem Joined.post_possible (h : Joined m) {k : Nat} (hlt : k < m.kernel.reqs.length)
    (hk : ¬m.Posted k) (ret : Int32) (res2 : UInt64) :
    ∃ i r c c', m.Posts k ret res2 i r c c' := by
  have hcall := List.getElem?_eq_getElem (h.total.symm ▸ hlt : k < m.calls.length)
  obtain ⟨c, hc, _, hinflight⟩ := h.owned k _ _ hcall
  have hreach := h.clients c (List.mem_of_getElem? hc)
  obtain ⟨c', hc'⟩ := Deepspan.post_possible (reach_delivering hreach).conserved (hinflight hk)
  exact ⟨_, _, c, c', hcall, hc, hc'⟩

theorem Joined.proceeds (h : Joined m) {a : KernelAct} {kernel : KernelState}
    (ha : ∀ ureq, a ≠ .uringCmd ureq) (hs : m.kernel.step a = some kernel) :
    ∃ m', m.step (.kernel a) = some m' ∧ m'.kernel = kernel := by
  by_cases hdone : a = .worker ∧ ∃ k status res2, m.kernel.worker = .cmdDone k status res2
  · obtain ⟨rfl, k, status, res2, hw⟩ := hdone
    have haud := reach_audited h.kernel
    have hwork : m.kernel.books.work = .read k (status, res2) := books_work hw
    obtain ⟨_, _, hreq, _⟩ := popped_named haud.books haud.named
      (haud.books.mem_popped (by rw [hwork]; exact List.mem_singleton_self k))
    have hlt := (List.getElem?_eq_some_iff.mp hreq).1
    obtain ⟨i, r, c, c', hposts⟩ :=
      h.post_possible hlt (h.cmdDone_new hw) (Int32.ofInt status) res2
    have hposts' : { m with kernel := kernel }.Posts k (Int32.ofInt status) res2 i r c c' :=
      ⟨hposts.call, hposts.client, hposts.step⟩
    refine ⟨{ m with kernel := kernel, clients := m.clients.set i c' }, ?_, rfl⟩
    simp only [Machine.step, hw, hs, hposts'.post_eq, Option.bind_eq_bind, Option.bind_some]
  · refine ⟨{ m with kernel := kernel }, ?_, rfl⟩
    simp only [Machine.step]
    split
    · next ureq => exact absurd rfl (ha ureq)
    · next k status res2 hw => exact absurd ⟨rfl, k, status, res2, hw⟩ hdone
    · rw [hs]
      rfl

theorem Joined.refuses (h : Joined m) {k : Nat} {req : Request} {e : Errno}
    (hreq : m.kernel.reqs[k]? = some req) (hpc : req.pc = .returned (some e))
    (hk : k ∉ m.refused) : ∃ m', m.step (.refuse k) = some m' := by
  have hlt := (List.getElem?_eq_some_iff.mp hreq).1
  obtain ⟨i, r, c, c', hposts⟩ := h.post_possible hlt (h.refuse_new hreq hpc hk) e.ret 0
  have hposts' : { m with refused := m.refused ++ [k] }.Posts k e.ret 0 i r c c' :=
    ⟨hposts.call, hposts.client, hposts.step⟩
  refine ⟨{ m with refused := m.refused ++ [k], clients := m.clients.set i c' }, ?_⟩
  simp only [Machine.step, hreq, Option.map_some, hpc, if_neg hk, hposts'.post_eq]

/-- What a callback has been told is the reply of the one call that its entry was passed to. -/
theorem Joined.served (h : Joined m) {i : Nat} {c : ClientState} {d : Delivery}
    (hc : m.clients[i]? = some c) (hd : d ∈ c.delivered) :
    c.ring.tokens[d.cqe.req]? = some d.token ∧
    ∃ k, (∀ k', m.calls[k']? = some (i, d.cqe.req) ↔ k' = k) ∧ m.kernel.Answers k d.result := by
  have hdel := reach_delivering (h.clients c (List.mem_of_getElem? hc))
  obtain ⟨htoken, hresult⟩ := hdel.handed d hd
  have hposted : d.cqe ∈ c.ring.posted := by
    refine List.mem_append_left _ ?_
    rw [← hdel.seen]
    exact List.mem_map_of_mem hd
  obtain ⟨k, hk, hreply⟩ := h.replies i c hc d.cqe hposted
  refine ⟨htoken ▸ hdel.conserved.tokens d.cqe hposted, k, fun k' => ⟨fun hk' => ?_, ?_⟩, ?_⟩
  · have hlt := (List.getElem?_eq_some_iff.mp hk').1
    exact (List.getElem?_inj hlt h.once).mp (hk'.trans hk.symm)
  · rintro rfl
    exact hk
  · rw [hresult]
    exact (reach_audited h.kernel).answers hreply

theorem Joined.right (h : Joined m) : m.Right where
  served := fun _ _ _ hc hd => h.served hc hd
  once := by
    intro c hc
    have hdel := reach_delivering (h.clients c hc)
    have hnodup := hdel.conserved.seen_nodup
    rwa [← hdel.seen, List.map_map] at hnodup
  complete := by
    intro k i r hk hposted
    obtain ⟨c, hc, hin, _⟩ := h.owned k i r hk
    refine ⟨c, hc, fun hempty => ?_⟩
    have hdel := reach_delivering (h.clients c (List.mem_of_getElem? hc))
    have hr := hin hposted
    rwa [QueuePair.posted, hempty, List.append_nil, ← hdel.seen, List.map_map] at hr
  proceeds := fun _ _ ha hs => h.proceeds ha hs
  refuses := fun _ _ _ hreq hpc hk => h.refuses hreq hpc hk

end Joined

/-- In every state that clients, driver and device reach together: a callback is told
the answer to the one call of the driver that was made for its entry, under the token it was
submitted with, and no entry is told of twice; an entry whose call has been completed is told
of as soon as its client has drained the queue; and neither the driver nor io_uring ever
completes an entry that is not in flight. -/
theorem deliveries_right {m : Machine} (h : Reach machineSystem (fun _ _ => True) m) : m.Right :=
  (reach_joined h).right

/-- Call 0 is queued and answered with the status 5, call 1 fails. -/
def oneAnswered : List KernelAct :=
  (queued 0 1).tail ++ schedule [(1, .complete 0 ⟨5, 7, 8⟩), (1, .interrupt), (2, .cb),
    (1, .startWork), (6, .worker), (1, .issue 1 (.fails .enomem))]

/-- Two clients submit under the same token; the driver is first called for the second. -/
def twoClients : List MachineAct :=
  [.create 3 0 4, .create 4 0 4, .client 0 (.submit 9 (some 1)), .client 1 (.submit 9 (some 1)),
    .uringCmd 1 0 (plainReq 1), .uringCmd 0 0 (plainReq 1)] ++
  oneAnswered.map .kernel ++
  [.refuse 1, .client 0 (.reap true), .client 0 (.waitCqe true), .client 1 (.reap true),
    .client 1 (.waitCqe true)]

theorem deliveries_right_two :
    ∃ m : Machine, m.calls = [(1, 0), (0, 0)] ∧
      m.clients.map (fun c => c.delivered.map fun d => d.result.toOption.map (·.status)) =
        [[none], [some 5]] ∧ m.Right := by
  obtain ⟨m, hrun, hview⟩ := Option.map_eq_some_iff.mp (show
    (replay machineSystem (fun _ _ => true) ⟨[], .initial, [], []⟩ twoClients).map
        (fun m => (m.calls,
          m.clients.map fun c => c.delivered.map fun d => d.result.toOption.map (·.status))) =
      some ([(1, 0), (0, 0)], [[none], [some 5]]) by decide)
  have hinit : Reach machineSystem (fun _ _ => True) ⟨[], .initial, [], []⟩ := .init rfl
  have hreach := replay_reach (fun _ _ _ => trivial) hinit hrun
  exact ⟨m, congrArg Prod.fst hview, congrArg Prod.snd hview, deliveries_right hreach⟩

end Deepspan
