import Deepspan.Userlib.EndToEnd
import Deepspan.Userlib.SubmitAndWait

/-!
# A client that only calls `submit_and_wait`

`submitAndWait_own_iff` says when one call of `submit_and_wait` returns its own outcome: when
nothing is outstanding before it. Here whole runs are looked at, of any number of clients and
the driver together, in which one client only ever calls `submit_and_wait`. As long as
`io_uring_submit` does not fail for it and its waits are not interrupted, each call leaves
nothing behind (`SyncPhase`), so all of them return what the driver answered to their own
commands (`sync_calls_answered`), whatever the other clients do.
-/

namespace Deepspan

open Transition

/-- What a client does that only calls `submit_and_wait`, while `io_uring_submit` does not
fail and no wait is interrupted. -/
def ClientAct.syncOnly : ClientAct → Bool
  | .submitAndWait submitted => submitted.isSome
  | .waitCqe ok => ok
  | .submit _ _ | .reap _ => false
  | .callbackReturn | .peekCqe | .post _ _ _ => true

/-- Client `i` does nothing else. -/
def MachineAct.syncOnly (i : Nat) : MachineAct → Bool
  | .client j a => j != i || a.syncOnly
  | _ => true

/-- Between two calls nothing is outstanding, and during call number `c.syncs.length` its
own entry at most, which has the same number. -/
inductive SyncPhase (c : ClientState) : Prop
  | idle : c.pc = .idle → c.ring.outstanding = [] → c.ring.tokens.length = c.syncs.length →
      SyncPhase c
  | waiting : c.pc = .waitCqe { caller := .submitAndWait c.syncs.length } →
      (∀ r ∈ c.ring.outstanding, r = c.syncs.length) →
      c.ring.tokens.length = c.syncs.length + 1 → SyncPhase c
  | drained (d : Drain) (x : Delivery) : c.pc = .peekCqe d →
      d.caller = .submitAndWait c.syncs.length → c.ring.outstanding = [] →
      c.ring.tokens.length = c.syncs.length + 1 → x ∈ c.delivered →
      x.cqe.req = c.syncs.length → d.captured = x.result → SyncPhase c

structure SyncRight (c : ClientState) : Prop where
  room : 0 < c.depth
  phase : SyncPhase c
  ended : ∀ j e, c.syncs[j]? = some e → ∃ x ∈ c.delivered, x.cqe.req = j ∧ e.value = x.result

variable {c c' : ClientState}

theorem syncRight_init (h : clientSystem.init c) : SyncRight c := by
  obtain ⟨fd, ret, depth, hdepth, hcreate⟩ := h
  obtain ⟨depth', rfl⟩ := clientSystem_init ⟨fd, ret, depth, hdepth, hcreate⟩
  unfold ClientState.create at hcreate
  split at hcreate
  · cases hcreate
  · split at hcreate
    · cases hcreate
    · cases hcreate
      exact ⟨hdepth, .idle rfl rfl rfl, fun _ _ he => by cases he⟩

/-- Between two calls there is room for an entry, and nothing is outstanding. -/
theorem SyncRight.between (h : SyncRight c) (hidle : c.pc = .idle) :
    c.ring.sq.length < c.depth ∧ c.ring.outstanding = [] ∧
      c.ring.tokens.length = c.syncs.length := by
  cases h.phase with
  | idle _ hempty hlen =>
    refine ⟨?_, hempty, hlen⟩
    have hnone := hempty
    rw [QueuePair.outstanding, List.append_eq_nil_iff, List.append_eq_nil_iff] at hnone
    rw [hnone.1.1]
    exact h.room
  | waiting hpc _ _ | drained _ _ hpc _ _ _ _ _ _ => cases hpc.symm.trans hidle

/-- A call begins with nothing outstanding. -/
theorem syncRight_submitAndWait {k : Option Nat} (h : SyncRight c) (hk : k.isSome = true)
    (hs : clientStep c (.submitAndWait k) = some c') : SyncRight c' := by
  have hidle : c.pc = .idle := by
    cases clientStep_cases hs with
    | refused hpc _ | accepted hpc _ => exact hpc
  obtain ⟨hroom, hnone, hlen⟩ := h.between hidle
  simp only [QueuePair.outstanding, List.append_eq_nil_iff] at hnone
  obtain ⟨⟨hsq, hinflight⟩, hcq⟩ := hnone
  simp only [clientStep, hidle] at hs
  rcases submit_cases c 0 k with ⟨hfull, _⟩ | ⟨_, rfl, _⟩ | ⟨n, _, rfl, hsub⟩
  · exact absurd hroom (Nat.not_lt.mpr hfull)
  · cases hk
  · rw [hsub] at hs
    cases hs
    refine ⟨h.room, .waiting ?_ ?_ ?_, h.ended⟩
    · simp only [hlen]
    · intro r hr
      simp only [QueuePair.outstanding, QueuePair.take, QueuePair.push, hsq, hinflight, hcq,
        List.nil_append, List.append_nil, List.mem_append] at hr
      rw [← hlen]
      rcases hr with hr | hr
      · exact List.mem_singleton.mp (List.mem_of_mem_drop hr)
      · exact List.mem_singleton.mp (List.mem_of_mem_take hr)
    · simp only [QueuePair.take, QueuePair.push, List.length_append, List.length_singleton, hlen]

/-- Once the one entry that was outstanding is handed over, none is. -/
theorem outstanding_pop {q : QueuePair UInt64 CqeResult} {n : Nat} {cqe : RingCqe}
    {rest : List RingCqe} (hq : q.Conserved) (hcq : q.cq = cqe :: rest)
    (hall : ∀ r ∈ q.outstanding, r = n) : cqe.req = n ∧ (q.pop cqe rest).outstanding = [] := by
  have hreq : cqe.req = n := by
    refine hall _ (List.mem_append_right _ ?_)
    rw [hcq]
    exact List.mem_cons_self
  refine ⟨hreq, List.eq_nil_iff_forall_not_mem.mpr fun r hr => ?_⟩
  have hmem : r ∈ q.outstanding := by
    simp only [QueuePair.outstanding, QueuePair.pop, hcq, List.mem_append, List.map_cons,
      List.mem_cons] at hr ⊢
    exact hr.imp_right .inr
  cases (hall r hmem).trans hreq.symm
  exact (hq.pop hcq).not_outstanding (List.mem_append_right _ List.mem_cons_self) hr

theorem syncRight_waitCqe (hd : Delivering c) (h : SyncRight c)
    (hs : clientStep c (.waitCqe true) = some c') : SyncRight c' := by
  cases clientStep_cases hs with
  | @waited d cqe rest hpc hcq =>
    cases h.phase with
    | idle hpc' _ _ | drained _ _ hpc' _ _ _ _ _ _ => cases hpc.symm.trans hpc'
    | waiting hpc' hall hlen =>
      cases hpc.symm.trans hpc'
      obtain ⟨hreq, hempty⟩ := outstanding_pop hd.conserved hcq hall
      refine ⟨h.room, .drained _ _ rfl rfl hempty hlen
        (List.mem_append_right _ List.mem_cons_self) hreq rfl, fun j e he => ?_⟩
      obtain ⟨x, hx, hend⟩ := h.ended j e he
      exact ⟨x, List.mem_append_left _ hx, hend⟩

/-- The queue is empty then, so the call returns. -/
theorem syncRight_peekCqe (h : SyncRight c) (hs : clientStep c .peekCqe = some c') :
    SyncRight c' := by
  have hpeek : ∃ d, c.pc = .peekCqe d := by
    cases clientStep_cases hs with
    | peeked hpc _ | drained hpc _ => exact ⟨_, hpc⟩
  obtain ⟨d', hpc'⟩ := hpeek
  cases h.phase with
  | idle hpc _ _ | waiting hpc _ _ => cases hpc.symm.trans hpc'
  | drained d x hpc hcaller hempty hlen hx hreq hcap =>
    cases clientStep_cases hs with
    | peeked _ hcq => cases (outstanding_eq_nil hempty).2.symm.trans hcq
    | drained hpc' _ =>
      cases hpc.symm.trans hpc'
      have hsyncs : (c.finish d (.ok d.count)).syncs =
          c.syncs ++ [⟨some c.syncs.length, true, d.captured⟩] := by
        simp only [ClientState.finish, hcaller]
      refine ⟨h.room, .idle rfl hempty ?_, fun j e he => ?_⟩
      · rw [hsyncs, List.length_append, List.length_singleton]
        exact hlen
      · rw [hsyncs] at he
        rcases getElem?_concat_cases he with he | ⟨rfl, rfl⟩
        · exact h.ended j e he
        · exact ⟨x, hx, hreq, hcap⟩

theorem syncRight_post {r : Nat} {ret : Int32} {res2 : UInt64} (h : SyncRight c)
    (hs : clientStep c (.post r ret res2) = some c') : SyncRight c' := by
  cases clientStep_cases hs with
  | post hq =>
    refine ⟨h.room, ?_, h.ended⟩
    have hr := (QueuePair.post_cases hq).1
    have htokens := (QueuePair.post_cases hq).2
    obtain ⟨t, _, rfl⟩ := htokens
    cases h.phase with
    | idle _ hempty _ | drained _ _ _ _ hempty _ _ _ _ =>
      rw [(outstanding_eq_nil hempty).1] at hr
      cases hr
    | waiting hpc hall hlen => exact .waiting hpc (outstanding_post hq hall) hlen

theorem syncRight_client {a : ClientAct} (hd : Delivering c) (h : SyncRight c)
    (ha : a.syncOnly = true) (hs : clientStep c a = some c') : SyncRight c' := by
  cases a with
  | submit u k | reap w => cases ha
  | submitAndWait k => exact syncRight_submitAndWait h ha hs
  | waitCqe ok =>
    cases ha
    exact syncRight_waitCqe hd h hs
  | callbackReturn =>
    cases clientStep_cases hs with
    | callbackReturn hpc =>
      cases h.phase with
      | idle hpc' _ _ | waiting hpc' _ _ | drained _ _ hpc' _ _ _ _ _ _ =>
        cases hpc.symm.trans hpc'
  | peekCqe => exact syncRight_peekCqe h hs
  | post r ret res2 => exact syncRight_post h hs

/-- What holds of client `i` when all of its steps keep it, whichever client a step is of. -/
theorem syncRight_set {m : Machine} {i j : Nat} {x x' : ClientState} (hx : m.clients[j]? = some x)
    (h : ∀ c, m.clients[i]? = some c → SyncRight c) (hown : j = i → SyncRight x → SyncRight x') :
    ∀ c, (m.clients.set j x')[i]? = some c → SyncRight c := by
  intro c hc
  rcases getElem?_set_cases hx hc with ⟨rfl, rfl⟩ | ⟨_, hc⟩
  · exact hown rfl (h x hx)
  · exact h c hc

theorem syncRight_step {m m' : Machine} {i : Nat} {a : MachineAct} (hm : Joined m)
    (h : ∀ c, m.clients[i]? = some c → SyncRight c) (ha : a.syncOnly i = true)
    (hs : m.step a = some m') : ∀ c, m'.clients[i]? = some c → SyncRight c := by
  cases Machine.step_cases hs with
  | created hinit =>
    intro c hc
    rcases getElem?_concat_cases hc with hc | ⟨_, rfl⟩
    · exact h c hc
    · exact syncRight_init hinit
  | notCreated | uringCmd _ _ _ _ | kernel _ _ _ => exact h
  | @client j b x x' _ hx hx' =>
    refine syncRight_set hx h fun hji hright => ?_
    subst hji
    simp only [MachineAct.syncOnly, bne_self_eq_false, Bool.false_or] at ha
    exact syncRight_client (reach_delivering (hm.clients x (List.mem_of_getElem? hx))) hright ha hx'
  | cmdDone _ _ hp | refuse _ _ _ hp =>
    exact syncRight_set hp.client h fun _ hright => syncRight_post hright hp.step

/-- What call number `j` of client `i` has returned, when nothing was left behind before
it. -/
theorem Joined.answered {m : Machine} (hm : Joined m) {i : Nat} (hc : m.clients[i]? = some c)
    (hright : SyncRight c) {j : Nat} {e : SyncEnd} (he : c.syncs[j]? = some e) :
    ∃ k, (∀ k', m.calls[k']? = some (i, j) ↔ k' = k) ∧ m.kernel.Answers k e.value := by
  obtain ⟨x, hx, rfl, hvalue⟩ := hright.ended j e he
  obtain ⟨_, k, hk, hanswer⟩ := hm.served hc hx
  exact ⟨k, hk, hvalue ▸ hanswer⟩

/-- In every run in which client `i` only calls `submit_and_wait`, `io_uring_submit` does not
fail for it and its waits are not interrupted, its call number `j` has returned what the
driver answered to the one command that was issued for it. -/
theorem sync_calls_answered {m : Machine} {i : Nat}
    (h : Reach machineSystem (fun _ a => a.syncOnly i = true) m) (hc : m.clients[i]? = some c)
    {j : Nat} {e : SyncEnd} (he : c.syncs[j]? = some e) :
    ∃ k, (∀ k', m.calls[k']? = some (i, j) ↔ k' = k) ∧ m.kernel.Answers k e.value := by
  have hall : ∀ c, m.clients[i]? = some c → SyncRight c := by
    refine (h.invariant (P := fun m => Joined m ∧ ∀ c, m.clients[i]? = some c → SyncRight c)
      ?_ ?_).2
    · intro m hinit
      refine ⟨reach_joined (G := fun _ _ => True) (.init hinit), ?_⟩
      cases hinit
      exact fun _ hc => by cases hc
    · intro m a m' hm ha hs
      exact ⟨joined_step hm.1 hs, syncRight_step hm.1 hm.2 ha hs⟩
  exact (reach_joined h).answered hc (hall c hc) he

/-- One client calls `submit_and_wait` while another one submits, and the device answers the
first. -/
def oneSynced : List MachineAct :=
  [.create 3 0 4, .create 4 0 4, .client 0 (.submit 9 (some 1)),
    .client 1 (.submitAndWait (some 1)), .uringCmd 1 0 (plainReq 1), .uringCmd 0 0 (plainReq 1)] ++
  oneAnswered.map .kernel ++ [.client 1 (.waitCqe true), .client 1 .peekCqe]

theorem sync_calls_answered_one :
    ∃ (m : Machine) (c : ClientState) (e : SyncEnd), m.clients[1]? = some c ∧
      c.syncs[0]? = some e ∧ e.value.toOption.map (·.status) = some 5 ∧ m.calls[0]? = some (1, 0) ∧
      m.kernel.Answers 0 e.value := by
  obtain ⟨m, hrun, hview⟩ := Option.map_eq_some_iff.mp (show
    (replay machineSystem (fun _ a => a.syncOnly 1) ⟨[], .initial, [], []⟩ oneSynced).map
        (fun m => (m.calls,
          m.clients.map fun c => c.syncs.map fun e => e.value.toOption.map (·.status))) =
      some ([(1, 0), (0, 0)], [[], [some 5]]) by decide)
  have hinit : Reach machineSystem (fun _ a => a.syncOnly 1 = true) ⟨[], .initial, [], []⟩ :=
    .init rfl
  have hreach := replay_reach (fun _ _ h => h) hinit hrun
  obtain ⟨hcalls, hsyncs⟩ := Prod.mk.inj hview
  have hcall : m.calls[0]? = some (1, 0) := by rw [hcalls]; rfl
  have hclient := congrArg (fun l => l[1]?) hsyncs
  rw [List.getElem?_map] at hclient
  obtain ⟨c, hc, hends⟩ := Option.map_eq_some_iff.mp hclient
  have hend := congrArg (fun l => l[0]?) hends
  rw [List.getElem?_map] at hend
  obtain ⟨e, he, hstatus⟩ := Option.map_eq_some_iff.mp hend
  obtain ⟨k, hk, hanswer⟩ := sync_calls_answered hreach hc he
  cases (hk 0).mp hcall
  exact ⟨m, c, e, hc, he, hstatus, hcall, hanswer⟩

end Deepspan
