import Deepspan.Userlib.Reap

/-!
# Whose completion does `submit_and_wait` return?

`submit_and_wait` submits one request and drains the completion queue, and its
callback looks at no token. `OwnOutcome` is what its documentation promises: the call
returns the outcome of its own request, and hands no other completion to its
callback. That is so if and only if no other request is outstanding when it is called
(`submitAndWait_own_iff`), the trivial case of a full submission queue apart;
`submitAndWait_foreign` is a call that returns another request's result.
-/

namespace Deepspan

open Transition

/-- What has come of a call of `submit_and_wait` made in `s`, when the client is in
`s'`: the value it has returned, unless an error of `submit` or `reap`, is the outcome
of its own completion; its callback has seen no other completion; and once its
completion is posted, it returns. -/
structure OwnCall (s s' : ClientState) : Prop where
  value : ∀ e ∈ s'.syncs.drop s.syncs.length, e.reaped = true →
    ∃ c ∈ s'.ring.posted, c.req = s.ring.tokens.length ∧ e.value = completionResult c.res
  others : ∀ d ∈ s'.delivered.drop s.delivered.length, d.cqe.req = s.ring.tokens.length
  returns : s'.pc ≠ .idle → (∃ c ∈ s'.ring.posted, c.req = s.ring.tokens.length) →
    ∃ n s2, replay clientSystem (fun _ _ => true) s'
      ([ClientAct.waitCqe true, ClientAct.peekCqe].drop n) = some s2 ∧ s2.pc = .idle

/-- Whatever completes in whatever order during a call of `submit_and_wait`. -/
def OwnOutcome (s : ClientState) : Prop :=
  ∀ k s1 s2, clientStep s (.submitAndWait k) = some s1 →
    Reach (clientSystem.startedAt s1) (fun s _ => s.pc ≠ .idle) s2 → OwnCall s s2

/-! ## Nothing else is outstanding -/

/-- The stages of a call made when nothing was outstanding. -/
inductive AlonePhase (s s' : ClientState) : Prop
  | waiting : s'.pc = .waitCqe { caller := .submitAndWait s.ring.tokens.length } →
      (∀ r ∈ s'.ring.outstanding, r = s.ring.tokens.length) →
      s'.delivered = s.delivered → s'.syncs = s.syncs → AlonePhase s s'
  | drained (d : Drain) (c : RingCqe) (x : Delivery) : s'.pc = .peekCqe d →
      d.caller = .submitAndWait s.ring.tokens.length → s'.ring.outstanding = [] →
      c ∈ s'.ring.posted → c.req = s.ring.tokens.length → d.captured = completionResult c.res →
      s'.delivered = s.delivered ++ [x] → x.cqe.req = s.ring.tokens.length →
      s'.syncs = s.syncs → AlonePhase s s'
  | returned : s'.pc = .idle →
      (∀ e ∈ s'.syncs.drop s.syncs.length, e.reaped = true →
        ∃ c ∈ s'.ring.posted, c.req = s.ring.tokens.length ∧ e.value = completionResult c.res) →
      (∀ d ∈ s'.delivered.drop s.delivered.length, d.cqe.req = s.ring.tokens.length) →
      AlonePhase s s'

variable {s s1 s2 s' : ClientState} {a : ClientAct}

theorem outstanding_eq_nil {q : QueuePair UInt64 CqeResult} (h : q.outstanding = []) :
    q.inflight = [] ∧ q.cq = [] := by
  rw [QueuePair.outstanding, List.append_eq_nil_iff, List.append_eq_nil_iff] at h
  exact ⟨h.1.2, List.map_eq_nil_iff.mp h.2⟩

/-- The kernel completes what is outstanding. -/
theorem outstanding_post {q q' : QueuePair UInt64 CqeResult} {r n : Nat} {res : CqeResult}
    (h : q.post r res = some q') (hall : ∀ x ∈ q.outstanding, x = n) :
    ∀ x ∈ q'.outstanding, x = n := by
  obtain ⟨hr, t, _, rfl⟩ := QueuePair.post_cases h
  intro x hx
  simp only [QueuePair.outstanding, List.mem_append, List.map_append, List.map_cons, List.map_nil,
    List.mem_singleton] at hx hall
  rcases hx with (hx | hx) | hx | rfl
  · exact hall x (.inl (.inl hx))
  · exact hall x (.inl (.inr (List.mem_of_mem_erase hx)))
  · exact hall x (.inr hx)
  · exact hall x (.inl (.inr hr))

/-- The one completion that can come is handed over. -/
theorem alone_handOver (hd : Delivering s') {cqe : RingCqe} {rest : List RingCqe}
    (hcq : s'.ring.cq = cqe :: rest)
    (hall : ∀ r ∈ s'.ring.outstanding, r = s.ring.tokens.length)
    (hdel : s'.delivered = s.delivered) (hsync : s'.syncs = s.syncs) :
    AlonePhase s (s'.handOver { caller := .submitAndWait s.ring.tokens.length } cqe rest) := by
  have hsub : ∀ r ∈ (s'.ring.pop cqe rest).outstanding, r ∈ s'.ring.outstanding := by
    intro r hr
    simp only [QueuePair.outstanding, QueuePair.pop, hcq, List.mem_append, List.map_cons,
      List.mem_cons] at hr ⊢
    rcases hr with hr | hr
    · exact .inl hr
    · exact .inr (.inr hr)
  have hreq : cqe.req = s.ring.tokens.length := by
    refine hall _ (List.mem_append_right _ ?_)
    rw [hcq]
    exact List.mem_cons_self
  have hempty : (s'.ring.pop cqe rest).outstanding = [] := by
    refine List.eq_nil_iff_forall_not_mem.mpr fun r hr => ?_
    have hown := (hall r (hsub r hr)).trans hreq.symm
    subst hown
    exact (hd.conserved.pop hcq).not_outstanding (List.mem_append_right _ List.mem_cons_self) hr
  refine .drained _ cqe _ rfl rfl hempty ?_ hreq rfl (by rw [← hdel]; rfl) hreq hsync
  simp only [ClientState.handOver, QueuePair.posted_pop hcq]
  rw [QueuePair.posted, hcq]
  exact List.mem_append_right _ List.mem_cons_self

theorem alone_step (hd : Delivering s1) (h : AlonePhase s s1) (hg : s1.pc ≠ .idle)
    (hs : clientStep s1 a = some s2) : AlonePhase s s2 := by
  cases h with
  | returned hpc _ _ => exact absurd hpc hg
  | waiting hpc hall hdel hsync =>
    cases clientStep_cases hs with
    | submit hpc' =>
      rw [hpc] at hpc'
      rcases hpc' with hpc' | ⟨_, hpc'⟩ <;> cases hpc'
    | reap hpc' => exact absurd hpc' hg
    | refused hpc' _ | accepted hpc' _ => exact absurd hpc' hg
    | waited hpc' hcq =>
      rw [hpc] at hpc'
      cases hpc'
      exact alone_handOver hd hcq hall hdel hsync
    | waitFailed hpc' =>
      rw [hpc] at hpc'
      cases hpc'
      refine .returned rfl ?_ ?_
      · intro e he hreaped
        simp only [ClientState.finish, hsync, List.drop_left, List.mem_singleton] at he
        rw [he] at hreaped
        cases hreaped
      · intro x hx
        simp only [ClientState.finish, hdel, List.drop_length] at hx
        cases hx
    | callbackReturn hpc' => cases hpc.symm.trans hpc'
    | peeked hpc' _ | drained hpc' _ => cases hpc.symm.trans hpc'
    | post hq => exact .waiting hpc (outstanding_post hq hall) hdel hsync
  | drained d c x hpc hcaller hempty hc hreq hcap hdel hx hsync =>
    obtain ⟨hinflight, hcq⟩ := outstanding_eq_nil hempty
    cases clientStep_cases hs with
    | submit hpc' =>
      rw [hpc] at hpc'
      rcases hpc' with hpc' | ⟨_, hpc'⟩ <;> cases hpc'
    | reap hpc' => exact absurd hpc' hg
    | refused hpc' _ | accepted hpc' _ => exact absurd hpc' hg
    | waited hpc' _ => cases hpc.symm.trans hpc'
    | waitFailed hpc' | callbackReturn hpc' => cases hpc.symm.trans hpc'
    | peeked _ hcq' => cases hcq.symm.trans hcq'
    | drained hpc' _ =>
      rw [hpc] at hpc'
      cases hpc'
      refine .returned rfl ?_ ?_
      · intro e he _
        simp only [ClientState.finish, hcaller, hsync, List.drop_left, List.mem_singleton] at he
        rw [he]
        exact ⟨c, hc, hreq, hcap⟩
      · intro y hy
        simp only [ClientState.finish, hdel, List.drop_left, List.mem_singleton] at hy
        rw [hy]
        exact hx
    | post hq =>
      -- nothing is in flight that the kernel could complete
      have hr := (QueuePair.post_cases hq).1
      rw [hinflight] at hr
      cases hr

/-- The call begins: `submit` fails, or its entry is the only one outstanding. -/
theorem alone_start {k : Option Nat} (hidle : s.pc = .idle)
    (hcond : s.depth ≤ s.ring.sq.length ∨ s.ring.outstanding = [])
    (hs : clientStep s (.submitAndWait k) = some s1) : AlonePhase s s1 := by
  have herror {q : QueuePair UInt64 CqeResult} {e : Error} :
      AlonePhase s { s with ring := q, syncs := s.syncs ++ [⟨none, false, .error e⟩] } := by
    refine .returned hidle ?_ ?_
    · intro x hx hreaped
      simp only [List.drop_left, List.mem_singleton] at hx
      rw [hx] at hreaped
      cases hreaped
    · intro x hx
      simp only [List.drop_length] at hx
      cases hx
  simp only [clientStep, hidle] at hs
  rcases submit_cases s 0 k with ⟨_, hsub⟩ | ⟨_, _, hsub⟩ | ⟨n, hroom, _, hsub⟩
  · rw [hsub] at hs
    cases hs
    exact herror
  · rw [hsub] at hs
    cases hs
    exact herror
  · rw [hsub] at hs
    cases hs
    refine .waiting rfl ?_ rfl rfl
    have hnone : s.ring.outstanding = [] := hcond.resolve_left (Nat.not_le.mpr hroom)
    intro r hr
    simp only [QueuePair.outstanding, QueuePair.take, QueuePair.push, List.append_eq_nil_iff] at hnone hr
    rw [hnone.1.1, hnone.1.2, List.map_eq_nil_iff.mp hnone.2] at hr
    simp only [List.nil_append, List.map_nil, List.append_nil, List.mem_append] at hr
    rcases hr with hr | hr
    · exact List.mem_singleton.mp (List.mem_of_mem_drop hr)
    · exact List.mem_singleton.mp (List.mem_of_mem_take hr)

/-- What has been popped before the call is not its own completion. -/
theorem Delivering.seen_lt (h : Delivering s) {c : RingCqe} (hc : c ∈ s.ring.seen) :
    c.req < s.ring.tokens.length :=
  (List.getElem?_eq_some_iff.mp (h.conserved.tokens c (List.mem_append_left _ hc))).1

/-- A drained queue ends the call. -/
theorem peekCqe_returns {d : Drain} (hpc : s.pc = .peekCqe d) (hempty : s.ring.outstanding = []) :
    replay clientSystem (fun _ _ => true) s [.peekCqe] = some (s.finish d (.ok d.count)) := by
  simp only [replay, clientSystem, clientStep, hpc, (outstanding_eq_nil hempty).2, if_true,
    Option.bind_some]

theorem AlonePhase.ownCall (hd : Delivering s) (hd' : Delivering s') (h : AlonePhase s s') :
    OwnCall s s' := by
  cases h with
  | waiting hpc hall hdel hsync =>
    refine ⟨?_, ?_, ?_⟩
    · intro e he
      rw [hsync, List.drop_length] at he
      cases he
    · intro x hx
      rw [hdel, List.drop_length] at hx
      cases hx
    · rintro _ ⟨c, hc, hreq⟩
      rcases List.mem_append.mp hc with hseen | hcq
      · rw [← hd'.seen, hdel, hd.seen] at hseen
        exact absurd hreq (Nat.ne_of_lt (hd.seen_lt hseen))
      · cases hq : s'.ring.cq with
        | nil =>
          rw [hq] at hcq
          cases hcq
        | cons cqe rest =>
          cases alone_handOver hd' hq hall hdel hsync with
          | drained d _ _ hpc2 _ hempty =>
            have hwait : clientSystem.step s' (.waitCqe true) = some (s'.handOver
                { caller := .submitAndWait s.ring.tokens.length } cqe rest) := by
              simp only [clientSystem, clientStep, hpc, hq, if_true]
            have hrun := (replay_cons (g := fun _ _ => true) rfl hwait).trans
              (peekCqe_returns hpc2 hempty)
            exact ⟨0, _, hrun, rfl⟩
          | waiting hpc2 => cases hpc2
          | returned hpc2 => cases hpc2
  | drained d c x hpc hcaller hempty hc hreq hcap hdel hx hsync =>
    refine ⟨?_, ?_, ?_⟩
    · intro e he
      rw [hsync, List.drop_length] at he
      cases he
    · intro y hy
      rw [hdel, List.drop_left, List.mem_singleton] at hy
      rw [hy]
      exact hx
    · exact fun _ _ => ⟨1, s'.finish d (.ok d.count), peekCqe_returns hpc hempty, rfl⟩
  | returned hpc hvalue hothers => exact ⟨hvalue, hothers, fun hne => absurd hpc hne⟩

theorem ownOutcome_of_alone (hd : Delivering s) (hidle : s.pc = .idle)
    (hcond : s.depth ≤ s.ring.sq.length ∨ s.ring.outstanding = []) : OwnOutcome s := by
  intro k s1 s2 hs hrun
  obtain ⟨hd2, hphase⟩ := hrun.after (P := fun s2 => Delivering s2 ∧ AlonePhase s s2)
    ⟨delivering_step hd hs, alone_start hidle hcond hs⟩
    fun _ _ _ hP hg hs => ⟨delivering_step hP.1 hs, alone_step hP.1 hP.2 hg hs⟩
  exact hphase.ownCall hd hd2

/-! ## Something else is outstanding -/

/-- A completion of another request that is at the head of the queue after `submit` is
handed to the callback of `submit_and_wait`. -/
theorem not_ownOutcome_of_head {k : Option Nat} {cqe : RingCqe} {rest : List RingCqe}
    (hs : clientStep s (.submitAndWait k) = some s1)
    (hrun : Reach (clientSystem.startedAt s1) (fun s _ => s.pc ≠ .idle) s2)
    (hpc : s2.pc = .waitCqe { caller := .submitAndWait s.ring.tokens.length })
    (hdel : s2.delivered = s.delivered) (hcq : s2.ring.cq = cqe :: rest)
    (hne : cqe.req ≠ s.ring.tokens.length) : ¬OwnOutcome s := by
  intro hown
  have hwait : clientStep s2 (.waitCqe true) = some (s2.handOver
      { caller := .submitAndWait s.ring.tokens.length } cqe rest) := by
    simp only [clientStep, hpc, hcq, if_true]
  have hcall := hown k s1 _ hs (.step (a := .waitCqe true) hrun (by rw [hpc]; intro h; cases h) hwait)
  refine hne (hcall.others ⟨s2.reaps.length, cqe, cqe.token, completionResult cqe.res⟩ ?_)
  simp only [ClientState.handOver, hdel, List.drop_left, List.mem_singleton]

theorem not_ownOutcome (hd : Delivering s) (hidle : s.pc = .idle)
    (hroom : s.ring.sq.length < s.depth) (hout : s.ring.outstanding ≠ []) : ¬OwnOutcome s := by
  -- `io_uring_submit` passes on everything that is queued
  let q := (s.ring.push 0).take (s.ring.sq.length + 1)
  let s1 : ClientState :=
    { s with ring := q, pc := .waitCqe { caller := .submitAndWait s.ring.tokens.length } }
  have hs : clientStep s (.submitAndWait (some (s.ring.sq.length + 1))) = some s1 := by
    simp only [clientStep, hidle, ClientState.submit, if_neg (Nat.not_le.mpr hroom)]
    rfl
  have hinflight : q.inflight = s.ring.inflight ++ (s.ring.sq ++ [s.ring.tokens.length]) := by
    have hlen : (s.ring.sq ++ [s.ring.tokens.length]).length ≤ s.ring.sq.length + 1 :=
      Nat.le_of_eq (by rw [List.length_append, List.length_singleton])
    simp only [q, QueuePair.take, QueuePair.push, List.take_of_length_le hlen]
  cases hcq : s.ring.cq with
  | cons cqe rest =>
    have hlt : cqe.req < s.ring.tokens.length := by
      refine hd.conserved.lt_of_outstanding (List.mem_append_right _ ?_)
      rw [hcq]
      exact List.mem_cons_self
    exact not_ownOutcome_of_head hs (.init rfl) rfl rfl hcq (Nat.ne_of_lt hlt)
  | nil =>
    obtain ⟨r, hr⟩ := List.exists_mem_of_ne_nil _ hout
    have hlt := hd.conserved.lt_of_outstanding hr
    have hmem : r ∈ q.inflight := by
      rw [hinflight]
      simp only [QueuePair.outstanding, hcq, List.map_nil, List.append_nil, List.mem_append] at hr ⊢
      rcases hr with hr | hr
      · exact .inr (.inl hr)
      · exact .inl hr
    have hcons : q.Conserved := (hd.conserved.push 0).take _
    obtain ⟨t, ht⟩ := hcons.token_of_inflight hmem
    have hpost : (clientSystem.startedAt s1).step s1 (.post r 0 0) = some { s1 with
        ring := { q with inflight := q.inflight.erase r, cq := [⟨r, t, cmdDone s.flags 0 0⟩] } } := by
      have hq : q.cq = [] := hcq
      simp only [System.startedAt, clientSystem, clientStep, s1, QueuePair.post, if_pos hmem, ht, hq,
        Option.map_some, List.nil_append]
    have hrun : Reach (clientSystem.startedAt s1) (fun s _ => s.pc ≠ .idle) _ :=
      .step (.init rfl) (by intro h; cases h) hpost
    exact not_ownOutcome_of_head hs hrun rfl rfl rfl (Nat.ne_of_lt hlt)

/-- For every state in which `submit_and_wait` can be called. -/
theorem submitAndWait_own_iff (h : Reach clientSystem (fun _ _ => True) s) (hidle : s.pc = .idle) :
    OwnOutcome s ↔ s.depth ≤ s.ring.sq.length ∨ s.ring.outstanding = [] := by
  have hd := reach_delivering h
  refine ⟨?_, ownOutcome_of_alone hd hidle⟩
  intro hown
  rcases Nat.lt_or_ge s.ring.sq.length s.depth with hroom | hfull
  · refine .inr (Classical.byContradiction fun hout => ?_)
    exact not_ownOutcome hd hidle hroom hout hown
  · exact .inl hfull

/-- The client is inside `reap`. -/
def ClientPc.reaping : ClientPc → Bool
  | .idle => false
  | .waitCqe _ | .callback _ | .peekCqe _ => true

/-- One request is in flight. -/
def oneInFlight : ClientState :=
  { flags := 0, depth := 64, ring := ⟨[7], [], [0], [], []⟩ }

/-- `submit_and_wait` waits for its own, and the other one completes with the status 5. -/
def foreignCompletion : List ClientAct := [.post 0 5 0, .waitCqe true, .peekCqe]

theorem oneInFlight_reach : Reach clientSystem (fun _ _ => True) oneInFlight := by
  have hinit : clientSystem.init { flags := 0, depth := 64 } := ⟨3, 0, 64, by decide, rfl⟩
  exact replay_reach (g := fun _ _ => true) (fun _ _ _ => trivial) (.init hinit)
    (rfl : replay clientSystem _ _ [.submit 7 (some 1)] = some oneInFlight)

/-- The call returns the other request's result while its own is still in flight. -/
theorem submitAndWait_foreign :
    (∃ s1 s2, clientStep oneInFlight (.submitAndWait (some 1)) = some s1 ∧
      Reach (clientSystem.startedAt s1) (fun s _ => s.pc ≠ .idle) s2 ∧
      s2.syncs = [⟨some 1, true, .ok { status := 5 }⟩] ∧ s2.ring.outstanding = [1]) ∧
    Reach clientSystem (fun _ _ => True) oneInFlight ∧ ¬OwnOutcome oneInFlight := by
  obtain ⟨s1, s2, hs, hrun, hsyncs, hout, hposted⟩ : ∃ s1 s2,
      clientStep oneInFlight (.submitAndWait (some 1)) = some s1 ∧
      replay (clientSystem.startedAt s1) (fun s _ => s.pc.reaping) s1 foreignCompletion = some s2 ∧
      s2.syncs = [⟨some 1, true, .ok { status := 5 }⟩] ∧ s2.ring.outstanding = [1] ∧
      s2.ring.posted.map (·.req) = [0] :=
    ⟨_, _, rfl, rfl, rfl, rfl, rfl⟩
  have hreach : Reach (clientSystem.startedAt s1) (fun s _ => s.pc ≠ .idle) s2 := by
    refine replay_reach ?_ (.init rfl) hrun
    intro s a hbusy hidle
    rw [hidle] at hbusy
    cases hbusy
  refine ⟨⟨s1, s2, hs, hreach, hsyncs, hout⟩, oneInFlight_reach, ?_⟩
  intro hown
  obtain ⟨c, hc, hreq, _⟩ := (hown _ _ _ hs hreach).value ⟨some 1, true, .ok { status := 5 }⟩
    (by rw [hsyncs]; exact List.mem_cons_self) rfl
  have hmem := List.mem_map_of_mem (f := fun c : RingCqe => c.req) hc
  rw [hposted, hreq] at hmem
  exact absurd hmem (by decide)

/-- Before anything is submitted. -/
theorem submitAndWait_own_first :
    Reach clientSystem (fun _ _ => True) { flags := 0, depth := 64 } ∧
      OwnOutcome { flags := 0, depth := 64 } := by
  have hreach : Reach clientSystem (fun _ _ => True) { flags := 0, depth := 64 } :=
    .init ⟨3, 0, 64, by decide, rfl⟩
  exact ⟨hreach, (submitAndWait_own_iff hreach rfl).mpr (.inr rfl)⟩

end Deepspan
