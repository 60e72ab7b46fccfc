import Deepspan.Userlib.AsyncClient

/-!
# Every completion reaches one callback

The completions that have been popped are those handed to callbacks, in order
(`Delivering.seen`), and a call of `reap` counts its own (`Delivering.current`). When
its last peek finds the queue empty, everything posted by then has been popped.
`reap_delivers` is what this means for the requests and for the number that `reap`
returns. It holds with `submit_and_wait` calls in between as well, and for the
requests that a failed `submit` has left in the queue.
-/

namespace Deepspan

open Transition

/-- The callback invocations of a `reap` so far. -/
def ClientPc.count : ClientPc → Nat
  | .idle => 0
  | .waitCqe d | .callback d | .peekCqe d => d.count

/-- The callback invocations of the call number `k` of `reap`. -/
def ClientState.invocations (s : ClientState) (k : Nat) : Nat :=
  s.delivered.countP (·.reap == k)

structure Delivering (s : ClientState) : Prop where
  conserved : s.ring.Conserved
  seen : s.delivered.map (·.cqe) = s.ring.seen
  handed : ∀ d ∈ s.delivered, d.token = d.cqe.token ∧ d.result = completionResult d.cqe.res
  labels : ∀ d ∈ s.delivered, d.reap ≤ s.reaps.length
  current : s.invocations s.reaps.length = s.pc.count
  ended : ∀ (k : Nat) (e : ReapEnd) (n : Nat), s.reaps[k]? = some e → e.ret = .ok n →
    n = s.invocations k ∧ ∀ c ∈ e.posted, c ∈ s.ring.seen

variable {s s' : ClientState} {a : ClientAct}

theorem delivering_init (h : clientSystem.init s) : Delivering s := by
  obtain ⟨depth, rfl⟩ := clientSystem_init h
  exact {
    conserved := QueuePair.conserved_empty
    seen := rfl
    handed := fun _ hd => by cases hd
    labels := fun _ hd => by cases hd
    current := rfl
    ended := fun _ _ _ hk => by cases hk }

/-- The kernel and `submit` move the ring, and pop nothing. -/
theorem Delivering.of_ring (h : Delivering s) {q : QueuePair UInt64 CqeResult} (hq : q.Conserved)
    (hseen : q.seen = s.ring.seen) : Delivering { s with ring := q } where
  conserved := hq
  seen := h.seen.trans hseen.symm
  handed := h.handed
  labels := h.labels
  current := h.current
  ended := fun k e n hk he => by
    have hend := h.ended k e n hk he
    exact ⟨hend.1, hseen ▸ hend.2⟩

theorem delivering_submit (h : Delivering s) (u : UInt64) (k : Option Nat) :
    Delivering (s.submit u k).2 := by
  rcases submit_cases s u k with ⟨_, hs⟩ | ⟨_, _, hs⟩ | ⟨n, _, _, hs⟩
  · rw [hs]
    exact h
  · rw [hs]
    exact h.of_ring (h.conserved.push u) rfl
  · rw [hs]
    exact h.of_ring ((h.conserved.push u).take n) rfl

theorem submit_pc (s : ClientState) (u : UInt64) (k : Option Nat) : (s.submit u k).2.pc = s.pc := by
  rcases submit_cases s u k with ⟨_, hs⟩ | ⟨_, _, hs⟩ | ⟨n, _, _, hs⟩ <;> rw [hs]

theorem Delivering.of_pc (h : Delivering s) {pc : ClientPc} {syncs : List SyncEnd}
    (hpc : pc.count = s.pc.count) : Delivering { s with pc := pc, syncs := syncs } where
  conserved := h.conserved
  seen := h.seen
  handed := h.handed
  labels := h.labels
  current := h.current.trans hpc.symm
  ended := h.ended

theorem delivering_handOver (h : Delivering s) {d : Drain} {cqe : RingCqe} {rest : List RingCqe}
    (hpc : s.pc.count = d.count) (hcq : s.ring.cq = cqe :: rest) :
    Delivering (s.handOver d cqe rest) where
  conserved := h.conserved.pop hcq
  seen := by
    simp only [ClientState.handOver, List.map_append, h.seen]
    rfl
  handed := by
    intro x hx
    rcases List.mem_append.mp hx with hx | hx
    · exact h.handed x hx
    · cases List.mem_singleton.mp hx
      exact ⟨rfl, rfl⟩
  labels := by
    intro x hx
    rcases List.mem_append.mp hx with hx | hx
    · exact h.labels x hx
    · cases List.mem_singleton.mp hx
      exact Nat.le_refl _
  current := by
    have hcount : (s.handOver d cqe rest).invocations s.reaps.length = d.count + 1 := by
      simp only [ClientState.handOver, ClientState.invocations, List.countP_append]
      rw [← hpc, ← h.current]
      simp [ClientState.invocations]
    refine Eq.trans hcount ?_
    unfold ClientState.handOver
    cases d.caller <;> rfl
  ended := by
    intro k e n hk he
    have hlt := (List.getElem?_eq_some_iff.mp hk).1
    obtain ⟨hn, hposted⟩ := h.ended k e n hk he
    refine ⟨?_, ?_⟩
    · have hne : (s.reaps.length == k) = false := beq_false_of_ne (Nat.ne_of_gt hlt)
      rw [hn]
      simp [ClientState.handOver, ClientState.invocations, List.countP_append, hne]
    · exact fun c hc => List.mem_append_left _ (hposted c hc)

/-- A `reap` that succeeds has found the queue empty. -/
theorem delivering_finish (h : Delivering s) {d : Drain} {ret : Except Error Nat}
    (hpc : s.pc.count = d.count) (hret : ∀ n, ret = .ok n → n = d.count ∧ s.ring.cq = []) :
    Delivering (s.finish d ret) where
  conserved := h.conserved
  seen := h.seen
  handed := h.handed
  labels := by
    intro x hx
    refine Nat.le_trans (h.labels x hx) ?_
    simp [ClientState.finish]
  current := by
    simp only [ClientState.finish, ClientState.invocations, ClientPc.count, List.countP_eq_zero]
    intro x hx hlabel
    have hle := h.labels x hx
    rw [beq_iff_eq.mp hlabel, List.length_append, List.length_singleton] at hle
    exact absurd hle (Nat.not_succ_le_self _)
  ended := by
    intro k e n hk he
    rcases getElem?_concat_cases hk with hk | ⟨rfl, rfl⟩
    · exact h.ended k e n hk he
    · obtain ⟨rfl, hempty⟩ := hret n he
      refine ⟨(h.current.trans hpc).symm, ?_⟩
      intro c hc
      simpa [ClientState.finish, QueuePair.posted, hempty] using hc

theorem delivering_step (h : Delivering s) (hs : clientStep s a = some s') : Delivering s' := by
  cases clientStep_cases hs with
  | @submit u k hpc => exact delivering_submit h u k
  | @reap w hpc =>
    refine h.of_pc ?_
    rw [hpc]
    cases w <;> rfl
  | @refused k e hpc herr => exact (delivering_submit h 0 k).of_pc rfl
  | @accepted k hpc hok =>
    refine (delivering_submit h 0 k).of_pc ?_
    rw [submit_pc, hpc]
    rfl
  | waited hpc hcq | peeked hpc hcq => exact delivering_handOver h (by rw [hpc]; rfl) hcq
  | waitFailed hpc =>
    refine delivering_finish h (by rw [hpc]; rfl) ?_
    intro n hn
    cases hn
  | callbackReturn hpc =>
    refine h.of_pc ?_
    rw [hpc]
    rfl
  | drained hpc hcq =>
    refine delivering_finish h (by rw [hpc]; rfl) ?_
    intro n hn
    cases hn
    exact ⟨rfl, hcq⟩
  | post hq =>
    refine h.of_ring (h.conserved.post hq) ?_
    obtain ⟨_, _, _, rfl⟩ := QueuePair.post_cases hq
    rfl

theorem reach_delivering {G : ClientState → ClientAct → Prop} (h : Reach clientSystem G s) :
    Delivering s :=
  h.invariant (fun _ h0 => delivering_init h0) fun _ _ _ hP _ hs => delivering_step hP hs

theorem completionResult_error (cqe : CqeResult) :
    (∃ e, completionResult cqe = .error e) ↔ cqe.res < 0 := by
  unfold completionResult
  simp only
  split
  · next hneg => exact ⟨fun _ => hneg, fun _ => ⟨_, rfl⟩⟩
  · next hpos =>
    refine ⟨?_, fun hneg => absurd hneg hpos⟩
    rintro ⟨e, he⟩
    cases he

/-- A `reap` that succeeds returns the number of its callback invocations, and each
request whose completion `c` was posted before its last peek has been handed to one
callback invocation, with its own token, and with an error if and only if its result
is negative. -/
theorem reap_delivers (h : Reach clientSystem (fun _ _ => True) s) {k n : Nat} {e : ReapEnd}
    (hk : s.reaps[k]? = some e) (hret : e.ret = .ok n) :
    n = s.invocations k ∧
    ∀ (r : Nat) (token : UInt64) (c : RingCqe), s.ring.tokens[r]? = some token → c ∈ e.posted →
      c.req = r →
      ∃ d, s.delivered.filter (·.cqe.req == r) = [d] ∧ d.cqe = c ∧ d.token = token ∧
        ((∃ err, d.result = .error err) ↔ c.res.res < 0) := by
  have hinv := reach_delivering h
  obtain ⟨hn, hposted⟩ := hinv.ended k e n hk hret
  refine ⟨hn, ?_⟩
  rintro r token c htoken hc rfl
  have hseen := hposted c hc
  rw [← hinv.seen] at hseen
  obtain ⟨d, hd, rfl⟩ := List.mem_map.mp hseen
  obtain ⟨hdtoken, hdresult⟩ := hinv.handed d hd
  have hnodup : (s.delivered.map (·.cqe.req)).Nodup := by
    have hn' := hinv.conserved.seen_nodup
    rw [← hinv.seen, List.map_map] at hn'
    exact hn'
  refine ⟨d, QueuePair.filter_number hnodup hd, rfl, ?_, ?_⟩
  · have hown := hinv.conserved.tokens d.cqe (List.mem_append_left _ (hposted _ hc))
    rw [htoken] at hown
    rw [hdtoken]
    exact (Option.some.inj hown).symm
  · rw [hdresult]
    exact completionResult_error d.cqe.res

/-- One request is completed before a blocking `reap`; its callback submits another
one, which completes with an error while the queue is being drained. -/
def drainedWhilePosting : List ClientAct :=
  [.submit 7 (some 1), .post 0 3 0, .reap true, .waitCqe true, .submit 9 (some 1), .post 1 (-5) 0,
    .callbackReturn, .peekCqe, .callbackReturn, .peekCqe]

theorem reap_delivers_two :
    ∃ s, Reach clientSystem (fun _ _ => True) s ∧
      s.reaps.map (fun e => (e.ret, e.posted.length)) = [(.ok 2, 2)] ∧
      (2 = s.invocations 0 ∧ ∃ d, s.delivered.filter (·.cqe.req == 1) = [d] ∧ d.token = 9 ∧
        ∃ err, d.result = .error err) := by
  have hinit : clientSystem.init { flags := 0, depth := 64 } :=
    ⟨3, 0, 64, by decide, rfl⟩
  obtain ⟨s, hs⟩ : ∃ s, replay clientSystem (fun _ _ => true) { flags := 0, depth := 64 }
      drainedWhilePosting = some s := ⟨_, rfl⟩
  have hreach := replay_reach (fun _ _ _ => trivial) (.init hinit) hs
  cases hs
  obtain ⟨hn, hall⟩ := reap_delivers hreach (k := 0) rfl rfl
  obtain ⟨d, hd, _, htoken, herr⟩ := hall 1 9 _ rfl (List.mem_cons_of_mem _ List.mem_cons_self) rfl
  exact ⟨_, hreach, rfl, hn, d, hd, htoken, herr.mpr (by decide)⟩

end Deepspan
