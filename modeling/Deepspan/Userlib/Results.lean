import Deepspan.Kernel.Requests
import Deepspan.Userlib.SubmitAndWait

/-!
# The result words on their way to the callback

The work item of the driver passes the status of a response header to
`io_uring_cmd_done` as the first result and its two result words, packed, as the
second. `AsyncClient::create` sets its ring up without 32-byte completions, so that
the second one does not arrive, and `reap` fills in `status` only. A callback is given
the words of the header if and only if the status is negative, where an error is due,
or the words are zero (`result_words_iff`).
-/

namespace Deepspan

open Transition

/-- `v` is what the header says: the status with both words, or an error. -/
def ResultHdr.CarriedBy (hdr : ResultHdr) (v : Except Error DeepspanResult) : Prop :=
  (0 ≤ hdr.status → v = .ok ⟨hdr.status, hdr.resultLo, hdr.resultHi⟩) ∧
  (hdr.status < 0 → ∃ e, v = .error e)

/-- The completion of a ring set up with `flags` that the driver's completion posts. -/
def Cqe.inRing (c : Cqe) (flags : UInt32) : CqeResult :=
  cmdDone flags (Int32.ofInt c.status) c.res2

variable {s s' : ClientState} {a : ClientAct}

/-- `create` is the only one to choose the flags. -/
theorem clientStep_flags (h : clientStep s a = some s') : s'.flags = s.flags := by
  have hsubmit (u : UInt64) (k : Option Nat) : (s.submit u k).2.flags = s.flags := by
    rcases submit_cases s u k with ⟨_, hs⟩ | ⟨_, _, hs⟩ | ⟨_, _, _, hs⟩ <;> rw [hs]
  cases clientStep_cases h with
  | @submit u k hpc => exact hsubmit u k
  | @refused k e hpc herr => exact hsubmit 0 k
  | @accepted k hpc hok => exact hsubmit 0 k
  | _ => rfl

theorem reach_flags {G : ClientState → ClientAct → Prop} (h : Reach clientSystem G s) :
    s.flags = 0 := by
  refine h.invariant (P := fun s => s.flags = 0) ?_ ?_
  · intro s h0
    obtain ⟨depth, rfl⟩ := clientSystem_init h0
    rfl
  · intro s a s' hP _ hs
    exact (clientStep_flags hs).trans hP

/-- What `submit_and_wait` has captured, and has returned, was given to its callback. -/
structure Capturing (s : ClientState) : Prop where
  callback : ∀ d, s.pc = .callback d → d.caller = .user
  current : ∀ d own, s.pc = .peekCqe d → d.caller = .submitAndWait own →
    ∃ x ∈ s.delivered, d.captured = x.result
  ended : ∀ e ∈ s.syncs, e.reaped = true → ∃ x ∈ s.delivered, e.value = x.result

theorem Capturing.of_delivered (h : Capturing s) (hpc : s'.pc = s.pc)
    (hdel : s'.delivered = s.delivered) (hsync : s'.syncs = s.syncs) : Capturing s' where
  callback := by
    rw [hpc]
    exact h.callback
  current := by
    rw [hpc, hdel]
    exact h.current
  ended := by
    rw [hsync, hdel]
    exact h.ended

theorem capturing_submit (h : Capturing s) (u : UInt64) (k : Option Nat) :
    Capturing (s.submit u k).2 := by
  rcases submit_cases s u k with ⟨_, hs⟩ | ⟨_, _, hs⟩ | ⟨n, _, _, hs⟩
  · rw [hs]
    exact h
  · rw [hs]
    exact h.of_delivered rfl rfl rfl
  · rw [hs]
    exact h.of_delivered rfl rfl rfl

theorem capturing_handOver (h : Capturing s) (d : Drain) (cqe : RingCqe) (rest : List RingCqe) :
    Capturing (s.handOver d cqe rest) where
  callback := by
    intro d' hpc
    simp only [ClientState.handOver] at hpc
    split at hpc
    · next hcaller =>
      cases hpc
      exact hcaller
    · cases hpc
  current := by
    intro d' own hpc hcaller
    refine ⟨_, List.mem_append_right _ List.mem_cons_self, ?_⟩
    simp only [ClientState.handOver] at hpc
    split at hpc
    · cases hpc
    · cases hpc
      rfl
  ended := by
    intro e he hreaped
    obtain ⟨x, hx, hval⟩ := h.ended e he hreaped
    exact ⟨x, List.mem_append_left _ hx, hval⟩

theorem capturing_finish (h : Capturing s) {d : Drain} {ret : Except Error Nat}
    (hret : ∀ n, ret = .ok n → s.pc = .peekCqe d) : Capturing (s.finish d ret) where
  callback := by
    intro d' hpc
    cases hpc
  current := by
    intro d' own hpc
    cases hpc
  ended := by
    intro e he hreaped
    simp only [ClientState.finish] at he
    split at he
    · exact h.ended e he hreaped
    · rcases List.mem_append.mp he with he | he
      · exact h.ended e he hreaped
      · rw [List.mem_singleton.mp he] at hreaped
        cases hreaped
    · next own n hcaller =>
      rcases List.mem_append.mp he with he | he
      · exact h.ended e he hreaped
      · rw [List.mem_singleton.mp he]
        exact h.current d own (hret n rfl) hcaller

theorem capturing_step (h : Capturing s) (hs : clientStep s a = some s') : Capturing s' := by
  have huser {t : ClientState} (ht : Capturing t) {pc : ClientPc}
      (hpc : ∀ d, pc = .peekCqe d ∨ pc = .callback d → d.caller = .user) :
      Capturing { t with pc := pc } := by
    refine ⟨fun d hd => hpc d (.inr hd), ?_, ht.ended⟩
    intro d own hd hcaller
    rw [hpc d (.inl hd)] at hcaller
    cases hcaller
  cases clientStep_cases hs with
  | @submit u k hpc => exact capturing_submit h u k
  | @reap w hpc =>
    refine huser h ?_
    intro d hd
    cases w <;> rcases hd with hd | hd <;> cases hd
    rfl
  | @refused k e hpc herr =>
    have hsub := capturing_submit h 0 k
    refine ⟨hsub.callback, hsub.current, ?_⟩
    intro x hx hreaped
    rcases List.mem_append.mp hx with hx | hx
    · exact hsub.ended x hx hreaped
    · rw [List.mem_singleton.mp hx] at hreaped
      cases hreaped
  | @accepted k hpc hok =>
    refine huser (capturing_submit h 0 k) ?_
    intro d hd
    rcases hd with hd | hd <;> cases hd
  | @waited d cqe rest hpc hcq | @peeked d cqe rest hpc hcq => exact capturing_handOver h d cqe rest
  | waitFailed hpc =>
    refine capturing_finish h ?_
    intro n hn
    cases hn
  | @callbackReturn d hpc =>
    refine huser h ?_
    intro d' hd
    rcases hd with hd | hd <;> cases hd
    exact h.callback d hpc
  | drained hpc hcq => exact capturing_finish h fun _ _ => hpc
  | post hq => exact h.of_delivered rfl rfl rfl

theorem reach_capturing {G : ClientState → ClientAct → Prop} (h : Reach clientSystem G s) :
    Capturing s := by
  refine h.invariant ?_ fun _ _ _ hP _ hs => capturing_step hP hs
  intro s h0
  obtain ⟨depth, rfl⟩ := clientSystem_init h0
  refine ⟨?_, ?_, ?_⟩
  · intro d hd
    cases hd
  · intro d own hd
    cases hd
  · intro e he
    cases he

/-- What is left of a header once it has gone through a completion of the client's
ring. -/
theorem carriedBy_iff (hdr : ResultHdr) :
    hdr.CarriedBy (completionResult (cmdDone 0 hdr.status hdr.res2)) ↔
      hdr.status < 0 ∨ (hdr.resultLo = 0 ∧ hdr.resultHi = 0) := by
  unfold ResultHdr.CarriedBy completionResult cmdDone
  simp only
  rcases Decidable.em (hdr.status < 0) with hneg | hpos
  · rw [if_pos hneg]
    refine ⟨fun _ => .inl hneg, fun _ => ⟨?_, fun _ => ⟨_, rfl⟩⟩⟩
    intro hle
    exact absurd hneg (Int32.not_lt.mpr hle)
  · rw [if_neg hpos]
    refine ⟨?_, ?_⟩
    · rintro ⟨hok, _⟩
      have heq := Except.ok.inj (hok (Int32.not_lt.mp hpos))
      injection heq with _ hlo hhi
      exact .inr ⟨hlo.symm, hhi.symm⟩
    · rintro (hneg | ⟨hlo, hhi⟩)
      · exact absurd hneg hpos
      · refine ⟨fun _ => ?_, fun hneg => absurd hneg hpos⟩
        rw [hlo, hhi]

/-- For every completion `c` of every run of the driver: the device has written one
header for its request, and in every run of a client, the callback that is handed `c`
is given what the header says if and only if the condition holds. What
`submit_and_wait` returns was given to its callback. -/
theorem result_words_iff {k : KernelState} (hk : Reach kernelSystem (fun _ _ => True) k) {c : Cqe}
    (hc : c ∈ k.cqes) (h : Reach clientSystem (fun _ _ => True) s) :
    ∃ hdr : ResultHdr, (∀ hdr', (c.req, hdr') ∈ k.written ↔ hdr' = hdr) ∧
      (∀ d ∈ s.delivered, d.cqe.res = c.inRing s.flags →
        (hdr.CarriedBy d.result ↔ hdr.status < 0 ∨ (hdr.resultLo = 0 ∧ hdr.resultHi = 0))) ∧
      (∀ e ∈ s.syncs, e.reaped = true → ∃ d ∈ s.delivered, e.value = d.result) := by
  obtain ⟨hdr, hwritten, hstatus, hres2⟩ := (reach_audited hk).words hc
  refine ⟨hdr, hwritten, ?_, (reach_capturing h).ended⟩
  intro d hd hring
  obtain ⟨_, hresult⟩ := (reach_delivering h).handed d hd
  rw [hresult, hring, Cqe.inRing, reach_flags h, hstatus, hres2, Int32.ofInt_toInt]
  exact carriedBy_iff hdr

/-- The work item completes the first request with the words 7 and 8. -/
def firstDone : List KernelAct :=
  firstCompletion ++ schedule [(1, .startWork), (6, .worker)]

theorem firstDone_reach :
    ∃ k, Reach kernelSystem (fun _ _ => True) k ∧ k.cqes = [⟨0, 0, 7 + 8 * 2 ^ 32⟩] ∧
      k.written = [(0, ⟨0, 7, 8⟩)] := by
  obtain ⟨k, hrun, hview⟩ := Option.map_eq_some_iff.mp (show
    (replay kernelSystem (fun _ _ => true) .initial firstDone).map
        (fun s => (s.cqes, s.written)) =
      some ([⟨0, 0, 7 + 8 * 2 ^ 32⟩], [(0, ⟨0, 7, 8⟩)]) by decide)
  have hinit : Reach kernelSystem (fun _ _ => True) .initial := .init rfl
  exact ⟨k, replay_reach (fun _ _ _ => trivial) hinit hrun, congrArg Prod.fst hview,
    congrArg Prod.snd hview⟩

/-- A client submits a request, and reaps a completion with the results `ret` and
`res2`. -/
def reapOne (ret : Int32) (res2 : UInt64) : List ClientAct :=
  [.submit 9 (some 1), .post 0 ret res2, .reap true, .waitCqe true]

theorem reapOne_reach (ret : Int32) (res2 : UInt64) :
    ∃ s, ∃ d ∈ s.delivered, Reach clientSystem (fun _ _ => True) s ∧ s.flags = 0 ∧
      d.cqe.res = cmdDone 0 ret res2 ∧ d.result = completionResult (cmdDone 0 ret res2) := by
  have hinit : clientSystem.init { flags := 0, depth := 64 } := ⟨3, 0, 64, by decide, rfl⟩
  obtain ⟨s, hs, hflags, hdel⟩ : ∃ s, replay clientSystem (fun _ _ => true)
      { flags := 0, depth := 64 } (reapOne ret res2) = some s ∧ s.flags = 0 ∧
      s.delivered = [⟨0, ⟨0, 9, cmdDone 0 ret res2⟩, 9, completionResult (cmdDone 0 ret res2)⟩] :=
    ⟨_, rfl, rfl, rfl⟩
  have hreach := replay_reach (fun _ _ _ => trivial) (.init hinit) hs
  refine ⟨s, ⟨0, ⟨0, 9, cmdDone 0 ret res2⟩, 9, _⟩, ?_, hreach, hflags, rfl, rfl⟩
  rw [hdel]
  exact List.mem_cons_self

/-- The driver completes a request with the status 0 and the words 7 and 8, and the
callback is given the words 0 and 0. -/
theorem result_words_lost :
    ∃ (k : KernelState) (c : Cqe) (s : ClientState) (d : Delivery),
      Reach kernelSystem (fun _ _ => True) k ∧ c ∈ k.cqes ∧ k.written = [(c.req, ⟨0, 7, 8⟩)] ∧
      Reach clientSystem (fun _ _ => True) s ∧ d ∈ s.delivered ∧ d.cqe.res = c.inRing s.flags ∧
      d.result = .ok ⟨0, 0, 0⟩ ∧ ¬ResultHdr.CarriedBy ⟨0, 7, 8⟩ d.result := by
  obtain ⟨k, hk, hcqes, hwritten⟩ := firstDone_reach
  obtain ⟨s, d, hd, hs, hflags, hres, hresult⟩ := reapOne_reach 0 (7 + 8 * 2 ^ 32)
  refine ⟨k, ⟨0, 0, 7 + 8 * 2 ^ 32⟩, s, d, hk, ?_, hwritten, hs, hd, ?_, hresult, ?_⟩
  · rw [hcqes]
    exact List.mem_cons_self
  · rw [hres, hflags]
    rfl
  · rintro ⟨hok, _⟩
    rw [hresult] at hok
    injection Except.ok.inj (hok (by decide)) with _ hlo _
    exact absurd hlo (by decide)

/-- That run of the driver, and a client that is handed its completion. -/
theorem result_words_iff_first :
    ∃ (k : KernelState) (s : ClientState) (d : Delivery) (hdr : ResultHdr),
      Reach kernelSystem (fun _ _ => True) k ∧ Reach clientSystem (fun _ _ => True) s ∧
      d ∈ s.delivered ∧ (hdr.CarriedBy d.result ↔
        hdr.status < 0 ∨ (hdr.resultLo = 0 ∧ hdr.resultHi = 0)) := by
  obtain ⟨k, hk, hcqes, _⟩ := firstDone_reach
  obtain ⟨s, d, hd, hs, hflags, hres, _⟩ := reapOne_reach 0 (7 + 8 * 2 ^ 32)
  have hmem : (⟨0, 0, 7 + 8 * 2 ^ 32⟩ : Cqe) ∈ k.cqes := by
    rw [hcqes]
    exact List.mem_cons_self
  obtain ⟨hdr, _, hall, _⟩ := result_words_iff hk hmem hs
  refine ⟨k, s, d, hdr, hk, hs, hd, hall d hd ?_⟩
  rw [hres, hflags]
  rfl

end Deepspan
