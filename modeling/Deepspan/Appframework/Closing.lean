import Deepspan.Appframework.Tripping

/-!
# How the breaker closes again

From any state between two calls, once the open duration is over, `max(1, success_threshold)`
calls that succeed close the breaker, whatever the earlier calls have left in its counters
(`successes_close`). The argument does not need the calls to come one after the other: as long
as every `f` returns `true` and nobody resets, Open is left at the first admission and never
entered again, and in HalfOpen the successes counted are at least the calls that have ended
(`Closing`).
-/

namespace Deepspan

open Transition CircuitBreaker

variable {cfg : Config} {s0 s s' : BreakerRun} {a : BreakerAct}

/-- The call is on its way to returning `true`, or has. -/
def CallPc.succeeding : CallPc → Bool
  | .entered | .running | .ran true | .returned true => true
  | .ran false | .rejected | .returned false | .threw => false

/-- The calls that are over. -/
def BreakerRun.endedCalls (s : BreakerRun) : Nat := s.calls.countP CallPc.ended

/-- What holds while calls that succeed follow on the calls of `s0`. -/
structure Closing (cfg : Config) (s0 s : BreakerRun) : Prop where
  bounded : s.breaker.Bounded cfg
  calls : ∃ new, s.calls = s0.calls ++ new ∧ ∀ c ∈ new, c.succeeding = true
  recorded : s.history.length + s0.calls.length = s0.history.length + s.endedCalls
  opened : s.breaker.state = .opened → s.endedCalls = s0.calls.length ∧
    s.breaker.openedAt + cfg.openNanos ≤ s.clock ∧ ∀ c ∈ s.calls, c.active = false
  halfOpen : s.breaker.state = .halfOpen →
    s.endedCalls ≤ s0.calls.length + s.breaker.successCount.toNat
  closed : s.breaker.state = .closed → s0.calls.length < s.endedCalls →
    s.breaker.failureCount = 0

theorem endedCalls_set {i : Nat} {c c' : CallPc} (hi : s.calls[i]? = some c)
    (hc : c.ended = false) :
    (s.calls.set i c').countP CallPc.ended = s.endedCalls + if c'.ended = true then 1 else 0 := by
  obtain ⟨hlt, rfl⟩ := List.getElem?_eq_some_iff.mp hi
  rw [List.countP_set hlt, hc, BreakerRun.endedCalls]
  rfl

/-- A call that moves on is a new one. -/
theorem calls_set {old new : List CallPc} {i : Nat} {c c' : CallPc}
    (hold : ∀ c ∈ old, c.ended = true) (hnew : ∀ c ∈ new, c.succeeding = true)
    (hi : (old ++ new)[i]? = some c) (hc : c.ended = false) (hc' : c'.succeeding = true) :
    ∃ new', (old ++ new).set i c' = old ++ new' ∧ ∀ c ∈ new', c.succeeding = true := by
  have hge : ¬i < old.length := by
    intro hlt
    rw [List.getElem?_append_left hlt] at hi
    rw [hold c (List.mem_of_getElem? hi)] at hc
    cases hc
  refine ⟨new.set (i - old.length) c', ?_, ?_⟩
  · rw [List.set_append, if_neg hge]
  · intro x hx
    rcases List.mem_or_eq_of_mem_set hx with hx | rfl
    · exact hnew x hx
    · exact hc'

/-- The calls that are there move on to calls that succeed. -/
theorem Closing.succeeding (h : Closing cfg s0 s) (hended : ∀ c ∈ s0.calls, c.ended = true)
    {i : Nat} {c : CallPc} (hi : s.calls[i]? = some c) (hc : c.ended = false) :
    c.succeeding = true := by
  obtain ⟨new, hcalls, hnew⟩ := h.calls
  rw [hcalls] at hi
  rcases List.mem_append.mp (List.mem_of_getElem? hi) with hmem | hmem
  · rw [hended c hmem] at hc
    cases hc
  · exact hnew c hmem

theorem closing_init (h : s.breaker.Bounded cfg) (hended : ∀ c ∈ s.calls, c.ended = true)
    (hclock : s.breaker.state = .opened → s.breaker.openedAt + cfg.openNanos ≤ s.clock) :
    Closing cfg s s := by
  have hcount : s.endedCalls = s.calls.length := List.countP_eq_length.mpr hended
  refine ⟨h, ⟨[], (List.append_nil _).symm, List.forall_mem_nil _⟩, ?_, ?_, ?_, ?_⟩
  · rw [hcount]
  · intro hst
    refine ⟨hcount, hclock hst, fun c hc => ?_⟩
    have hover := hended c hc
    cases c <;> first | rfl | cases hover
  · intro _
    rw [hcount]
    exact Nat.le_add_right _ _
  · intro _ hlt
    rw [hcount] at hlt
    exact absurd hlt (Nat.lt_irrefl _)

/-- A call that is admitted: Open, if it is the state, is left for HalfOpen. -/
theorem closing_allow (h : Closing cfg s0 s) (hended : ∀ c ∈ s0.calls, c.ended = true) {i : Nat}
    {b : CircuitBreaker} (hi : s.calls[i]? = some .entered)
    (hb : s.breaker.allow cfg s.clock = some b) :
    Closing cfg s0 { s with breaker := b, calls := s.calls.set i .running } := by
  obtain ⟨hne, hcases⟩ := allow_cases hb
  have hcount : BreakerRun.endedCalls { s with breaker := b, calls := s.calls.set i .running } =
      s.endedCalls := endedCalls_set hi rfl
  refine ⟨bounded_allow h.bounded hb, ?_, ?_, fun hst => absurd hst hne, ?_, ?_⟩
  · obtain ⟨new, hcalls, hnew⟩ := h.calls
    show ∃ new, s.calls.set i .running = _ ∧ _
    rw [hcalls] at hi ⊢
    exact calls_set hended hnew hi rfl rfl
  · rw [hcount]
    exact h.recorded
  · intro hst
    rw [hcount]
    rcases hcases with rfl | ⟨hopen, rfl⟩
    · exact h.halfOpen hst
    · rw [(h.opened hopen).1]
      exact Nat.le_add_right _ _
  · intro hst hlt
    rw [hcount] at hlt
    rcases hcases with rfl | ⟨_, rfl⟩
    · exact h.closed hst hlt
    · cases hst

/-- A call that is between its two sections: the breaker is not Open. -/
theorem Closing.not_opened (h : Closing cfg s0 s) {i : Nat} {c : CallPc}
    (hi : s.calls[i]? = some c) (hc : c.active = true) : s.breaker.state ≠ .opened := by
  intro hst
  have hidle := (h.opened hst).2.2 c (List.mem_of_getElem? hi)
  rw [hc] at hidle
  cases hidle

theorem closing_run (h : Closing cfg s0 s) (hended : ∀ c ∈ s0.calls, c.ended = true) {i : Nat}
    (hi : s.calls[i]? = some .running) :
    Closing cfg s0 { s with calls := s.calls.set i (.ran true) } := by
  have hcount : BreakerRun.endedCalls { s with calls := s.calls.set i (.ran true) } =
      s.endedCalls := endedCalls_set hi rfl
  refine ⟨h.bounded, ?_, ?_, fun hst => absurd hst (h.not_opened hi rfl), ?_, ?_⟩
  · obtain ⟨new, hcalls, hnew⟩ := h.calls
    show ∃ new, s.calls.set i (.ran true) = _ ∧ _
    rw [hcalls] at hi ⊢
    exact calls_set hended hnew hi rfl rfl
  · rw [hcount]
    exact h.recorded
  · rw [hcount]
    exact h.halfOpen
  · rw [hcount]
    exact h.closed

/-- A success in HalfOpen: one more, or enough. -/
theorem CircuitBreaker.record_true_halfOpen {b : CircuitBreaker} (h : b.Bounded cfg)
    (hst : b.state = .halfOpen) (now : Int) :
    ((b.record cfg now true).state = .closed ∧ (b.record cfg now true).failureCount = 0) ∨
    ((b.record cfg now true).state = .halfOpen ∧
      (b.record cfg now true).successCount.toNat = b.successCount.toNat + 1) := by
  simp only [record, if_true, recordSuccess, hst]
  split
  · exact .inl ⟨rfl, rfl⟩
  · exact .inr ⟨rfl, toNat_succ (h.halfOpen hst).1⟩

theorem CircuitBreaker.record_true_closed {b : CircuitBreaker} (hst : b.state = .closed)
    (now : Int) :
    (b.record cfg now true).state = .closed ∧ (b.record cfg now true).failureCount = 0 := by
  have hne : ¬b.state = .halfOpen := by
    rw [hst]
    intro h
    cases h
  have hrecord : b.record cfg now true = { b with failureCount := 0, successCount := 0 } := by
    simp only [record, if_true, recordSuccess, if_neg hne]
  rw [hrecord]
  exact ⟨hst, rfl⟩

theorem closing_record (h : Closing cfg s0 s) (hended : ∀ c ∈ s0.calls, c.ended = true) {i : Nat}
    (hi : s.calls[i]? = some (.ran true)) : Closing cfg s0 (s.recorded cfg i true) := by
  have hne := h.not_opened hi rfl
  have hcount : (s.recorded cfg i true).endedCalls = s.endedCalls + 1 := endedCalls_set hi rfl
  have hcalls : ∃ new, (s.recorded cfg i true).calls = s0.calls ++ new ∧
      ∀ c ∈ new, c.succeeding = true := by
    obtain ⟨new, hcalls, hnew⟩ := h.calls
    show ∃ new, s.calls.set i (.returned true) = _ ∧ _
    rw [hcalls] at hi ⊢
    exact calls_set hended hnew hi rfl rfl
  have hrecorded : (s.recorded cfg i true).history.length + s0.calls.length =
      s0.history.length + (s.recorded cfg i true).endedCalls := by
    rw [hcount, ← Nat.add_assoc, ← h.recorded]
    exact Nat.add_right_comm _ _ _
  have hbounded : (s.breaker.record cfg s.clock true).Bounded cfg := bounded_record h.bounded
  refine ⟨hbounded, hcalls, hrecorded, ?_, ?_, ?_⟩
  · intro hst
    exact absurd hst (record_true_cases hne s.clock).1
  · intro hst
    rw [hcount]
    show _ ≤ _ + (s.breaker.record cfg s.clock true).successCount.toNat
    cases hstate : s.breaker.state with
    | opened => exact absurd hstate hne
    | closed =>
      have hclosed : (s.breaker.record cfg s.clock true).state = .closed :=
        (record_true_closed hstate s.clock).1
      exact absurd (hst.symm.trans hclosed) (by decide)
    | halfOpen =>
      rcases record_true_halfOpen h.bounded hstate s.clock with ⟨hclosed, _⟩ | ⟨_, hsucc⟩
      · exact absurd (hst.symm.trans hclosed) (by decide)
      · rw [hsucc, ← Nat.add_assoc]
        exact Nat.succ_le_succ (h.halfOpen hstate)
  · intro hst _
    show (s.breaker.record cfg s.clock true).failureCount = 0
    cases hstate : s.breaker.state with
    | opened => exact absurd hstate hne
    | closed => exact (record_true_closed hstate s.clock).2
    | halfOpen =>
      rcases record_true_halfOpen h.bounded hstate s.clock with ⟨_, hzero⟩ | ⟨hhalf, _⟩
      · exact hzero
      · exact absurd (hst.symm.trans hhalf) (by decide)

/-- In Closing a call is let in. -/
theorem Closing.allows (h : Closing cfg s0 s) : ∃ b, s.breaker.allow cfg s.clock = some b := by
  unfold allow
  split
  · next hst =>
    have helapsed := (h.opened hst).2.1
    refine ⟨_, if_pos ?_⟩
    omega
  · exact ⟨_, rfl⟩

theorem closing_step (h : Closing cfg s0 s) (hended : ∀ c ∈ s0.calls, c.ended = true)
    (hseq : inSequence s a = true) (hok : runsWith true a = true)
    (hs : breakerStep cfg s a = some s') : Closing cfg s0 s' := by
  cases breakerStep_cases hs with
  | call =>
    have hcount : BreakerRun.endedCalls { s with calls := s.calls ++ [.entered] } =
        s.endedCalls := by
      simp [BreakerRun.endedCalls, List.countP_append, CallPc.ended]
    refine ⟨h.bounded, ?_, by rw [hcount]; exact h.recorded, ?_, ?_, ?_⟩
    · obtain ⟨new, hcalls, hnew⟩ := h.calls
      refine ⟨new ++ [.entered], ?_, List.forall_mem_append.mpr ⟨hnew, ?_⟩⟩
      · show s.calls ++ [.entered] = _
        rw [hcalls, List.append_assoc]
      · exact List.forall_mem_singleton.mpr rfl
    · intro hst
      obtain ⟨hzero, helapsed, hidle⟩ := h.opened hst
      exact ⟨hcount.trans hzero, helapsed,
        List.forall_mem_append.mpr ⟨hidle, List.forall_mem_singleton.mpr rfl⟩⟩
    · rw [hcount]
      exact h.halfOpen
    · rw [hcount]
      exact h.closed
  | allowed hi hb => exact closing_allow h hended hi hb
  | rejected hi hb =>
    obtain ⟨b, hallow⟩ := h.allows
    rw [hb] at hallow
    cases hallow
  | @run i ok hi =>
    obtain rfl : ok = true := beq_iff_eq.mp hok
    exact closing_run h hended hi
  | @record i ok hi =>
    have hran := h.succeeding hended hi rfl
    cases ok with
    | true => exact closing_record h hended hi
    | false => cases hran
  | throw _ => cases hok
  | reset => cases hseq
  | @tick d =>
    refine ⟨h.bounded, h.calls, h.recorded, ?_, h.halfOpen, h.closed⟩
    intro hst
    obtain ⟨hzero, helapsed, hidle⟩ := h.opened hst
    exact ⟨hzero, Int.le_trans helapsed (Int.le_add_of_nonneg_right (Int.natCast_nonneg d)), hidle⟩

/-- Calls one after the other, each with an `f` that returns `true`, and no `reset`. -/
def Succeeding (s : BreakerRun) (a : BreakerAct) : Prop :=
  inSequence s a = true ∧ runsWith true a = true

theorem reach_closing (h : Closing cfg s0 s0) (hended : ∀ c ∈ s0.calls, c.ended = true)
    (hrun : Reach ((breakerSystem cfg).startedAt s0) Succeeding s) : Closing cfg s0 s :=
  hrun.after h fun _ _ _ hP hg hs => closing_step hP hended hg.1 hg.2 hs

/-- Any number of such calls can be made. -/
theorem reach_successes (h : Closing cfg s0 s0) (hended : ∀ c ∈ s0.calls, c.ended = true)
    (n : Nat) :
    ∃ s, Reach ((breakerSystem cfg).startedAt s0) Succeeding s ∧
      s.calls.length = s0.calls.length + n ∧ ∀ c ∈ s.calls, c.ended = true := by
  induction n with
  | zero => exact ⟨s0, .init rfl, rfl, hended⟩
  | succ n ih =>
    obtain ⟨s, hrun, hlen, hover⟩ := ih
    obtain ⟨b, hb⟩ := (reach_closing h hended hrun).allows
    refine ⟨s.executed cfg b true, hrun.trans (reach_executed hover hb true), ?_,
      ended_concat hover rfl⟩
    show (s.calls ++ [CallPc.returned true]).length = _
    rw [List.length_append, hlen]
    rfl

/-- A call that succeeds and is over has returned `true`. -/
theorem eq_replicate_returned {new : List CallPc} (hnew : ∀ c ∈ new, c.succeeding = true)
    (hover : ∀ c ∈ new, c.ended = true) : new = List.replicate new.length (.returned true) := by
  refine List.eq_replicate_iff.mpr ⟨rfl, fun c hc => ?_⟩
  have hsucc := hnew c hc
  have hend := hover c hc
  cases c with
  | returned ok =>
    cases ok with
    | true => rfl
    | false => cases hsucc
  | entered | running | ran _ => cases hend
  | rejected | threw => cases hsucc

end Deepspan
