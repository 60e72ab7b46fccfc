import Deepspan.Appframework.CircuitBreaker

/-!
# When the breaker opens, and for how long

1. `opened_blocks`: from the record step that opens the breaker at `t` on, every
   admission before `t + open_duration` is a rejection, whatever the calls that are
   still running report. Sequential calls that fail `failure_threshold` times in a
   row, without Open in between, open it (`failures_open`).
2. The converse of the second part fails. A success recorded in HalfOpen leaves
   `failure_count_` as it is, although a success in Closed clears it, and so does an
   `f` that throws, so that the failures that open the breaker need not be consecutive
   (`opens_on_scattered_failures`). They are in the runs that have no such execution
   after a failure (`opens_on_consecutive_failures`).
-/

namespace Deepspan

open Transition CircuitBreaker

variable {cfg : Config} {s s' : BreakerRun} {a : BreakerAct}

/-- Runs without `reset`. -/
def noReset (_ : BreakerRun) : BreakerAct → Bool
  | .reset => false
  | .call | .allow _ | .run _ _ | .throw _ | .record _ | .tick _ => true

/-- Runs without `reset` in which each call starts after the one before it is over. -/
def inSequence (s : BreakerRun) : BreakerAct → Bool
  | .call => s.calls.all CallPc.ended
  | .reset => false
  | .allow _ | .run _ _ | .throw _ | .record _ | .tick _ => true

theorem inSequence_noReset (s : BreakerRun) (a : BreakerAct) (h : inSequence s a = true) :
    noReset s a = true := by
  cases a with
  | reset => cases h
  | call | allow _ | run _ _ | throw _ | record _ | tick _ => rfl

/-! ## 1. Open blocks -/

/-- Opened at `t` or later, as long as the open duration since `t` is not over. -/
structure BlockedSince (cfg : Config) (t : Int) (s : BreakerRun) : Prop where
  clock : t ≤ s.clock
  opened : s.clock < t + cfg.openNanos → s.breaker.state = .opened ∧ t ≤ s.breaker.openedAt

theorem CircuitBreaker.allow_blocked {b : CircuitBreaker} {t now : Int} (hst : b.state = .opened)
    (hat : t ≤ b.openedAt) (hnow : now < t + cfg.openNanos) : b.allow cfg now = none := by
  unfold allow
  rw [if_pos hst]
  simp only
  rw [if_neg]
  omega

theorem CircuitBreaker.record_opened {b : CircuitBreaker} {t now : Int} {ok : Bool}
    (hst : b.state = .opened) (hat : t ≤ b.openedAt) (hnow : t ≤ now) :
    (b.record cfg now ok).state = .opened ∧ t ≤ (b.record cfg now ok).openedAt := by
  cases ok with
  | true =>
    have hne : ¬b.state = .halfOpen := by
      rw [hst]
      intro h
      cases h
    simp only [record, if_true, recordSuccess, if_neg hne]
    exact ⟨hst, hat⟩
  | false =>
    unfold record recordFailure
    simp only [Bool.false_eq_true, if_false]
    split
    · exact ⟨rfl, hnow⟩
    · exact ⟨hst, hat⟩

theorem breakerStep_clock (h : breakerStep cfg s a = some s') : s.clock ≤ s'.clock := by
  cases breakerStep_cases h with
  | @tick d => exact Int.le_add_of_nonneg_right (Int.natCast_nonneg d)
  | _ => exact Int.le_refl _

theorem blockedSince_step {t : Int} (h : BlockedSince cfg t s) (hg : noReset s a = true)
    (hs : breakerStep cfg s a = some s') : BlockedSince cfg t s' := by
  have hclock := breakerStep_clock hs
  refine ⟨Int.le_trans h.clock hclock, ?_⟩
  intro hlt
  obtain ⟨hst, hat⟩ := h.opened (Int.lt_of_le_of_lt hclock hlt)
  rcases breakerStep_breaker hs with hb | ha | ⟨ok, hb⟩ | ⟨rfl, _⟩
  · rw [hb]
    exact ⟨hst, hat⟩
  · rw [allow_blocked hst hat (Int.lt_of_le_of_lt hclock hlt)] at ha
    cases ha
  · rw [hb]
    exact record_opened hst hat h.clock
  · cases hg

/-- The record step that opens the breaker sets the opening time. -/
theorem blockedSince_record {i : Nat} (hs : breakerStep cfg s (.record i) = some s')
    (hopen : s'.breaker.state = .opened)
    (hput : s.breaker.state ≠ .opened ∨ s'.breaker.openedAt = s'.clock) :
    BlockedSince cfg s'.clock s' := by
  refine ⟨Int.le_refl _, fun _ => ⟨hopen, ?_⟩⟩
  rcases hput with hne | hat
  · simp only [breakerStep] at hs
    split at hs
    · next ok _ =>
      cases hs
      simp only [BreakerRun.recorded] at hopen ⊢
      cases ok with
      | true =>
        -- a success leaves Open alone and never leads to it
        simp only [record, if_true, recordSuccess] at hopen
        split at hopen
        · next hhalf =>
          split at hopen
          · cases hopen
          · rw [hhalf] at hopen
            cases hopen
        · exact absurd hopen hne
      | false =>
        unfold record recordFailure at hopen ⊢
        simp only [Bool.false_eq_true, if_false] at hopen ⊢
        split at hopen
        · next hge => exact Int.le_of_eq (by rw [if_pos hge])
        · exact absurd hopen hne
    · cases hs
  · exact Int.le_of_eq hat.symm

/-- A rejected call never runs its `f`. -/
theorem rejected_step {j : Nat} (h : s.calls[j]? = some .rejected)
    (hs : breakerStep cfg s a = some s') : s'.calls[j]? = some .rejected := by
  have hset {i : Nat} {c c' : CallPc} (hi : s.calls[i]? = some c) (hc : c ≠ .rejected) :
      (s.calls.set i c')[j]? = some .rejected := by
    refine getElem?_set_of_ne ?_ h
    rintro rfl
    rw [hi] at h
    exact hc (Option.some.inj h)
  cases breakerStep_cases hs with
  | call =>
    rw [← h]
    exact List.getElem?_append_left (List.getElem?_eq_some_iff.mp h).1
  | allowed hi _ | rejected hi _ => exact hset hi (by decide)
  | run hi | throw hi => exact hset hi (by decide)
  | record hi => exact hset hi (by intro hc; cases hc)
  | reset | tick => exact h

theorem blockedSince_allow {t : Int} {j : Nat} (h : BlockedSince cfg t s)
    (hlt : s.clock < t + cfg.openNanos) (hs : breakerStep cfg s (.allow j) = some s') :
    s'.calls[j]? = some .rejected := by
  obtain ⟨hst, hat⟩ := h.opened hlt
  simp only [breakerStep] at hs
  split at hs
  · next hj =>
    rw [allow_blocked hst hat hlt] at hs
    cases hs
    exact getElem?_set_self_of hj
  · cases hs

/-- After the record step from `s` to `s1` has opened the breaker, an admission within
the open duration is a rejection, and the call never runs its `f`. -/
theorem opened_blocks {i j : Nat} {s1 s2 s3 s4 : BreakerRun}
    (hrec : breakerStep cfg s (.record i) = some s1) (hopen : s1.breaker.state = .opened)
    (hput : s.breaker.state ≠ .opened ∨ s1.breaker.openedAt = s1.clock)
    (hrun : Reach ((breakerSystem cfg).startedAt s1) (fun s a => noReset s a = true) s2)
    (hallow : breakerStep cfg s2 (.allow j) = some s3) (hlt : s2.clock < s1.clock + cfg.openNanos)
    (hafter : Reach ((breakerSystem cfg).startedAt s3) (fun _ _ => True) s4) :
    s4.calls[j]? = some .rejected := by
  have hblocked : BlockedSince cfg s1.clock s2 :=
    hrun.after (blockedSince_record hrec hopen hput) fun _ _ _ hP hg hs => blockedSince_step hP hg hs
  exact hafter.after (P := fun s => s.calls[j]? = some .rejected)
    (blockedSince_allow hblocked hlt hallow) fun _ _ _ hP _ hs => rejected_step hP hs

/-! ## 2. Calls one after the other -/

/-- The executions that satisfy `p` in a row at the end of a history. -/
def inARow (p : Executed → Bool) (history : List Executed) : Nat := (history.takeWhile p).length

theorem inARow_cons {p : Executed → Bool} {e : Executed} {history : List Executed} :
    inARow p (e :: history) = if p e then inARow p history + 1 else 0 := by
  unfold inARow
  rw [List.takeWhile_cons]
  split
  · rfl
  · rfl

theorem length_le_inARow {p : Executed → Bool} {l : List Executed} (h : ∀ e ∈ l, p e = true)
    (before : List Executed) :
    l.length ≤ inARow p (l ++ before) := by
  unfold inARow
  rw [List.takeWhile_append_of_pos h, List.length_append]
  exact Nat.le_add_right _ _

theorem of_le_inARow {p : Executed → Bool} {l : List Executed} {n : Nat} (h : n ≤ inARow p l) :
    n ≤ l.length ∧ ∀ e ∈ l.take n, p e = true := by
  obtain ⟨rest, hl⟩ := List.takeWhile_prefix (l := l) p
  refine ⟨Nat.le_trans h (List.takeWhile_prefix p).length_le, ?_⟩
  intro e he
  rw [← hl, List.take_append_of_le_length h] at he
  exact List.all_eq_true.mp (List.all_takeWhile) e (List.mem_of_mem_take he)

/-- A failure that does not open the breaker. -/
def Executed.counted (e : Executed) : Bool := e.ok == some false && e.after != .opened

/-- A failure. -/
def Executed.failed (e : Executed) : Bool := e.ok == some false

/-- Between its two sections. -/
def CallPc.active : CallPc → Bool
  | .running | .ran _ => true
  | .entered | .rejected | .returned _ | .threw => false

/-- In sequential runs no call is active while the breaker is open, and the failures
since the last success or opening have all been counted. -/
structure SequentialCalls (cfg : Config) (s : BreakerRun) : Prop where
  bounded : s.breaker.Bounded cfg
  inTurn : AllButLast (fun c => c.ended = true) s.calls
  active : ∀ (i : Nat) (c : CallPc), s.calls[i]? = some c → c.active = true → s.breaker.state ≠ .opened
  counted : inARow Executed.counted s.history ≤ s.breaker.failureCount.toNat
  opened : s.breaker.state = .opened → inARow Executed.counted s.history = 0

theorem sequential_init (h : (breakerSystem cfg).init s) : SequentialCalls cfg s := by
  obtain ⟨hb, hcalls, hhist⟩ := h
  refine ⟨hb ▸ bounded_new, ?_, ?_, ?_, ?_⟩
  · rw [hcalls]
    exact allButLast_nil
  · intro i c hi
    rw [hcalls] at hi
    cases hi
  · rw [hhist]
    exact Nat.zero_le _
  · intro _
    rw [hhist]
    rfl

theorem CircuitBreaker.allow_cases {b b' : CircuitBreaker} {now : Int}
    (h : b.allow cfg now = some b') :
    b'.state ≠ .opened ∧
      (b' = b ∨ (b.state = .opened ∧ b' = { b with state := .halfOpen, failureCount := 0 })) := by
  unfold allow at h
  split at h
  · next hst =>
    simp only at h
    split at h
    · cases h
      refine ⟨?_, .inr ⟨hst, rfl⟩⟩
      intro h'
      cases h'
    · cases h
  · next hst =>
    cases h
    exact ⟨hst, .inl rfl⟩

/-- What a success does in Closed and HalfOpen: it clears the failures, or it is a
probe that is not the last one needed, and leaves them. -/
theorem CircuitBreaker.record_true_cases {b : CircuitBreaker} (hst : b.state ≠ .opened)
    (now : Int) :
    (b.record cfg now true).state ≠ .opened ∧
      ((b.record cfg now true).failureCount = 0 ∨
        (b.state = .halfOpen ∧ ¬b.successCount + 1 ≥ cfg.successThreshold ∧
          (b.record cfg now true).failureCount = b.failureCount)) := by
  simp only [record, if_true, recordSuccess]
  split
  · next hhalf =>
    split
    · refine ⟨?_, .inl rfl⟩
      intro h
      cases h
    · next hlt => exact ⟨hst, .inr ⟨hhalf, hlt, rfl⟩⟩
  · exact ⟨hst, .inl rfl⟩

/-- What a failure does there: it is counted, and opens the breaker at the threshold. -/
theorem CircuitBreaker.record_false_cases {b : CircuitBreaker} (h : b.Bounded cfg)
    (hst : b.state ≠ .opened) (now : Int) :
    (b.record cfg now false).failureCount.toNat = b.failureCount.toNat + 1 ∧
      (((b.record cfg now false).state = .opened ∧
          cfg.failureThreshold.toNat ≤ b.failureCount.toNat + 1) ∨
        ((b.record cfg now false).state = b.state ∧
          b.failureCount.toNat + 1 < cfg.failureThreshold.toNat)) := by
  have hsucc : (b.failureCount + 1).toNat = b.failureCount.toNat + 1 := toNat_succ (h.failures hst)
  unfold record recordFailure
  simp only [Bool.false_eq_true, if_false]
  split
  · next hge =>
    rw [ge_iff_le, UInt32.le_iff_toNat_le, hsucc] at hge
    exact ⟨hsucc, .inl ⟨rfl, hge⟩⟩
  · next hlt =>
    rw [ge_iff_le, UInt32.le_iff_toNat_le, hsucc] at hlt
    exact ⟨hsucc, .inr ⟨rfl, Nat.lt_of_not_le hlt⟩⟩

theorem sequential_call (h : SequentialCalls cfg s) (hended : ∀ c ∈ s.calls, c.ended = true) :
    SequentialCalls cfg { s with calls := s.calls ++ [.entered] } where
  bounded := h.bounded
  inTurn := allButLast_concat hended .entered
  active := by
    intro i c hi hc
    rcases getElem?_concat_cases hi with hi | ⟨_, rfl⟩
    · exact h.active i c hi hc
    · cases hc
  counted := h.counted
  opened := h.opened

/-- The call that moves on is the only one that is not over. -/
theorem SequentialCalls.active_set (h : SequentialCalls cfg s) {i : Nat} {c c' : CallPc}
    (hi : s.calls[i]? = some c) (hc : c.ended = false) :
    ∀ (j : Nat) (d : CallPc), (s.calls.set i c')[j]? = some d → d.active = true → d = c' := by
  intro j d hj hd
  rcases getElem?_set_cases hi hj with ⟨_, hdc⟩ | ⟨hji, hj⟩
  · exact hdc
  · have hended := h.inTurn.others hi (by rw [hc]; exact Bool.false_ne_true) hj hji
    cases d <;> cases hd <;> cases hended

theorem SequentialCalls.inTurn_set (h : SequentialCalls cfg s) {i : Nat} {c c' : CallPc}
    (hi : s.calls[i]? = some c) (hc : c.ended = false) :
    AllButLast (fun c => c.ended = true) (s.calls.set i c') :=
  h.inTurn.set hi (by rw [hc]; exact Bool.false_ne_true) c'

/-- Unless the breaker was open, the state after a record step is what the step was
about. -/
theorem sequential_record (h : SequentialCalls cfg s) {i : Nat} {ok : Bool}
    (hi : s.calls[i]? = some (.ran ok)) : SequentialCalls cfg (s.recorded cfg i ok) := by
  have hst := h.active i _ hi rfl
  refine ⟨bounded_record h.bounded, h.inTurn_set hi rfl, ?_, ?_, ?_⟩
  · intro j d hj hd
    cases h.active_set hi rfl j d hj hd
    cases hd
  · simp only [BreakerRun.recorded]
    rw [inARow_cons]
    cases ok with
    | true => exact Nat.zero_le _
    | false =>
      obtain ⟨hcount, _⟩ := record_false_cases h.bounded hst s.clock
      rw [hcount]
      split
      · exact Nat.succ_le_succ h.counted
      · exact Nat.zero_le _
  · simp only [BreakerRun.recorded]
    intro hopen
    rw [hopen, inARow_cons, if_neg]
    simp [Executed.counted]

theorem sequential_allow (h : SequentialCalls cfg s) {i : Nat} {b : CircuitBreaker}
    (hi : s.calls[i]? = some .entered) (hb : s.breaker.allow cfg s.clock = some b) :
    SequentialCalls cfg { s with breaker := b, calls := s.calls.set i .running } := by
  obtain ⟨hst, rfl | ⟨hopen, rfl⟩⟩ := allow_cases hb
  · exact ⟨h.bounded, h.inTurn_set hi rfl, fun _ _ _ _ => hst, h.counted, h.opened⟩
  · -- the probe starts from zero, and so does the count after an opening
    exact ⟨bounded_allow h.bounded hb, h.inTurn_set hi rfl, fun _ _ _ _ => hst,
      Nat.le_of_eq (h.opened hopen), fun h' => absurd h' hst⟩

/-- An `f` that throws, which is no failure. -/
theorem sequential_throw (h : SequentialCalls cfg s) {i : Nat}
    (hi : s.calls[i]? = some .running) : SequentialCalls cfg (s.thrown i) := by
  refine ⟨h.bounded, h.inTurn_set hi rfl, ?_, ?_, fun hopen => absurd hopen (h.active i _ hi rfl)⟩
  · intro j d hj hd
    cases h.active_set hi rfl j d hj hd
    cases hd
  · simp only [BreakerRun.thrown]
    rw [inARow_cons]
    exact Nat.zero_le _

theorem sequential_step (h : SequentialCalls cfg s) (hg : inSequence s a = true)
    (hs : breakerStep cfg s a = some s') : SequentialCalls cfg s' := by
  cases breakerStep_cases hs with
  | call => exact sequential_call h (List.all_eq_true.mp hg)
  | allowed hi hb => exact sequential_allow h hi hb
  | rejected hi _ =>
    refine ⟨h.bounded, h.inTurn_set hi rfl, ?_, h.counted, h.opened⟩
    intro j d hj hd
    cases h.active_set hi rfl j d hj hd
    cases hd
  | run hi =>
    exact ⟨h.bounded, h.inTurn_set hi rfl, fun _ _ _ _ => h.active _ _ hi rfl, h.counted, h.opened⟩
  | throw hi => exact sequential_throw h hi
  | record hi => exact sequential_record h hi
  | reset => cases hg
  | tick => exact ⟨h.bounded, h.inTurn, h.active, h.counted, h.opened⟩

/-- When the `f` of `failure_threshold` executions in a row have returned false, and the
breaker was not open between them, it is open after the last one. -/
def FailuresOpen (cfg : Config) (history : List Executed) : Prop :=
  ∀ last earlier before, history = last :: earlier ++ before →
    (last :: earlier).length = max 1 cfg.failureThreshold.toNat →
    (∀ e ∈ last :: earlier, e.ok = some false) → (∀ e ∈ earlier, e.after ≠ .opened) →
    last.after = .opened

/-- When an execution has opened the breaker, the `f` of the last `failure_threshold` ones
have all returned false. -/
def OpensOnConsecutive (cfg : Config) (history : List Executed) : Prop :=
  ∀ last before, history = last :: before → last.after = .opened →
    cfg.failureThreshold.toNat ≤ history.length ∧
      ∀ e ∈ history.take cfg.failureThreshold.toNat, e.ok = some false

/-- What holds of the history after each execution holds after all of them. -/
theorem suffix_step {P : List Executed → Prop} (h : ∀ l, l <:+ s.history → P l)
    (hs : breakerStep cfg s a = some s')
    (hrec : ∀ i ok, a = .record i → s.calls[i]? = some (.ran ok) → s' = s.recorded cfg i ok →
      P s'.history)
    (hthrow : ∀ i, s.calls[i]? = some .running → P (s.thrown i).history) :
    ∀ l, l <:+ s'.history → P l := by
  cases breakerStep_cases hs with
  | @throw i hi =>
    intro l hl
    rcases List.suffix_cons_iff.mp hl with rfl | hl
    · exact hthrow i hi
    · exact h l hl
  | @record i ok hi =>
    intro l hl
    rcases List.suffix_cons_iff.mp hl with rfl | hl
    · exact hrec i ok rfl hi rfl
    · exact h l hl
  | _ => exact h

/-- The failures that have been counted stay below the threshold, unless the breaker
has opened. -/
theorem SequentialCalls.failuresOpen (h : SequentialCalls cfg s) (hlast : ∀ e ∈ s.history.head?,
    e.after = s.breaker.state) : FailuresOpen cfg s.history := by
  intro last earlier before hhist hlen hfail hopen
  rcases Decidable.em (last.after = .opened) with hlo | hlo
  · exact hlo
  · have hst : s.breaker.state ≠ .opened := by
      rw [← hlast last (by rw [hhist]; rfl)]
      exact hlo
    have hcounted : ∀ e ∈ last :: earlier, e.counted = true := by
      intro e he
      have hne : e.after ≠ .opened := by
        rcases List.mem_cons.mp he with rfl | he'
        · exact hlo
        · exact hopen e he'
      simp [Executed.counted, hfail e he, hne]
    have hrow := length_le_inARow hcounted before
    rw [← hhist, hlen] at hrow
    have hlt := h.bounded.failures hst
    exact absurd (Nat.le_trans hrow h.counted) (Nat.not_le.mpr hlt)

theorem failures_open (h : Reach (breakerSystem cfg) (fun s a => inSequence s a = true) s) :
    SequentialCalls cfg s ∧ ∀ l, l <:+ s.history → FailuresOpen cfg l := by
  refine h.invariant (P := fun s => SequentialCalls cfg s ∧ ∀ l, l <:+ s.history → FailuresOpen cfg l)
    ?_ ?_
  · intro s h0
    refine ⟨sequential_init h0, ?_⟩
    intro l hl last earlier before hhist
    rw [h0.2.2, List.suffix_nil.mp hl] at *
    cases hhist
  · rintro s a s' ⟨hseq, hall⟩ hg hs
    have hseq' := sequential_step hseq hg hs
    refine ⟨hseq', suffix_step hall hs ?_ ?_⟩
    · rintro i ok _ _ rfl
      refine hseq'.failuresOpen ?_
      intro e he
      cases he
      rfl
    · -- the last execution has not returned false
      intro i _ last earlier before hhist _ hfail
      have hlast : last = ⟨none, s.breaker.state⟩ := (List.cons.inj hhist).1.symm
      have hfalse := hfail last List.mem_cons_self
      rw [hlast] at hfalse
      cases hfalse

/-- Right after the failure that opens the breaker. -/
def justOpened : BreakerRun :=
  { breaker := { state := .opened, failureCount := 1 }
    calls := [.returned false], history := [⟨some false, .opened⟩] }

/-- The next call, a nanosecond before the open duration is over. -/
def nextCall (c : CallPc) : BreakerRun :=
  { justOpened with clock := 4999999999, calls := [.returned false, c] }

/-- No success is recorded in HalfOpen after a failure was, unless it closes the
breaker. -/
def noProbeAfterFailure (cfg : Config) (s : BreakerRun) : BreakerAct → Bool
  | .record i =>
    !(s.calls[i]? == some (.ran true) && s.breaker.state == .halfOpen &&
      s.breaker.failureCount != 0 && decide (s.breaker.successCount + 1 < cfg.successThreshold))
  | .call | .allow _ | .run _ _ | .throw _ | .reset | .tick _ => true

/-- No `f` throws after a failure was recorded. -/
def noThrowAfterFailure (s : BreakerRun) : BreakerAct → Bool
  | .throw i => !(s.calls[i]? == some .running && s.breaker.failureCount != 0)
  | .call | .allow _ | .run _ _ | .record _ | .reset | .tick _ => true

/-- No `f` throws. -/
def noThrow : BreakerAct → Bool
  | .throw _ => false
  | .call | .allow _ | .run _ _ | .record _ | .reset | .tick _ => true

/-- The failures that count are the last executions. -/
structure Consecutive (cfg : Config) (s : BreakerRun) : Prop extends SequentialCalls cfg s where
  failed : s.breaker.failureCount.toNat ≤ inARow Executed.failed s.history

theorem consecutive_record (h : Consecutive cfg s) {i : Nat} {ok : Bool}
    (hi : s.calls[i]? = some (.ran ok)) (hg : noProbeAfterFailure cfg s (.record i) = true) :
    (s.recorded cfg i ok).breaker.failureCount.toNat ≤
      inARow Executed.failed (s.recorded cfg i ok).history := by
  have hst := h.active i _ hi rfl
  simp only [BreakerRun.recorded]
  rw [inARow_cons]
  cases ok with
  | true =>
    obtain ⟨_, hzero | ⟨hhalf, hlt, hsame⟩⟩ := record_true_cases hst s.clock
    · rw [hzero]
      exact Nat.zero_le _
    · -- only a probe before any failure may leave the count as it is
      rw [ge_iff_le, UInt32.not_le] at hlt
      have hcount : s.breaker.failureCount = 0 := by
        simpa [noProbeAfterFailure, hi, hhalf, hlt] using hg
      rw [hsame, hcount]
      exact Nat.zero_le _
  | false =>
    obtain ⟨hcount, _⟩ := record_false_cases h.bounded hst s.clock
    rw [hcount]
    exact Nat.succ_le_succ h.failed

theorem consecutive_step (h : Consecutive cfg s) (hg : inSequence s a = true)
    (hp : noProbeAfterFailure cfg s a = true) (ht : noThrowAfterFailure s a = true)
    (hs : breakerStep cfg s a = some s') : Consecutive cfg s' := by
  refine ⟨sequential_step h.toSequentialCalls hg hs, ?_⟩
  cases breakerStep_cases hs with
  | allowed hi hb =>
    obtain ⟨_, rfl | ⟨_, rfl⟩⟩ := allow_cases hb
    · exact h.failed
    · exact Nat.zero_le _
  | throw hi =>
    have hzero : s.breaker.failureCount = 0 := by
      simpa [noThrowAfterFailure, hi] using ht
    simp only [BreakerRun.thrown, hzero]
    exact Nat.zero_le _
  | record hi => exact consecutive_record h hi hp
  | reset => cases hg
  | call | tick => exact h.failed
  | rejected hi _ => exact h.failed
  | run hi => exact h.failed

theorem Consecutive.opensOnConsecutive (h : Consecutive cfg s) {i : Nat} {ok : Bool}
    (hi : s.calls[i]? = some (.ran ok)) (hg : noProbeAfterFailure cfg s (.record i) = true) :
    OpensOnConsecutive cfg (s.recorded cfg i ok).history := by
  have hst := h.active i _ hi rfl
  have hrow := consecutive_record h hi hg
  intro last before hhist hopen
  cases hhist
  cases ok with
  | true => exact absurd hopen (record_true_cases hst s.clock).1
  | false =>
    obtain ⟨hcount, ⟨_, hge⟩ | ⟨hsame, _⟩⟩ := record_false_cases h.bounded hst s.clock
    · have hle : cfg.failureThreshold.toNat ≤
          inARow Executed.failed (s.recorded cfg i false).history := by
        refine Nat.le_trans hge ?_
        rw [← hcount]
        exact hrow
      obtain ⟨hlen, hall⟩ := of_le_inARow hle
      refine ⟨hlen, ?_⟩
      intro e he
      simpa [Executed.failed] using hall e he
    · exact absurd (hsame.symm.trans hopen) hst

theorem reach_consecutive
    (h : Reach (breakerSystem cfg)
      (fun s a => inSequence s a = true ∧ noProbeAfterFailure cfg s a = true ∧
        noThrowAfterFailure s a = true) s) :
    Consecutive cfg s ∧ ∀ l, l <:+ s.history → OpensOnConsecutive cfg l := by
  refine h.invariant
    (P := fun s => Consecutive cfg s ∧ ∀ l, l <:+ s.history → OpensOnConsecutive cfg l) ?_ ?_
  · intro s h0
    refine ⟨⟨sequential_init h0, ?_⟩, ?_⟩
    · rw [h0.1]
      exact Nat.zero_le _
    · intro l hl last before hhist
      rw [h0.2.2, List.suffix_nil] at hl
      rw [hl] at hhist
      cases hhist
  · rintro s a s' ⟨hcons, hall⟩ ⟨hg, hp, ht⟩ hs
    refine ⟨consecutive_step hcons hg hp ht hs, suffix_step hall hs ?_ ?_⟩
    · rintro i ok rfl hi rfl
      exact hcons.opensOnConsecutive hi hp
    · -- the breaker is not open
      intro i hi last before hhist hopen
      cases hhist
      exact absurd hopen (hcons.active i _ hi rfl)

/-- Where one failure opens the breaker, or one success closes it, no run records a
success between the failures that count. -/
theorem noProbeAfterFailure_of_bounded (h : s.breaker.Bounded cfg)
    (hcfg : cfg.failureThreshold = 1 ∨ cfg.successThreshold ≤ 1) :
    noProbeAfterFailure cfg s a = true := by
  cases a with
  | record i =>
    simp only [noProbeAfterFailure, Bool.not_eq_true', Bool.and_eq_false_imp, Bool.and_eq_true,
      beq_iff_eq, bne_iff_ne, decide_eq_false_iff_not, and_imp]
    intro _ hhalf hfail hlt
    obtain ⟨hsucc, hcount⟩ := h.halfOpen hhalf
    rcases hcfg with hft | hst
    · have hzero : s.breaker.failureCount.toNat = 0 := by
        rw [Config.failures, hft, UInt32.toNat_one] at hcount
        omega
      exact hfail (UInt32.toNat_inj.mp hzero)
    · rw [UInt32.lt_iff_toNat_lt, toNat_succ hsucc] at hlt
      rw [UInt32.le_iff_toNat_le, UInt32.toNat_one] at hst
      omega
  | call | allow _ | run _ _ | throw _ | reset | tick _ => rfl

/-- Where one failure opens the breaker, none has been counted when a call runs. -/
theorem SequentialCalls.noThrowAfterFailure (h : SequentialCalls cfg s)
    (hft : cfg.failureThreshold = 1) : noThrowAfterFailure s a = true := by
  cases a with
  | throw i =>
    simp only [Deepspan.noThrowAfterFailure, Bool.not_eq_true', Bool.and_eq_false_imp, beq_iff_eq,
      bne_eq_false_iff_eq]
    intro hi
    have hcount := h.bounded.failures (h.active i _ hi rfl)
    rw [Config.failures, hft, UInt32.toNat_one] at hcount
    exact UInt32.toNat_inj.mp (Nat.lt_one_iff.mp hcount)
  | call | allow _ | run _ _ | record _ | reset | tick _ => rfl

theorem noThrowAfterFailure_of_noThrow (h : noThrow a = true) :
    noThrowAfterFailure s a = true := by
  cases a with
  | throw _ => cases h
  | call | allow _ | run _ _ | record _ | reset | tick _ => rfl

/-! ### A run for every other configuration -/

/-- The executions of `f` in a step return `ok`. -/
def runsWith (ok : Bool) : BreakerAct → Bool
  | .run _ b => b == ok
  | .throw _ => false
  | .call | .allow _ | .record _ | .reset | .tick _ => true

/-- The run after the next call, let in as `b`, with an `f` that returns `ok`. -/
def BreakerRun.executed (cfg : Config) (s : BreakerRun) (b : CircuitBreaker) (ok : Bool) :
    BreakerRun :=
  { s with
    breaker := b.record cfg s.clock ok
    calls := s.calls ++ [.returned ok]
    history := ⟨some ok, (b.record cfg s.clock ok).state⟩ :: s.history }

theorem set_last_call (calls : List CallPc) (x y : CallPc) :
    (calls ++ [x]).set calls.length y = calls ++ [y] := by
  simp

/-- The next call up to its `f`, when it is let in as `b`. It is the last one throughout. -/
theorem reach_running {G : BreakerRun → BreakerAct → Prop}
    (hcall : ∀ s, inSequence s .call = true → G s .call) (hallow : ∀ s i, G s (.allow i))
    (hended : ∀ c ∈ s.calls, c.ended = true) {b : CircuitBreaker}
    (hb : s.breaker.allow cfg s.clock = some b) :
    Reach ((breakerSystem cfg).startedAt s) G
      { s with breaker := b, calls := s.calls ++ [.running] } := by
  have hentered : Reach ((breakerSystem cfg).startedAt s) G
      { s with calls := s.calls ++ [.entered] } :=
    .step (a := .call) (.init rfl) (hcall s (List.all_eq_true.mpr hended)) rfl
  refine .step (a := .allow s.calls.length) hentered (hallow _ _) ?_
  simp only [System.startedAt, breakerSystem, breakerStep, List.getElem?_concat_length, hb,
    set_last_call]

theorem reach_executed (hended : ∀ c ∈ s.calls, c.ended = true) {b : CircuitBreaker}
    (hb : s.breaker.allow cfg s.clock = some b) (ok : Bool) :
    Reach ((breakerSystem cfg).startedAt s)
      (fun s a => inSequence s a = true ∧ runsWith ok a = true) (s.executed cfg b ok) := by
  have hrunning : Reach ((breakerSystem cfg).startedAt s)
      (fun s a => inSequence s a = true ∧ runsWith ok a = true)
      { s with breaker := b, calls := s.calls ++ [.running] } :=
    reach_running (fun _ hseq => ⟨hseq, rfl⟩) (fun _ _ => ⟨rfl, rfl⟩) hended hb
  have hran : Reach ((breakerSystem cfg).startedAt s)
      (fun s a => inSequence s a = true ∧ runsWith ok a = true)
      { s with breaker := b, calls := s.calls ++ [.ran ok] } := by
    refine .step (a := .run s.calls.length ok) hrunning ⟨rfl, beq_self_eq_true ok⟩ ?_
    simp only [System.startedAt, breakerSystem, breakerStep, List.getElem?_concat_length,
      set_last_call]
  refine .step (a := .record s.calls.length) hran ⟨rfl, rfl⟩ ?_
  simp only [System.startedAt, breakerSystem, breakerStep, List.getElem?_concat_length,
    BreakerRun.recorded, set_last_call, BreakerRun.executed]

theorem ended_concat {calls : List CallPc} {last : CallPc} (h : ∀ c ∈ calls, c.ended = true)
    (hlast : last.ended = true) : ∀ c ∈ calls ++ [last], c.ended = true :=
  List.forall_mem_append.mpr ⟨h, List.forall_mem_singleton.mpr hlast⟩

/-- A run that is between two calls. -/
structure Idle (cfg : Config) (G : BreakerRun → BreakerAct → Prop) (s : BreakerRun) : Prop where
  reach : Reach (breakerSystem cfg) G s
  ended : ∀ c ∈ s.calls, c.ended = true

section Runs

-- the runs in question have all sequential runs without exceptions among them
variable {G : BreakerRun → BreakerAct → Prop}
  (hG : ∀ s a, inSequence s a = true → noThrow a = true → G s a)

theorem noThrow_of_runsWith {ok : Bool} (h : runsWith ok a = true) : noThrow a = true := by
  cases a with
  | throw _ => cases h
  | call | allow _ | run _ _ | record _ | reset | tick _ => rfl

include hG in
/-- The next call, when it is let in. -/
theorem Idle.execute (h : Idle cfg G s) {b : CircuitBreaker}
    (hb : s.breaker.allow cfg s.clock = some b) (ok : Bool) :
    ∃ s', Idle cfg G s' ∧ s'.breaker = b.record cfg s.clock ok ∧ s'.clock = s.clock ∧
      s'.history = ⟨some ok, s'.breaker.state⟩ :: s.history := by
  have hrun : Reach ((breakerSystem cfg).startedAt s) G _ :=
    (reach_executed h.ended hb ok).strengthen (P := fun _ => True) (fun _ _ => trivial)
      (fun _ _ _ _ _ _ => trivial) fun s a _ hg => hG s a hg.1 (noThrow_of_runsWith hg.2)
  refine ⟨_, ⟨h.reach.continues hrun, ?_⟩, rfl, rfl, rfl⟩
  exact ended_concat h.ended rfl

theorem CircuitBreaker.allow_of_ne {b : CircuitBreaker} {now : Int} (hst : b.state ≠ .opened) :
    b.allow cfg now = some b := by
  unfold allow
  rw [if_neg hst]

include hG in
/-- Failing calls that do not open the breaker yet. -/
theorem Idle.fail (n : Nat) (h : Idle cfg G s) (hst : s.breaker.state ≠ .opened)
    (hn : s.breaker.failureCount.toNat + n < cfg.failureThreshold.toNat) :
    ∃ s', Idle cfg G s' ∧ s'.breaker.state = s.breaker.state ∧
      s'.breaker.failureCount.toNat = s.breaker.failureCount.toNat + n ∧
      s'.history = List.replicate n ⟨some false, s.breaker.state⟩ ++ s.history := by
  induction n with
  | zero => exact ⟨s, h, rfl, rfl, rfl⟩
  | succ n ih =>
    obtain ⟨s1, h1, hst1, hcount1, hhist1⟩ := ih (by omega)
    obtain ⟨s2, h2, hb2, _, hhist2⟩ := h1.execute hG (allow_of_ne (hst1 ▸ hst)) false
    obtain ⟨hcount, ⟨_, hge⟩ | ⟨hsame, _⟩⟩ :=
      record_false_cases (reach_bounded h1.reach) (hst1 ▸ hst) s1.clock
    · rw [hcount1] at hge
      exact absurd hge (by omega)
    · refine ⟨s2, h2, ?_, ?_, ?_⟩
      · rw [hb2, hsame, hst1]
      · rw [hb2, hcount, hcount1]
        rfl
      · rw [hhist2, hb2, hsame, hst1, hhist1]
        rfl

include hG in
/-- Failing calls until the breaker opens. -/
theorem Idle.trip (h : Idle cfg G s) (hst : s.breaker.state ≠ .opened)
    (hlt : s.breaker.failureCount.toNat < cfg.failureThreshold.toNat) :
    ∃ s', Idle cfg G s' ∧ s'.breaker.state = .opened ∧
      s'.history = ⟨some false, .opened⟩ ::
        (List.replicate (cfg.failureThreshold.toNat - 1 - s.breaker.failureCount.toNat)
          ⟨some false, s.breaker.state⟩ ++ s.history) := by
  obtain ⟨s1, h1, hst1, hcount1, hhist1⟩ :=
    h.fail hG (cfg.failureThreshold.toNat - 1 - s.breaker.failureCount.toNat) hst (by omega)
  obtain ⟨s2, h2, hb2, _, hhist2⟩ := h1.execute hG (allow_of_ne (hst1 ▸ hst)) false
  obtain ⟨_, ⟨hopen, _⟩ | ⟨_, hbelow⟩⟩ :=
    record_false_cases (reach_bounded h1.reach) (hst1 ▸ hst) s1.clock
  · refine ⟨s2, h2, ?_, ?_⟩
    · rw [hb2, hopen]
    · rw [hhist2, hb2, hopen, hhist1]
  · omega

include hG in
/-- A probe after the open duration. -/
theorem Idle.probe (h : Idle cfg G s) (hst : s.breaker.state = .opened) (ok : Bool) :
    ∃ s', Idle cfg G s' ∧
      s'.breaker = { s.breaker with state := .halfOpen, failureCount := 0 }.record cfg s'.clock ok ∧
      s'.history = ⟨some ok, s'.breaker.state⟩ :: s.history := by
  let d := (s.breaker.openedAt + cfg.openNanos - s.clock).toNat
  have hwait : Idle cfg G { s with clock := s.clock + d } :=
    ⟨.step (a := .tick d) h.reach (hG _ _ rfl rfl) rfl, h.ended⟩
  have hallow : s.breaker.allow cfg (s.clock + d) =
      some { s.breaker with state := .halfOpen, failureCount := 0 } := by
    unfold allow
    rw [if_pos hst]
    simp only
    rw [if_pos]
    omega
  obtain ⟨s', h', hb, hclock, hhist⟩ := hwait.execute hG hallow ok
  refine ⟨s', h', ?_, hhist⟩
  rw [hb, hclock]

end Runs

theorem idle_new {G : BreakerRun → BreakerAct → Prop} : Idle cfg G {} :=
  ⟨reach_new, fun _ hc => nomatch hc⟩

theorem CircuitBreaker.record_false_fresh {b : CircuitBreaker} {now : Int}
    (hzero : b.failureCount = 0) (hft : 2 ≤ cfg.failureThreshold.toNat) :
    b.record cfg now false = { b with failureCount := 1, successCount := 0 } := by
  unfold record recordFailure
  simp only [Bool.false_eq_true, if_false, hzero]
  rw [if_neg]
  · rfl
  · rw [ge_iff_le, UInt32.le_iff_toNat_le]
    exact Nat.not_le.mpr hft

theorem CircuitBreaker.record_true_fresh {b : CircuitBreaker} {now : Int}
    (hhalf : b.state = .halfOpen) (hzero : b.successCount = 0)
    (hst : 2 ≤ cfg.successThreshold.toNat) :
    b.record cfg now true = { b with successCount := 1 } := by
  unfold record recordSuccess
  simp only [if_true, hhalf, hzero]
  rw [if_neg]
  · rfl
  · rw [ge_iff_le, UInt32.le_iff_toNat_le]
    exact Nat.not_le.mpr hst

/-- The breaker has opened, and the execution before the last `failure_threshold - 1` ones is
not one that returned false. -/
theorem not_opensOnConsecutive {e : Executed} {before : List Executed} {n : Nat}
    {st : CircuitBreaker.State} (hft : cfg.failureThreshold.toNat = n + 2)
    (he : e.ok ≠ some false) :
    ¬OpensOnConsecutive cfg
      (⟨some false, .opened⟩ :: (List.replicate n ⟨some false, st⟩ ++ e :: before)) := by
  intro hall
  obtain ⟨_, hfail⟩ := hall _ _ rfl rfl
  refine he (hfail e ?_)
  rw [hft, List.mem_take_iff_getElem]
  refine ⟨n + 1, ?_, ?_⟩
  · simp only [List.length_cons, List.length_append, List.length_replicate]
    omega
  · rw [List.getElem_cons_succ, List.getElem_append_right (by simp)]
    simp

/-- A failed probe, a successful one, and failures up to the threshold. -/
theorem exists_scattered (cfg : Config) (hft : 2 ≤ cfg.failureThreshold.toNat)
    (hst : 2 ≤ cfg.successThreshold.toNat) :
    ∃ s, Reach (breakerSystem cfg) (fun s a => inSequence s a = true ∧ noThrow a = true) s ∧
      ¬OpensOnConsecutive cfg s.history := by
  have hG (s : BreakerRun) (a : BreakerAct) (hseq : inSequence s a = true)
      (hno : noThrow a = true) : inSequence s a = true ∧ noThrow a = true := ⟨hseq, hno⟩
  obtain ⟨s1, h1, hopen1, _⟩ :=
    idle_new.trip hG (by decide) (Nat.lt_of_lt_of_le Nat.zero_lt_two hft)
  obtain ⟨s2, h2, hb2, hhist2⟩ := h1.probe hG hopen1 false
  rw [record_false_fresh rfl hft] at hb2
  have hst2 : s2.breaker.state = .halfOpen := by rw [hb2]
  obtain ⟨s3, h3, hb3, _, hhist3⟩ := h2.execute hG (allow_of_ne (by rw [hst2]; decide)) true
  rw [record_true_fresh hst2 (by rw [hb2]) hst, hb2] at hb3
  have hst3 : s3.breaker.state = .halfOpen := by rw [hb3]
  have hcount3 : s3.breaker.failureCount.toNat = 1 := by
    rw [hb3]
    rfl
  obtain ⟨s4, h4, hopen4, hhist4⟩ := h3.trip hG (by rw [hst3]; decide) (by rw [hcount3]; exact hft)
  refine ⟨s4, h4.reach, ?_⟩
  -- the successful probe is the first of the last `failure_threshold` executions
  rw [hhist4, hcount3, hhist3]
  exact not_opensOnConsecutive (by omega) nofun

/-- The next call, when it is let in and its `f` throws. -/
theorem Idle.throw (h : Idle cfg (fun s a => inSequence s a = true) s) {b : CircuitBreaker}
    (hb : s.breaker.allow cfg s.clock = some b) :
    ∃ s', Idle cfg (fun s a => inSequence s a = true) s' ∧ s'.breaker = b ∧
      s'.history = ⟨none, b.state⟩ :: s.history := by
  have hrunning : Reach (breakerSystem cfg) (fun s a => inSequence s a = true)
      { s with breaker := b, calls := s.calls ++ [.running] } :=
    h.reach.continues (reach_running (fun _ hseq => hseq) (fun _ _ => rfl) h.ended hb)
  refine ⟨{ s with
    breaker := b, calls := s.calls ++ [.threw], history := ⟨none, b.state⟩ :: s.history },
    ⟨.step (a := .throw s.calls.length) hrunning rfl ?_, ended_concat h.ended rfl⟩, rfl, rfl⟩
  simp only [breakerSystem, breakerStep, List.getElem?_concat_length, BreakerRun.thrown,
    set_last_call]

/-- A failure, an `f` that throws, and failures up to the threshold. -/
theorem exists_interrupted (cfg : Config) (hft : 2 ≤ cfg.failureThreshold.toNat) :
    ∃ s, Reach (breakerSystem cfg) (fun s a => inSequence s a = true) s ∧
      ¬OpensOnConsecutive cfg s.history := by
  have hG (s : BreakerRun) (a : BreakerAct) (hseq : inSequence s a = true)
      (_ : noThrow a = true) : inSequence s a = true := hseq
  obtain ⟨s1, h1, hst1, hcount1, _⟩ := idle_new.fail hG 1 (by decide) (by exact hft)
  have hne1 : s1.breaker.state ≠ .opened := by
    rw [hst1]
    decide
  obtain ⟨s2, h2, hb2, hhist2⟩ := h1.throw (allow_of_ne hne1)
  have hcount2 : s2.breaker.failureCount.toNat = 1 := by
    rw [hb2, hcount1]
    rfl
  obtain ⟨s3, h3, _, hhist3⟩ := h2.trip hG (by rw [hb2]; exact hne1) (by rw [hcount2]; exact hft)
  refine ⟨s3, h3.reach, ?_⟩
  rw [hhist3, hcount2, hhist2]
  exact not_opensOnConsecutive (by omega) nofun

/-- Sequential runs open the breaker on consecutive failures as long as after a failure no
success is recorded in HalfOpen that does not close it, and no `f` throws. All runs of a
configuration do so exactly where one failure opens the breaker, and all runs in which no
`f` throws where one failure opens it or one success closes it. -/
theorem opens_on_consecutive_failures (cfg : Config) (hft : 1 ≤ cfg.failureThreshold) :
    (∀ s, Reach (breakerSystem cfg)
        (fun s a => inSequence s a = true ∧ noProbeAfterFailure cfg s a = true ∧
          noThrowAfterFailure s a = true) s →
      ∀ history, history <:+ s.history → OpensOnConsecutive cfg history) ∧
    ((∀ s, Reach (breakerSystem cfg) (fun s a => inSequence s a = true) s →
        ∀ history, history <:+ s.history → OpensOnConsecutive cfg history) ↔
      cfg.failureThreshold = 1) ∧
    ((∀ s, Reach (breakerSystem cfg) (fun s a => inSequence s a = true ∧ noThrow a = true) s →
        ∀ history, history <:+ s.history → OpensOnConsecutive cfg history) ↔
      cfg.failureThreshold = 1 ∨ cfg.successThreshold ≤ 1) := by
  have hmany (hne : cfg.failureThreshold ≠ 1) : 2 ≤ cfg.failureThreshold.toNat := by
    rw [UInt32.le_iff_toNat_le, UInt32.toNat_one] at hft
    have hne' : cfg.failureThreshold.toNat ≠ 1 := fun h => hne (UInt32.toNat_inj.mp h)
    omega
  refine ⟨fun s h => (reach_consecutive h).2, ⟨?_, ?_⟩, ?_, ?_⟩
  · intro hall
    refine Decidable.by_contra fun hne => ?_
    obtain ⟨s, hreach, hnot⟩ := exists_interrupted cfg (hmany hne)
    exact hnot (hall s hreach _ (List.suffix_refl _))
  · intro hone s hreach
    refine (reach_consecutive (hreach.strengthen (P := SequentialCalls cfg) ?_ ?_ ?_)).2
    · exact fun s h0 => sequential_init h0
    · exact fun s a s' hseq hg hs => sequential_step hseq hg hs
    · exact fun s a hseq hg =>
        ⟨hg, noProbeAfterFailure_of_bounded hseq.bounded (.inl hone), hseq.noThrowAfterFailure hone⟩
  · intro hall
    refine Decidable.by_contra fun hcfg => ?_
    obtain ⟨hne, hgt⟩ := not_or.mp hcfg
    rw [UInt32.le_iff_toNat_le, UInt32.toNat_one] at hgt
    obtain ⟨s, hreach, hnot⟩ := exists_scattered cfg (hmany hne) (by omega)
    exact hnot (hall s hreach _ (List.suffix_refl _))
  · intro hcfg s hreach
    refine (reach_consecutive (hreach.strengthen (P := fun s => s.breaker.Bounded cfg) ?_ ?_ ?_)).2
    · exact fun s h0 => h0.1 ▸ bounded_new
    · exact fun s a s' hb _ hs => bounded_step hb hs
    · exact fun s a hb hg =>
        ⟨hg.1, noProbeAfterFailure_of_bounded hb hcfg, noThrowAfterFailure_of_noThrow hg.2⟩

/-- The calls `i`, `i + 1`, … one after the other, whose `f` return `oks`. -/
def callsOf (i : Nat) : List Bool → List BreakerAct
  | [] => []
  | ok :: oks => .call :: .allow i :: .run i ok :: .record i :: callsOf (i + 1) oks

/-- With the thresholds 5 and 2 the breaker opens on five failures, and lets probes
in after five seconds: one fails, the next succeeds, and four more fail. -/
def scatteredProbes : List BreakerAct :=
  callsOf 0 [false, false, false, false, false] ++ .tick 5000000000 ::
    callsOf 5 [false, true, false, false, false, false]

theorem opens_on_scattered_failures :
    ¬∀ s, Reach (breakerSystem {}) (fun s a => inSequence s a = true) s →
      ∀ history, history <:+ s.history → OpensOnConsecutive {} history := by
  intro hall
  have hrun : (replay (breakerSystem {}) inSequence {} scatteredProbes).map (·.history) =
      some (⟨some false, .opened⟩ :: List.replicate 3 ⟨some false, .halfOpen⟩ ++
        ⟨some true, .halfOpen⟩ :: ⟨some false, .halfOpen⟩ :: ⟨some false, .opened⟩ ::
        List.replicate 4 ⟨some false, .closed⟩) := by decide
  obtain ⟨s, hs, hhist⟩ := Option.map_eq_some_iff.mp hrun
  have hlast := hall s (replay_reach (fun _ _ h => h) reach_new hs) _ (List.suffix_refl _)
  rw [hhist] at hlast
  exact absurd ((hlast _ _ rfl rfl).2 ⟨some true, .halfOpen⟩ (by decide)) (by decide)

/-- One failure opens this breaker, so that probes never count. -/
theorem opens_on_consecutive_failures_single :
    (1 : UInt32) ≤ 1 ∧ ∀ s,
      Reach (breakerSystem { failureThreshold := 1 }) (fun s a => inSequence s a = true) s →
      ∀ history, history <:+ s.history → OpensOnConsecutive { failureThreshold := 1 } history :=
  ⟨by decide, (opens_on_consecutive_failures { failureThreshold := 1 } (by decide)).2.1.mpr rfl⟩

end Deepspan
