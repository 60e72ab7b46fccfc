import Deepspan.Appframework.Tripping

/-!
# Probes and late outcomes

What `call` makes of calls that overlap the recovery. Both sections of `call` look at
the state of the breaker as they find it, and neither knows which call the state is
about:

1. The comment in `call` lets "exactly one probe through", but HalfOpen admits every
   call. The probe stays alone exactly when every call that comes to the check while
   it is in flight finds the breaker open again (`probe_alone_iff`).
2. A call that was let in before the breaker tripped is recorded like a probe when it
   returns in HalfOpen, and its failure in Open can restart the open duration. The
   runs where neither happens are those of `outcomes_settled_iff`.
-/

namespace Deepspan

open Transition CircuitBreaker

variable {cfg : Config} {s s' : BreakerRun} {a : BreakerAct}

/-- The call was let in to run its `f`. -/
def CallPc.admitted : CallPc → Bool
  | .running | .ran _ | .returned _ | .threw => true
  | .entered | .rejected => false

/-- Call `i` has been let in. -/
def BreakerRun.admitted (s : BreakerRun) (i : Nat) : Prop :=
  ∃ c, s.calls[i]? = some c ∧ c.admitted = true

/-- The call was let in and its outcome is not recorded. If its `f` has thrown, it never is. -/
def CallPc.unrecorded : CallPc → Bool
  | .running | .ran _ | .threw => true
  | .entered | .rejected | .returned _ => false

/-- Call `i` has been let in and is not recorded yet. -/
def BreakerRun.inFlight (s : BreakerRun) (i : Nat) : Prop :=
  ∃ c, s.calls[i]? = some c ∧ c.unrecorded = true

/-! ## 1. The probe -/

theorem admitted_set {i j : Nat} {c c' : CallPc} (hi : s.calls[i]? = some c)
    (hc : c.admitted = true → c'.admitted = true) (h : s.admitted j) :
    ∃ d, (s.calls.set i c')[j]? = some d ∧ d.admitted = true := by
  obtain ⟨d, hj, hd⟩ := h
  rcases Nat.decEq j i with hji | rfl
  · exact ⟨d, getElem?_set_of_ne hji hj, hd⟩
  · rw [hi] at hj
    cases hj
    exact ⟨c', getElem?_set_self_of hi, hc hd⟩

/-- Nothing takes an admission back. -/
theorem admitted_step {j : Nat} (h : s.admitted j) (hs : breakerStep cfg s a = some s') :
    s'.admitted j := by
  cases breakerStep_cases hs with
  | call =>
    obtain ⟨c, hj, hc⟩ := h
    exact ⟨c, (List.getElem?_append_left (List.getElem?_eq_some_iff.mp hj).1).trans hj, hc⟩
  | allowed hi _ => exact admitted_set hi (fun _ => rfl) h
  | rejected hi _ => exact admitted_set hi (fun hc => nomatch hc) h
  | run hi | throw hi => exact admitted_set hi (fun _ => rfl) h
  | record hi => exact admitted_set hi (fun _ => rfl) h
  | reset | tick => exact h

/-- Only the call's own record step ends its flight. -/
theorem inFlight_step {i : Nat} (h : s.inFlight i) (ha : a ≠ .record i)
    (hs : breakerStep cfg s a = some s') : s'.inFlight i := by
  obtain ⟨c, hi, hc⟩ := h
  cases breakerStep_cases hs with
  | call => exact ⟨c, (List.getElem?_append_left (List.getElem?_eq_some_iff.mp hi).1).trans hi, hc⟩
  | @allowed j _ hj _ =>
    refine ⟨c, getElem?_set_of_ne ?_ hi, hc⟩
    rintro rfl
    rw [hi] at hj
    cases hj
    cases hc
  | @rejected j hj _ =>
    refine ⟨c, getElem?_set_of_ne ?_ hi, hc⟩
    rintro rfl
    rw [hi] at hj
    cases hj
    cases hc
  | @run j ok hj =>
    rcases Nat.decEq i j with hij | rfl
    · exact ⟨c, getElem?_set_of_ne hij hi, hc⟩
    · exact ⟨.ran ok, getElem?_set_self_of hj, rfl⟩
  | @throw j hj =>
    rcases Nat.decEq i j with hij | rfl
    · exact ⟨c, getElem?_set_of_ne hij hi, hc⟩
    · exact ⟨.threw, getElem?_set_self_of hj, rfl⟩
  | @record j ok hj =>
    refine ⟨c, getElem?_set_of_ne ?_ hi, hc⟩
    rintro rfl
    exact ha rfl
  | reset | tick => exact ⟨c, hi, hc⟩

/-- A call that comes to the check finds the breaker open, and its open duration not
over yet. -/
def turnedAway (cfg : Config) (s : BreakerRun) : BreakerAct → Bool
  | .allow _ => s.breaker.state == .opened && decide (s.clock - s.breaker.openedAt < cfg.openNanos)
  | .call | .run _ _ | .throw _ | .record _ | .reset | .tick _ => true

theorem CircuitBreaker.allow_eq_none {b : CircuitBreaker} {now : Int} :
    b.allow cfg now = none ↔ b.state = .opened ∧ now - b.openedAt < cfg.openNanos := by
  unfold allow
  split
  · next hst =>
    simp only
    split
    · next hge => exact ⟨fun h => (nomatch h), fun h => absurd h.2 (Int.not_lt.mpr hge)⟩
    · next hlt => exact ⟨fun _ => ⟨hst, Int.not_le.mp hlt⟩, fun _ => rfl⟩
  · next hst => exact ⟨fun h => (nomatch h), fun h => absurd h.1 hst⟩

/-- While probe `i`, let in by the step to `s1`, is in flight no other call has been let
in since. -/
def ProbeAlone (s1 : BreakerRun) (i : Nat) (s : BreakerRun) : Prop :=
  s.inFlight i ∧ ∀ j, j ≠ i → s.admitted j → s1.admitted j

/-- What one step adds to the calls that are let in. -/
theorem admitted_new {j : Nat} (hs : breakerStep cfg s a = some s') (h : s'.admitted j)
    (hnot : ¬s.admitted j) : a = .allow j ∧ ∃ b, s.breaker.allow cfg s.clock = some b := by
  obtain ⟨c, hj, hc⟩ := h
  have hold (hj : s.calls[j]? = some c) : False := hnot ⟨c, hj, hc⟩
  have hset {i : Nat} {d d' : CallPc} (hi : s.calls[i]? = some d) (hd : d.admitted = true)
      (hj : (s.calls.set i d')[j]? = some c) : False := by
    rcases getElem?_set_cases hi hj with ⟨rfl, _⟩ | ⟨_, hj⟩
    · exact hnot ⟨d, hi, hd⟩
    · exact hold hj
  cases breakerStep_cases hs with
  | call =>
    rcases getElem?_concat_cases hj with hj | ⟨_, rfl⟩
    · exact (hold hj).elim
    · cases hc
  | @allowed i b hi hb =>
    rcases getElem?_set_cases hi hj with ⟨rfl, _⟩ | ⟨_, hj⟩
    · exact ⟨rfl, b, hb⟩
    · exact (hold hj).elim
  | rejected hi _ =>
    rcases getElem?_set_cases hi hj with ⟨_, rfl⟩ | ⟨_, hj⟩
    · cases hc
    · exact (hold hj).elim
  | run hi | throw hi => exact (hset hi rfl hj).elim
  | record hi => exact (hset hi rfl hj).elim
  | reset | tick => exact (hold hj).elim

/-- A call that the check lets in. -/
theorem admitted_allow {j : Nat} {b : CircuitBreaker} (hb : s.breaker.allow cfg s.clock = some b)
    (hs : breakerStep cfg s (.allow j) = some s') : ¬s.admitted j ∧ s'.admitted j := by
  cases breakerStep_cases hs with
  | allowed hj _ =>
    refine ⟨?_, .running, getElem?_set_self_of hj, rfl⟩
    rintro ⟨c, hc, hadm⟩
    rw [hj] at hc
    cases hc
    cases hadm
  | rejected _ hnone =>
    rw [hb] at hnone
    cases hnone

/-- A step keeps the probe alone exactly when it turns away the call that comes to the
check. -/
theorem probeAlone_step {s1 : BreakerRun} {i : Nat} (hfly : s.inFlight i)
    (hkeep : ∀ j, s1.admitted j → s.admitted j) (ha : a ≠ .record i)
    (hs : breakerStep cfg s a = some s') :
    ProbeAlone s1 i s' ↔ ProbeAlone s1 i s ∧ turnedAway cfg s a = true := by
  constructor
  · rintro ⟨hfly', halone⟩
    refine ⟨⟨hfly, fun j hj hadm => halone j hj (admitted_step hadm hs)⟩, ?_⟩
    cases a with
    | allow j =>
      cases hb : s.breaker.allow cfg s.clock with
      | none =>
        obtain ⟨hst, hlt⟩ := allow_eq_none.mp hb
        simp only [turnedAway, hst, beq_self_eq_true, Bool.true_and, decide_eq_true_eq]
        exact hlt
      | some b =>
        -- the step lets `j` in: another call than the probe, which has been in all along
        obtain ⟨hnot, hadm⟩ := admitted_allow hb hs
        rcases Nat.decEq j i with hji | rfl
        · exact absurd (hkeep j (halone j hji hadm)) hnot
        · obtain ⟨c, hj, hc⟩ := hfly
          refine absurd ⟨c, hj, ?_⟩ hnot
          cases c <;> cases hc <;> rfl
    | call | run _ _ | throw _ | record _ | reset | tick _ => rfl
  · rintro ⟨⟨_, halone⟩, haway⟩
    refine ⟨inFlight_step hfly ha hs, ?_⟩
    intro j hj hadm
    rcases Classical.em (s.admitted j) with hold | hnew
    · exact halone j hj hold
    · obtain ⟨rfl, b, hb⟩ := admitted_new hs hadm hnew
      simp only [turnedAway, Bool.and_eq_true, beq_iff_eq, decide_eq_true_eq] at haway
      rw [allow_eq_none.mpr haway] at hb
      cases hb

/-- From the step that lets probe `i` in until its record step no other call is let in,
in exactly those continuations where every call that comes to the check finds the
breaker open again and within its open duration. -/
theorem probe_alone_iff {i : Nat} {s0 s1 : BreakerRun} (hopen : s0.breaker.state = .opened)
    (hprobe : breakerStep cfg s0 (.allow i) = some s1) (hhalf : s1.breaker.state = .halfOpen) :
    Reach ((breakerSystem cfg).startedAt s1)
        (fun s a => (noReset s a = true ∧ a ≠ .record i) ∧ turnedAway cfg s a = true) s ↔
      Reach ((breakerSystem cfg).startedAt s1) (fun s a => noReset s a = true ∧ a ≠ .record i) s ∧
        ProbeAlone s1 i s := by
  have hfly : s1.inFlight i := by
    cases breakerStep_cases hprobe with
    | allowed hi _ => exact ⟨.running, getElem?_set_self_of hi, rfl⟩
    | rejected hi _ =>
      rw [hopen] at hhalf
      cases hhalf
  refine Reach.exact (P := fun s => s.inFlight i ∧ ∀ j, s1.admitted j → s.admitted j) ?_ ?_ ?_
  · rintro s rfl
    exact ⟨⟨hfly, fun _ h => h⟩, hfly, fun _ _ h => h⟩
  · rintro s a s' ⟨hP, hkeep⟩ ⟨_, ha⟩ hs
    exact ⟨inFlight_step hP ha hs, fun j hj => admitted_step (hkeep j hj) hs⟩
  · rintro s a s' ⟨hP, hkeep⟩ ⟨_, ha⟩ hs
    exact probeAlone_step hP hkeep ha hs

/-- One failure opens the breaker of these runs. -/
def oneFailure : Config := { failureThreshold := 1 }

/-- The calls 0 and 1 are let in, 1 fails, and the open duration goes by; 2 and 3 have
entered meanwhile. -/
def untilProbe : List BreakerAct :=
  [.call, .call, .call, .call, .allow 0, .allow 1, .run 1 false, .record 1, .tick 5000000000]

def beforeProbe : BreakerRun where
  breaker := { state := .opened, failureCount := 1 }
  clock := 5000000000
  calls := [.running, .returned false, .entered, .entered]
  history := [⟨some false, .opened⟩]

def afterProbe : BreakerRun :=
  { beforeProbe with
    breaker := { state := .halfOpen }
    calls := [.running, .returned false, .running, .entered] }

theorem reach_beforeProbe :
    Reach (breakerSystem oneFailure) (fun s a => noReset s a = true) beforeProbe :=
  replay_reach (fun _ _ h => h) reach_new
    (show replay (breakerSystem oneFailure) noReset {} untilProbe = some beforeProbe from rfl)

/-- Call 3 comes to the check while probe 2 is in flight. -/
theorem second_probe_admitted :
    ¬∀ (cfg : Config) (i : Nat) (s0 s1 s : BreakerRun),
      Reach (breakerSystem cfg) (fun s a => noReset s a = true) s0 →
      s0.breaker.state = .opened → breakerStep cfg s0 (.allow i) = some s1 →
      s1.breaker.state = .halfOpen →
      Reach ((breakerSystem cfg).startedAt s1) (fun s a => noReset s a = true ∧ a ≠ .record i) s →
      ProbeAlone s1 i s := by
  intro hall
  have hrun : Reach ((breakerSystem oneFailure).startedAt afterProbe)
      (fun s a => noReset s a = true ∧ a ≠ .record 2)
      { afterProbe with calls := [.running, .returned false, .running, .running] } :=
    .step (a := .allow 3) (.init rfl) ⟨rfl, by decide⟩ rfl
  have halone := hall oneFailure 2 beforeProbe afterProbe _ reach_beforeProbe rfl rfl rfl hrun
  obtain ⟨c, hc, hadm⟩ := halone.2 3 (by decide) ⟨.running, rfl, rfl⟩
  cases hc
  cases hadm

/-- Call 0 fails while probe 2 is in flight, and call 3 finds the breaker open again. -/
theorem probe_alone_reopened :
    ∃ s, Reach ((breakerSystem oneFailure).startedAt afterProbe)
        (fun s a => noReset s a = true ∧ a ≠ .record 2) s ∧
      s.calls[3]? = some .rejected ∧ ProbeAlone afterProbe 2 s := by
  have hrun : replay ((breakerSystem oneFailure).startedAt afterProbe)
      (fun s a => (noReset s a && a != .record 2) && turnedAway oneFailure s a) afterProbe
      [.run 0 false, .record 0, .allow 3] =
      some { afterProbe with
        breaker := { state := .opened, failureCount := 1, openedAt := 5000000000 }
        calls := [.returned false, .returned false, .running, .rejected]
        history := [⟨some false, .opened⟩, ⟨some false, .opened⟩] } := rfl
  have hreach := replay_reach
    (G := fun s a => (noReset s a = true ∧ a ≠ .record 2) ∧ turnedAway oneFailure s a = true)
    (by simp) (.init rfl) hrun
  have hopen : beforeProbe.breaker.state = .opened := rfl
  obtain ⟨hreach, halone⟩ := (probe_alone_iff hopen rfl rfl).mp hreach
  exact ⟨_, hreach, rfl, halone⟩

/-! ## 2. Late outcomes -/

/-- A run with what the recovery is judged by. -/
structure RecoveryRun where
  run : BreakerRun := {}
  /-- The calls as they stood when the breaker last tripped. -/
  lastTrip : List CallPc := []
  /-- The outcome of a call from before that trip has affected the recovery. -/
  affected : Bool := false
deriving DecidableEq, Repr

/-- The breaker goes from Closed or HalfOpen to Open. -/
def CircuitBreaker.trips (b b' : CircuitBreaker) : Bool := b.state != .opened && b'.state == .opened

/-- The breaker has closed, or is one success nearer to it, or the end of its open
duration has been put off. -/
def CircuitBreaker.affects (b b' : CircuitBreaker) : Bool :=
  (b.state == .halfOpen && b'.state == .closed) || decide (b.successCount < b'.successCount) ||
    (b.state == .opened && decide (b.openedAt < b'.openedAt))

/-- Call `i` was let in before the breaker last tripped. -/
def RecoveryRun.stale (s : RecoveryRun) (i : Nat) : Bool :=
  match s.lastTrip[i]? with
  | some c => c.admitted
  | none => false

/-- The step records the outcome of such a call. -/
def RecoveryRun.recordsStale (s : RecoveryRun) : BreakerAct → Bool
  | .record i => s.stale i
  | .call | .allow _ | .run _ _ | .throw _ | .reset | .tick _ => false

def RecoveryRun.moved (s : RecoveryRun) (a : BreakerAct) (r : BreakerRun) : RecoveryRun where
  run := r
  lastTrip := if s.run.breaker.trips r.breaker then r.calls else s.lastTrip
  affected := s.affected || (s.recordsStale a && s.run.breaker.affects r.breaker)

def recoveryStep (cfg : Config) (s : RecoveryRun) (a : BreakerAct) : Option RecoveryRun :=
  (breakerStep cfg s.run a).map (s.moved a)

def recoverySystem (cfg : Config) : System RecoveryRun BreakerAct where
  init s := (breakerSystem cfg).init s.run ∧ s.lastTrip = [] ∧ s.affected = false
  step := recoveryStep cfg

theorem reach_recovery {G : RecoveryRun → BreakerAct → Prop} : Reach (recoverySystem cfg) G {} :=
  .init ⟨⟨rfl, rfl, rfl⟩, rfl, rfl⟩

theorem recoveryStep_eq {s s' : RecoveryRun} (h : recoveryStep cfg s a = some s') :
    ∃ r, breakerStep cfg s.run a = some r ∧ s' = s.moved a r := by
  obtain ⟨r, hr, heq⟩ := Option.map_eq_some_iff.mp h
  exact ⟨r, hr, heq.symm⟩

/-- What the recovery is judged by does not restrict the runs. -/
theorem reach_recovery_of_reach {G : BreakerRun → BreakerAct → Prop} {r : BreakerRun}
    (h : Reach (breakerSystem cfg) G r) :
    ∃ s, Reach (recoverySystem cfg) (fun s a => G s.run a) s ∧ s.run = r := by
  induction h with
  | @init r h0 => exact ⟨⟨r, [], false⟩, .init ⟨h0, rfl, rfl⟩, rfl⟩
  | @step r r' a _ hg hs ih =>
    obtain ⟨s, hreach, rfl⟩ := ih
    refine ⟨s.moved a r', .step hreach hg ?_, rfl⟩
    exact Option.map_eq_some_iff.mpr ⟨r', hs, rfl⟩

/-- A success does not come in HalfOpen, and a failure in Open does not restart the
open duration. -/
def CircuitBreaker.settles (cfg : Config) (b : CircuitBreaker) (now : Int) : Bool → Bool
  | true => b.state != .halfOpen
  | false => !(b.state == .opened && decide (b.failureCount + 1 ≥ cfg.failureThreshold) &&
      decide (b.openedAt < now))

/-- The outcomes of calls from before the last trip, as they are recorded. -/
def outcomeSettled (cfg : Config) (s : RecoveryRun) : BreakerAct → Bool
  | .record i =>
    match s.run.calls[i]? with
    | some (.ran ok) => !s.stale i || s.run.breaker.settles cfg s.run.clock ok
    | _ => true
  | .call | .allow _ | .run _ _ | .throw _ | .reset | .tick _ => true

namespace CircuitBreaker

theorem affects_recordSuccess {b : CircuitBreaker} (h : b.Bounded cfg) :
    b.affects (b.recordSuccess cfg) = (b.state == .halfOpen) := by
  unfold recordSuccess
  split
  · next hst =>
    have hcount : b.successCount < b.successCount + 1 := by
      rw [UInt32.lt_iff_toNat_lt, toNat_succ (h.halfOpen hst).1]
      exact Nat.lt_succ_self _
    simp only
    split
    · simp [affects, hst]
    · simp [affects, hst, hcount]
  · next hst => simp [affects, hst]

theorem affects_recordFailure {b : CircuitBreaker} {now : Int} :
    b.affects (b.recordFailure cfg now) =
      (b.state == .opened && decide (b.failureCount + 1 ≥ cfg.failureThreshold) &&
        decide (b.openedAt < now)) := by
  unfold recordFailure
  simp only
  split
  · next hge => simp [affects, hge]
  · next hlt =>
    cases hst : b.state with
    | closed | opened | halfOpen => simp [affects, hst, hlt]

/-- When the record step affects the recovery. -/
theorem affects_record {b : CircuitBreaker} (h : b.Bounded cfg) (now : Int) (ok : Bool) :
    b.affects (b.record cfg now ok) = !b.settles cfg now ok := by
  cases ok with
  | true =>
    simp only [record, if_true, settles, affects_recordSuccess h]
    cases b.state <;> rfl
  | false =>
    simp only [record, Bool.false_eq_true, if_false, settles, affects_recordFailure, Bool.not_not]

end CircuitBreaker

/-- A step leaves the recovery unaffected exactly when it is settled. -/
theorem affected_step {s s' : RecoveryRun} (h : s.run.breaker.Bounded cfg)
    (hs : recoveryStep cfg s a = some s') :
    s'.affected = false ↔ s.affected = false ∧ outcomeSettled cfg s a = true := by
  obtain ⟨r, hr, rfl⟩ := recoveryStep_eq hs
  simp only [RecoveryRun.moved, Bool.or_eq_false_iff]
  refine and_congr_right fun _ => ?_
  cases breakerStep_cases hr with
  | @record i ok hi =>
    simp only [RecoveryRun.recordsStale, BreakerRun.recorded, outcomeSettled, hi,
      affects_record h s.run.clock ok]
    cases s.stale i <;> simp
  | _ => simp [RecoveryRun.recordsStale, outcomeSettled]

/-- In runs without `reset` no outcome of a call from before the last trip affects the
recovery, exactly when each of these outcomes comes in a state that it cannot change. -/
theorem outcomes_settled_iff (cfg : Config) (s : RecoveryRun) :
    Reach (recoverySystem cfg)
        (fun s a => noReset s.run a = true ∧ outcomeSettled cfg s a = true) s ↔
      Reach (recoverySystem cfg) (fun s a => noReset s.run a = true) s ∧ s.affected = false := by
  refine Reach.exact (P := fun s : RecoveryRun => s.run.breaker.Bounded cfg)
    (F := fun s => s.affected = false) ?_ ?_ ?_
  · rintro s ⟨⟨hb, _⟩, _, haff⟩
    exact ⟨hb ▸ bounded_new, haff⟩
  · intro s a s' hP _ hs
    obtain ⟨r, hr, rfl⟩ := recoveryStep_eq hs
    exact bounded_step hP hr
  · intro s a s' hP _ hs
    exact affected_step hP hs

/-- Call 0 is let in and call 1 trips the breaker; after the open duration call 2 is let
in as a probe. Call 0 succeeds first. -/
def lateSuccess : List BreakerAct :=
  [.call, .call, .call, .allow 0, .allow 1, .run 1 false, .record 1, .tick 5000000000, .allow 2,
    .run 0 true, .record 0]

/-- Call 0 fails halfway through the open duration. -/
def lateReopening : List BreakerAct :=
  [.call, .call, .allow 0, .allow 1, .run 1 false, .record 1, .tick 2500000000, .run 0 false,
    .record 0]

/-- The outcome of call 0 counts towards the two successes that close the breaker in one
run, and starts the five seconds again in the other. -/
theorem late_outcomes_affect :
    (∃ s, Reach (recoverySystem oneFailure) (fun s a => noReset s.run a = true) s ∧
      s.affected = true ∧ s.run.breaker.state = .halfOpen ∧ s.run.breaker.successCount = 1) ∧
    (∃ s, Reach (recoverySystem oneFailure) (fun s a => noReset s.run a = true) s ∧
      s.affected = true ∧ s.run.breaker.state = .opened ∧ s.run.breaker.openedAt = 2500000000) := by
  have hsuccess : replay (recoverySystem oneFailure) (fun s => noReset s.run) {} lateSuccess =
      some {
        run := {
          breaker := { state := .halfOpen, successCount := 1 }
          clock := 5000000000
          calls := [.returned true, .returned false, .running]
          history := [⟨some true, .halfOpen⟩, ⟨some false, .opened⟩] }
        lastTrip := [.running, .returned false, .entered]
        affected := true } := rfl
  have hreopen : replay (recoverySystem oneFailure) (fun s => noReset s.run) {} lateReopening =
      some {
        run := {
          breaker := { state := .opened, failureCount := 2, openedAt := 2500000000 }
          clock := 2500000000
          calls := [.returned false, .returned false]
          history := [⟨some false, .opened⟩, ⟨some false, .opened⟩] }
        lastTrip := [.running, .returned false]
        affected := true } := rfl
  exact ⟨⟨_, replay_reach (fun _ _ h => h) reach_recovery hsuccess, rfl, rfl, rfl⟩,
    _, replay_reach (fun _ _ h => h) reach_recovery hreopen, rfl, rfl, rfl⟩

end Deepspan
