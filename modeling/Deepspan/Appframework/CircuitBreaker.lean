import Deepspan.Lib.Transition

/-!
# The circuit breaker

`CircuitBreaker` of the application framework. `call` takes the lock twice: once
to decide whether `f` may run (`CircuitBreaker.allow`) and once to record what it
returned (`CircuitBreaker.record`). Between the two the lock is free, so that any
number of calls and resets interleave with these two sections as atomic steps.

* The counters are 32-bit and wrap.
* Times are those of `steady_clock`, in nanoseconds, and never go back. The
  conversion of `open_duration` is taken as exact, since the source's overflow is
  undefined.
* `Config::name` is not read by any of these functions and is left out.
* An exception of `f` leaves `call` between its two sections, so that nothing is recorded.
* A call whose `f` does not return stays at `running`.

`counters_bounded` says what the counters are in each of the three states,
`breakerStep_fresh` that no step carries a counter into another state.
-/

namespace Deepspan

open Transition

namespace CircuitBreaker

/-- `CircuitBreaker::State`; `opened` is `Open`. -/
inductive State where
  | closed | opened | halfOpen
deriving DecidableEq, Repr

structure Config where
  failureThreshold : UInt32 := 5
  successThreshold : UInt32 := 2
  /-- In milliseconds. -/
  openDuration : Int := 5000
deriving DecidableEq, Repr

/-- `open_duration` as a duration of the clock. -/
def Config.openNanos (cfg : Config) : Int := cfg.openDuration * 1000000

end CircuitBreaker

structure CircuitBreaker where
  state : CircuitBreaker.State := .closed
  failureCount : UInt32 := 0
  successCount : UInt32 := 0
  openedAt : Int := 0
deriving DecidableEq, Repr

namespace CircuitBreaker

/-- The first section of `call`: `none` is the immediate `return false`. -/
def allow (cfg : Config) (now : Int) (b : CircuitBreaker) : Option CircuitBreaker :=
  if b.state = .opened then
    let elapsed := now - b.openedAt
    if elapsed ≥ cfg.openNanos then some { b with state := .halfOpen, failureCount := 0 }
    else none
  else some b

def recordSuccess (cfg : Config) (b : CircuitBreaker) : CircuitBreaker :=
  if b.state = .halfOpen then
    let b := { b with successCount := b.successCount + 1 }
    if b.successCount ≥ cfg.successThreshold then
      { b with state := .closed, failureCount := 0, successCount := 0 }
    else b
  else { b with failureCount := 0, successCount := 0 }

def recordFailure (cfg : Config) (now : Int) (b : CircuitBreaker) : CircuitBreaker :=
  let b := { b with failureCount := b.failureCount + 1, successCount := 0 }
  if b.failureCount ≥ cfg.failureThreshold then { b with state := .opened, openedAt := now }
  else b

/-- The second section of `call`. -/
def record (cfg : Config) (now : Int) (ok : Bool) (b : CircuitBreaker) : CircuitBreaker :=
  if ok then b.recordSuccess cfg else b.recordFailure cfg now

def reset (b : CircuitBreaker) : CircuitBreaker :=
  { b with state := .closed, failureCount := 0, successCount := 0, openedAt := 0 }

end CircuitBreaker

/-! ## Concurrent calls -/

/-- Where an execution of `call` stands. -/
inductive CallPc where
  | entered
  | running
  | ran (ok : Bool)
  | rejected
  | returned (ok : Bool)
  | threw
deriving DecidableEq, Repr

/-- The call is over. -/
def CallPc.ended : CallPc → Bool
  | .rejected | .returned _ | .threw => true
  | .entered | .running | .ran _ => false

/-- An execution of `f` whose call is over: what `f` returned, or nothing if it threw, and
the state of the breaker right after. -/
structure Executed where
  ok : Option Bool
  after : CircuitBreaker.State
deriving DecidableEq, Repr

structure BreakerRun where
  breaker : CircuitBreaker := {}
  clock : Int := 0
  calls : List CallPc := []
  /-- The executions, the last one first. -/
  history : List Executed := []
deriving DecidableEq, Repr

inductive BreakerAct where
  | call
  | allow (i : Nat)
  | run (i : Nat) (ok : Bool)
  /-- `f` throws. -/
  | throw (i : Nat)
  | record (i : Nat)
  | reset
  | tick (d : Nat)
deriving DecidableEq, Repr

/-- After the record step of call `i`, whose `f` returned `ok`. -/
def BreakerRun.recorded (cfg : CircuitBreaker.Config) (s : BreakerRun) (i : Nat) (ok : Bool) :
    BreakerRun :=
  { s with
    breaker := s.breaker.record cfg s.clock ok
    calls := s.calls.set i (.returned ok)
    history := ⟨some ok, (s.breaker.record cfg s.clock ok).state⟩ :: s.history }

/-- After the exception of call `i`. -/
def BreakerRun.thrown (s : BreakerRun) (i : Nat) : BreakerRun :=
  { s with
    calls := s.calls.set i .threw
    history := ⟨none, s.breaker.state⟩ :: s.history }

def breakerStep (cfg : CircuitBreaker.Config) (s : BreakerRun) : BreakerAct → Option BreakerRun
  | .call => some { s with calls := s.calls ++ [.entered] }
  | .allow i =>
    match s.calls[i]? with
    | some .entered =>
      match s.breaker.allow cfg s.clock with
      | some b => some { s with breaker := b, calls := s.calls.set i .running }
      | none => some { s with calls := s.calls.set i .rejected }
    | _ => none
  | .run i ok =>
    match s.calls[i]? with
    | some .running => some { s with calls := s.calls.set i (.ran ok) }
    | _ => none
  | .throw i =>
    match s.calls[i]? with
    | some .running => some (s.thrown i)
    | _ => none
  | .record i =>
    match s.calls[i]? with
    | some (.ran ok) => some (s.recorded cfg i ok)
    | _ => none
  | .reset => some { s with breaker := s.breaker.reset }
  | .tick d => some { s with clock := s.clock + d }

/-- A new breaker, whatever the clock shows. -/
def breakerSystem (cfg : CircuitBreaker.Config) : System BreakerRun BreakerAct where
  init s := s.breaker = {} ∧ s.calls = [] ∧ s.history = []
  step := breakerStep cfg

theorem reach_new {cfg : CircuitBreaker.Config} {G : BreakerRun → BreakerAct → Prop} :
    Reach (breakerSystem cfg) G {} :=
  .init ⟨rfl, rfl, rfl⟩

variable {cfg : CircuitBreaker.Config} {b b' : CircuitBreaker} {s s' : BreakerRun}
  {a : BreakerAct} {now : Int} {ok : Bool}

/-- What a step can do; a call is let through or rejected. -/
inductive BreakerStep (cfg : CircuitBreaker.Config) (s : BreakerRun) :
    BreakerAct → BreakerRun → Prop
  | call : BreakerStep cfg s .call { s with calls := s.calls ++ [.entered] }
  | allowed {i : Nat} {b : CircuitBreaker} : s.calls[i]? = some .entered →
      s.breaker.allow cfg s.clock = some b →
      BreakerStep cfg s (.allow i) { s with breaker := b, calls := s.calls.set i .running }
  | rejected {i : Nat} : s.calls[i]? = some .entered → s.breaker.allow cfg s.clock = none →
      BreakerStep cfg s (.allow i) { s with calls := s.calls.set i .rejected }
  | run {i : Nat} {ok : Bool} : s.calls[i]? = some .running →
      BreakerStep cfg s (.run i ok) { s with calls := s.calls.set i (.ran ok) }
  | throw {i : Nat} : s.calls[i]? = some .running → BreakerStep cfg s (.throw i) (s.thrown i)
  | record {i : Nat} {ok : Bool} : s.calls[i]? = some (.ran ok) →
      BreakerStep cfg s (.record i) (s.recorded cfg i ok)
  | reset : BreakerStep cfg s .reset { s with breaker := s.breaker.reset }
  | tick {d : Nat} : BreakerStep cfg s (.tick d) { s with clock := s.clock + d }

theorem breakerStep_cases (h : breakerStep cfg s a = some s') : BreakerStep cfg s a s' := by
  cases a with
  | call => cases h; exact .call
  | allow i =>
    simp only [breakerStep] at h
    split at h
    · next hi =>
      split at h
      · next b hb =>
        cases h
        exact .allowed hi hb
      · next hb =>
        cases h
        exact .rejected hi hb
    · cases h
  | run i ok =>
    simp only [breakerStep] at h
    split at h
    · next hi =>
      cases h
      exact .run hi
    · cases h
  | throw i =>
    simp only [breakerStep] at h
    split at h
    · next hi =>
      cases h
      exact .throw hi
    · cases h
  | record i =>
    simp only [breakerStep] at h
    split at h
    · next ok hi =>
      cases h
      exact .record hi
    · cases h
  | reset => cases h; exact .reset
  | tick d => cases h; exact .tick

/-- The breaker after a step, and who made it. -/
theorem breakerStep_breaker (h : breakerStep cfg s a = some s') :
    s'.breaker = s.breaker ∨ s.breaker.allow cfg s.clock = some s'.breaker ∨
    (∃ ok, s'.breaker = s.breaker.record cfg s.clock ok) ∨
    (a = .reset ∧ s'.breaker = s.breaker.reset) := by
  cases breakerStep_cases h with
  | allowed hi hb => exact .inr (.inl hb)
  | @record i ok hi => exact .inr (.inr (.inl ⟨ok, rfl⟩))
  | reset => exact .inr (.inr (.inr ⟨rfl, rfl⟩))
  | _ => exact .inl rfl

/-! ## The counters -/

namespace CircuitBreaker

/-- The number of failures that opens the breaker: none at all open it on the first
one as well. -/
def Config.failures (cfg : Config) : Nat := max 1 cfg.failureThreshold.toNat

/-- The number of successes that closes it. -/
def Config.successes (cfg : Config) : Nat := max 1 cfg.successThreshold.toNat

/-- What the counters are in each state. In Open the failures of calls that were
let in earlier still count, so that nothing bounds `failure_count_` there. -/
structure Bounded (cfg : Config) (b : CircuitBreaker) : Prop where
  closed : b.state = .closed →
    b.successCount = 0 ∧ b.failureCount.toNat < cfg.failures
  halfOpen : b.state = .halfOpen →
    b.successCount.toNat < cfg.successes ∧ b.failureCount.toNat < cfg.failures
  opened : b.state = .opened → b.successCount = 0

/-- A counter that is below a threshold does not wrap. -/
theorem toNat_succ {x t : UInt32} (h : x.toNat < max 1 t.toNat) :
    (x + 1).toNat = x.toNat + 1 := by
  have ht := t.toNat_lt
  rw [UInt32.toNat_add, UInt32.toNat_one]
  omega

theorem Bounded.failures (h : b.Bounded cfg) (hs : b.state ≠ .opened) :
    b.failureCount.toNat < cfg.failures := by
  cases hst : b.state with
  | closed => exact (h.closed hst).2
  | halfOpen => exact (h.halfOpen hst).2
  | opened => exact absurd hst hs

/-- A counter that has not reached a threshold is below it. -/
theorem lt_of_not_ge {x t : UInt32} (h : ¬x ≥ t) : x.toNat < max 1 t.toNat := by
  rw [ge_iff_le, UInt32.le_iff_toNat_le] at h
  omega

theorem failures_pos (cfg : Config) : 0 < cfg.failures := by
  unfold Config.failures
  omega

theorem bounded_new : ({} : CircuitBreaker).Bounded cfg where
  closed := fun _ => ⟨rfl, failures_pos cfg⟩
  halfOpen := by
    intro h
    cases h
  opened := fun _ => rfl

theorem bounded_reset (b : CircuitBreaker) : b.reset.Bounded cfg where
  closed := fun _ => ⟨rfl, failures_pos cfg⟩
  halfOpen := by
    intro h
    cases h
  opened := fun _ => rfl

theorem bounded_allow (h : b.Bounded cfg) (ha : b.allow cfg now = some b') : b'.Bounded cfg := by
  unfold allow at ha
  split at ha
  · next hst =>
    simp only at ha
    split at ha
    · cases ha
      have hsucc := h.opened hst
      refine ⟨?_, fun _ => ⟨?_, failures_pos cfg⟩, ?_⟩
      · intro h'
        cases h'
      · rw [hsucc, UInt32.toNat_zero, Config.successes]
        omega
      · intro h'
        cases h'
    · cases ha
  · cases ha
    exact h

theorem bounded_recordSuccess (h : b.Bounded cfg) : (b.recordSuccess cfg).Bounded cfg := by
  unfold recordSuccess
  split
  · next hst =>
    simp only
    split
    · refine ⟨fun _ => ⟨rfl, failures_pos cfg⟩, fun h' => ?_, fun _ => rfl⟩
      cases h'
    · next hlt =>
      refine ⟨fun h' => ?_, fun _ => ⟨lt_of_not_ge hlt, (h.halfOpen hst).2⟩, fun h' => ?_⟩
      · rw [hst] at h'
        cases h'
      · rw [hst] at h'
        cases h'
  · next hst =>
    exact ⟨fun _ => ⟨rfl, failures_pos cfg⟩, fun h' => absurd h' hst, fun _ => rfl⟩

theorem bounded_recordFailure : (b.recordFailure cfg now).Bounded cfg := by
  unfold recordFailure
  simp only
  split
  · refine ⟨fun h' => ?_, fun h' => ?_, fun _ => rfl⟩
    · cases h'
    · cases h'
  · next hlt =>
    refine ⟨fun _ => ⟨rfl, lt_of_not_ge hlt⟩, fun _ => ⟨?_, lt_of_not_ge hlt⟩, fun _ => rfl⟩
    rw [UInt32.toNat_zero, Config.successes]
    omega

theorem bounded_record (h : b.Bounded cfg) : (b.record cfg now ok).Bounded cfg := by
  cases ok with
  | true => exact bounded_recordSuccess h
  | false => exact bounded_recordFailure

/-- A section of `call` that changes the state leaves no successes behind, and no
failures unless it opens the breaker. -/
def Fresh (b b' : CircuitBreaker) : Prop :=
  b'.state ≠ b.state → b'.successCount = 0 ∧ (b'.state ≠ .opened → b'.failureCount = 0)

theorem fresh_allow (h : b.Bounded cfg) (ha : b.allow cfg now = some b') : Fresh b b' := by
  unfold allow at ha
  split at ha
  · next hst =>
    simp only at ha
    split at ha
    · cases ha
      exact fun _ => ⟨h.opened hst, fun _ => rfl⟩
    · cases ha
  · cases ha
    exact fun hne => absurd rfl hne

theorem fresh_recordSuccess : Fresh b (b.recordSuccess cfg) := by
  unfold recordSuccess
  split
  · simp only
    split
    · exact fun _ => ⟨rfl, fun _ => rfl⟩
    · exact fun hne => absurd rfl hne
  · exact fun hne => absurd rfl hne

theorem fresh_recordFailure : Fresh b (b.recordFailure cfg now) := by
  unfold recordFailure
  simp only
  split
  · exact fun _ => ⟨rfl, fun hno => absurd rfl hno⟩
  · exact fun hne => absurd rfl hne

theorem fresh_record : Fresh b (b.record cfg now ok) := by
  cases ok with
  | true => exact fresh_recordSuccess
  | false => exact fresh_recordFailure

end CircuitBreaker

open CircuitBreaker

theorem bounded_step (h : s.breaker.Bounded cfg) (hs : breakerStep cfg s a = some s') :
    s'.breaker.Bounded cfg := by
  rcases breakerStep_breaker hs with hb | ha | ⟨ok, hb⟩ | ⟨_, hb⟩
  · rw [hb]
    exact h
  · exact bounded_allow h ha
  · rw [hb]
    exact bounded_record h
  · rw [hb]
    exact bounded_reset s.breaker

theorem reach_bounded {G : BreakerRun → BreakerAct → Prop} (h : Reach (breakerSystem cfg) G s) :
    s.breaker.Bounded cfg :=
  h.invariant (P := fun s => s.breaker.Bounded cfg) (fun _ h0 => h0.1 ▸ bounded_new)
    fun _ _ _ hP _ hs => bounded_step hP hs

theorem breakerStep_fresh (h : s.breaker.Bounded cfg) (hs : breakerStep cfg s a = some s') :
    Fresh s.breaker s'.breaker := by
  rcases breakerStep_breaker hs with hb | ha | ⟨ok, hb⟩ | ⟨_, hb⟩
  · rw [hb]
    exact fun hne => absurd rfl hne
  · exact fresh_allow h ha
  · rw [hb]
    exact fresh_record
  · rw [hb]
    exact fun _ => ⟨rfl, fun _ => rfl⟩

/-- Any number of concurrent calls and resets: the counters are bounded in every
state, and no step carries one into another state of the breaker. -/
theorem counters_bounded (h : Reach (breakerSystem cfg) (fun _ _ => True) s) :
    ((s.breaker.state = .closed → s.breaker.successCount = 0 ∧
        s.breaker.failureCount.toNat < max 1 cfg.failureThreshold.toNat) ∧
      (s.breaker.state = .halfOpen →
        s.breaker.successCount.toNat < max 1 cfg.successThreshold.toNat ∧
        s.breaker.failureCount.toNat < max 1 cfg.failureThreshold.toNat) ∧
      (s.breaker.state = .opened → s.breaker.successCount = 0)) ∧
    ∀ a s', (breakerSystem cfg).step s a = some s' → s'.breaker.state ≠ s.breaker.state →
      s'.breaker.successCount = 0 ∧ (s'.breaker.state ≠ .opened → s'.breaker.failureCount = 0) := by
  have hb := reach_bounded h
  refine ⟨⟨hb.closed, hb.halfOpen, hb.opened⟩, ?_⟩
  intro a s' hs
  exact breakerStep_fresh hb hs

/-- Two calls are let in; the failure of the first opens the breaker, and the second
one's arrives in Open. -/
def lateFailure : List BreakerAct :=
  [.call, .call, .allow 0, .allow 1, .run 0 false, .run 1 false, .record 0, .record 1]

theorem counters_bounded_late :
    ∃ s, Reach (breakerSystem { failureThreshold := 1 }) (fun _ _ => True) s ∧
      s.breaker.state = .opened ∧ s.breaker.failureCount = 2 ∧ s.breaker.successCount = 0 := by
  have hrun : replay (breakerSystem { failureThreshold := 1 }) (fun _ _ => true) {} lateFailure =
      some { breaker := { state := .opened, failureCount := 2 }
             calls := [.returned false, .returned false]
             history := [⟨some false, .opened⟩, ⟨some false, .opened⟩] } := by decide
  have hreach := replay_reach (fun _ _ _ => trivial) reach_new hrun
  exact ⟨_, hreach, rfl, rfl, (counters_bounded hreach).1.2.2 rfl⟩

end Deepspan
