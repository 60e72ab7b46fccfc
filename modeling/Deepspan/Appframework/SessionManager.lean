import Deepspan.Appframework.CircuitBreaker
import Deepspan.Appframework.DevicePool

/-!
# Sessions

`SessionManager::execute` runs a lambda through the circuit breaker. The lambda takes
an entry of the pool, calls `f` with the client of the entry, and gives the entry back
when the guard goes out of scope, which it does however `f` is left. Any number of
executions go on at once; what the breaker and the pool do in a step is a step of
their own systems.

* `f` may return true, return false or throw. A throw leaves `call` before its second
  section: the breaker records nothing.
* `Exec.runs`, `Exec.outcome`, `Exec.refused` and `Exec.used` are history.

`sessionStep_cases` lists what a step can do.
-/

namespace Deepspan

open Transition Ownership DevicePool CircuitBreaker

/-- How `f` was left. -/
inductive FResult where
  | returned (ok : Bool)
  | threw
deriving DecidableEq, Repr

/-- Where an execution stands; `g` is the number of its guard. -/
inductive ExecPc where
  /-- In `call`, before the breaker's check. -/
  | called
  | rejected
  /-- In the lambda, before `acquire`. -/
  | lambda
  | acquired (g : Nat)
  | inF (g : Nat)
  /-- `f` is left, and the guard is still there. -/
  | leftF (g : Nat) (r : FResult)
  | lambdaReturned (ok : Bool)
  /-- An exception is on its way out of `call`. -/
  | unwinding
  | recorded (ok : Bool)
  | returned (r : Except Error Unit)
  | threw
deriving DecidableEq, Repr

structure Exec where
  pc : ExecPc := .called
  /-- How often `f` has been called. -/
  runs : Nat := 0
  outcome : Option FResult := none
  /-- The breaker has rejected the call, or the pool had no entry. -/
  refused : Bool := false
  /-- The entry that the pool gave out. -/
  used : Option Nat := none
deriving DecidableEq, Repr

/-- The guard that the execution has. -/
def Exec.guard (x : Exec) : Option Nat :=
  match x.pc with
  | .acquired g | .inF g | .leftF g _ => some g
  | .called | .rejected | .lambda | .lambdaReturned _ | .unwinding | .recorded _ | .returned _
  | .threw => none

/-- The guard with which `f` is running. -/
def Exec.running (x : Exec) : Option Nat :=
  match x.pc with
  | .inF g => some g
  | .called | .rejected | .lambda | .acquired _ | .leftF _ _ | .lambdaReturned _ | .unwinding
  | .recorded _ | .returned _ | .threw => none

def Exec.ended (x : Exec) : Bool :=
  match x.pc with
  | .returned _ | .threw => true
  | .called | .rejected | .lambda | .acquired _ | .inF _ | .leftF _ _ | .lambdaReturned _
  | .unwinding | .recorded _ => false

structure SessionRun where
  breaker : BreakerRun := {}
  pool : PoolRun
  execs : List Exec := []
deriving DecidableEq, Repr

inductive SessionAct where
  | execute
  | allow (i : Nat)
  | acquire (i : Nat)
  | start (i : Nat)
  | finish (i : Nat) (r : FResult)
  /-- The guard goes out of scope. -/
  | leave (i : Nat)
  | record (i : Nat)
  | ret (i : Nat)
  | tick (d : Nat)
deriving DecidableEq, Repr

def sessionStep (cfg : Config) (s : SessionRun) : SessionAct → Option SessionRun
  | .execute =>
    (breakerStep cfg s.breaker .call).map fun b =>
      { s with breaker := b, execs := s.execs ++ [{}] }
  | .allow i =>
    match s.execs[i]? with
    | some x =>
      match x.pc with
      | .called =>
        (breakerStep cfg s.breaker (.allow i)).map fun b =>
          { s with
            breaker := b
            execs := s.execs.set i
              (match s.breaker.breaker.allow cfg s.breaker.clock with
                | some _ => { x with pc := .lambda }
                | none => { x with pc := .rejected, refused := true }) }
      | _ => none
    | none => none
  | .acquire i =>
    match s.execs[i]? with
    | some x =>
      match x.pc with
      | .lambda =>
        match s.pool.pool.acquire with
        | .ok (_, e) =>
          (poolStep s.pool .acquire).map fun p =>
            { s with
              pool := p
              execs := s.execs.set i
                { x with pc := .acquired s.pool.guards.length, used := some e } }
        | .error _ =>
          -- the lambda returns false and `f` is not called
          (breakerStep cfg s.breaker (.run i false)).map fun b =>
            { s with
              breaker := b
              execs := s.execs.set i { x with pc := .lambdaReturned false, refused := true } }
      | _ => none
    | none => none
  | .start i =>
    match s.execs[i]? with
    | some x =>
      match x.pc with
      | .acquired g =>
        some { s with execs := s.execs.set i { x with pc := .inF g, runs := x.runs + 1 } }
      | _ => none
    | none => none
  | .finish i r =>
    match s.execs[i]? with
    | some x =>
      match x.pc with
      | .inF g =>
        some { s with execs := s.execs.set i { x with pc := .leftF g r, outcome := some r } }
      | _ => none
    | none => none
  | .leave i =>
    match s.execs[i]? with
    | some x =>
      match x.pc with
      | .leftF g (.returned ok) =>
        -- the guard goes out of scope before the lambda's value gets to `call`
        (poolStep s.pool (.destroy g)).bind fun p =>
          (breakerStep cfg s.breaker (.run i ok)).map fun b =>
            { breaker := b, pool := p
              execs := s.execs.set i { x with pc := .lambdaReturned ok } }
      | .leftF g .threw =>
        -- the exception passes through `call`, whose second section does not run
        (poolStep s.pool (.destroy g)).bind fun p =>
          (breakerStep cfg s.breaker (.throw i)).map fun b =>
            { breaker := b, pool := p, execs := s.execs.set i { x with pc := .unwinding } }
      | _ => none
    | none => none
  | .record i =>
    match s.execs[i]? with
    | some x =>
      match x.pc with
      | .lambdaReturned ok =>
        (breakerStep cfg s.breaker (.record i)).map fun b =>
          { s with breaker := b, execs := s.execs.set i { x with pc := .recorded ok } }
      | _ => none
    | none => none
  | .ret i =>
    match s.execs[i]? with
    | some x =>
      match x.pc with
      | .recorded true =>
        some { s with execs := s.execs.set i { x with pc := .returned (.ok ()) } }
      | .recorded false | .rejected =>
        -- `call` returns false for both, and `execute` cannot tell them apart
        some { s with execs := s.execs.set i { x with pc := .returned (.error .submitFailed) } }
      | .unwinding => some { s with execs := s.execs.set i { x with pc := .threw } }
      | _ => none
    | none => none
  | .tick d =>
    (breakerStep cfg s.breaker (.tick d)).map fun b => { s with breaker := b }

/-- A new session manager over `n` devices, whatever the clock shows. -/
def sessionSystem (cfg : Config) (n : Nat) : System SessionRun SessionAct where
  init s := (breakerSystem cfg).init s.breaker ∧ (poolSystem n).init s.pool ∧ s.execs = []
  step := sessionStep cfg

variable {cfg : Config} {s s' : SessionRun} {a : SessionAct} {n : Nat}

/-- What a step can do. -/
inductive SessionStep (cfg : Config) (s : SessionRun) : SessionAct → SessionRun → Prop
  | execute {b : BreakerRun} : breakerStep cfg s.breaker .call = some b →
      SessionStep cfg s .execute { s with breaker := b, execs := s.execs ++ [{}] }
  | admitted {i : Nat} {x : Exec} {b : BreakerRun} {c : CircuitBreaker} : s.execs[i]? = some x →
      x.pc = .called → s.breaker.breaker.allow cfg s.breaker.clock = some c →
      breakerStep cfg s.breaker (.allow i) = some b →
      SessionStep cfg s (.allow i)
        { s with breaker := b, execs := s.execs.set i { x with pc := .lambda } }
  | rejected {i : Nat} {x : Exec} {b : BreakerRun} : s.execs[i]? = some x → x.pc = .called →
      s.breaker.breaker.allow cfg s.breaker.clock = none →
      breakerStep cfg s.breaker (.allow i) = some b →
      SessionStep cfg s (.allow i)
        { s with
          breaker := b, execs := s.execs.set i { x with pc := .rejected, refused := true } }
  | acquired {i e : Nat} {x : Exec} {d : DevicePool} {p : PoolRun} : s.execs[i]? = some x →
      x.pc = .lambda → s.pool.pool.acquire = .ok (d, e) → poolStep s.pool .acquire = some p →
      SessionStep cfg s (.acquire i)
        { s with
          pool := p
          execs := s.execs.set i { x with pc := .acquired s.pool.guards.length, used := some e } }
  | full {i : Nat} {x : Exec} {err : Error} {b : BreakerRun} : s.execs[i]? = some x →
      x.pc = .lambda → s.pool.pool.acquire = .error err →
      breakerStep cfg s.breaker (.run i false) = some b →
      SessionStep cfg s (.acquire i)
        { s with
          breaker := b
          execs := s.execs.set i { x with pc := .lambdaReturned false, refused := true } }
  | start {i g : Nat} {x : Exec} : s.execs[i]? = some x → x.pc = .acquired g →
      SessionStep cfg s (.start i)
        { s with execs := s.execs.set i { x with pc := .inF g, runs := x.runs + 1 } }
  | finish {i g : Nat} {x : Exec} {r : FResult} : s.execs[i]? = some x → x.pc = .inF g →
      SessionStep cfg s (.finish i r)
        { s with execs := s.execs.set i { x with pc := .leftF g r, outcome := some r } }
  | leave {i g : Nat} {x : Exec} {ok : Bool} {p : PoolRun} {b : BreakerRun} :
      s.execs[i]? = some x → x.pc = .leftF g (.returned ok) →
      poolStep s.pool (.destroy g) = some p → breakerStep cfg s.breaker (.run i ok) = some b →
      SessionStep cfg s (.leave i)
        { breaker := b, pool := p, execs := s.execs.set i { x with pc := .lambdaReturned ok } }
  | unwind {i g : Nat} {x : Exec} {p : PoolRun} {b : BreakerRun} : s.execs[i]? = some x →
      x.pc = .leftF g .threw → poolStep s.pool (.destroy g) = some p →
      breakerStep cfg s.breaker (.throw i) = some b →
      SessionStep cfg s (.leave i)
        { breaker := b, pool := p, execs := s.execs.set i { x with pc := .unwinding } }
  | record {i : Nat} {x : Exec} {ok : Bool} {b : BreakerRun} : s.execs[i]? = some x →
      x.pc = .lambdaReturned ok → breakerStep cfg s.breaker (.record i) = some b →
      SessionStep cfg s (.record i)
        { s with breaker := b, execs := s.execs.set i { x with pc := .recorded ok } }
  | success {i : Nat} {x : Exec} : s.execs[i]? = some x → x.pc = .recorded true →
      SessionStep cfg s (.ret i) { s with execs := s.execs.set i { x with pc := .returned (.ok ()) } }
  | failure {i : Nat} {x : Exec} : s.execs[i]? = some x → x.pc = .recorded false ∨ x.pc = .rejected →
      SessionStep cfg s (.ret i)
        { s with execs := s.execs.set i { x with pc := .returned (.error .submitFailed) } }
  | rethrow {i : Nat} {x : Exec} : s.execs[i]? = some x → x.pc = .unwinding →
      SessionStep cfg s (.ret i) { s with execs := s.execs.set i { x with pc := .threw } }
  | tick {d : Nat} {b : BreakerRun} : breakerStep cfg s.breaker (.tick d) = some b →
      SessionStep cfg s (.tick d) { s with breaker := b }

theorem sessionStep_cases (h : sessionStep cfg s a = some s') : SessionStep cfg s a s' := by
  cases a with
  | execute =>
    simp only [sessionStep] at h
    obtain ⟨b, hb, rfl⟩ := Option.map_eq_some_iff.mp h
    exact .execute hb
  | allow i =>
    simp only [sessionStep] at h
    split at h
    · next x hi =>
      split at h
      · next hpc =>
        obtain ⟨b, hb, rfl⟩ := Option.map_eq_some_iff.mp h
        split
        · next c hc => exact .admitted hi hpc hc hb
        · next hc => exact .rejected hi hpc hc hb
      · cases h
    · cases h
  | acquire i =>
    simp only [sessionStep] at h
    split at h
    · next x hi =>
      split at h
      · next hpc =>
        split at h
        · next d e hacq =>
          obtain ⟨p, hp, rfl⟩ := Option.map_eq_some_iff.mp h
          exact .acquired hi hpc hacq hp
        · next err hacq =>
          obtain ⟨b, hb, rfl⟩ := Option.map_eq_some_iff.mp h
          exact .full hi hpc hacq hb
      · cases h
    · cases h
  | start i =>
    simp only [sessionStep] at h
    split at h
    · next x hi =>
      split at h
      · next g hpc =>
        cases h
        exact .start hi hpc
      · cases h
    · cases h
  | finish i r =>
    simp only [sessionStep] at h
    split at h
    · next x hi =>
      split at h
      · next g hpc =>
        cases h
        exact .finish hi hpc
      · cases h
    · cases h
  | leave i =>
    simp only [sessionStep] at h
    split at h
    · next x hi =>
      split at h
      · next g ok hpc =>
        obtain ⟨p, hp, hrest⟩ := Option.bind_eq_some_iff.mp h
        obtain ⟨b, hb, rfl⟩ := Option.map_eq_some_iff.mp hrest
        exact .leave hi hpc hp hb
      · next g hpc =>
        obtain ⟨p, hp, hrest⟩ := Option.bind_eq_some_iff.mp h
        obtain ⟨b, hb, rfl⟩ := Option.map_eq_some_iff.mp hrest
        exact .unwind hi hpc hp hb
      · cases h
    · cases h
  | record i =>
    simp only [sessionStep] at h
    split at h
    · next x hi =>
      split at h
      · next ok hpc =>
        obtain ⟨b, hb, rfl⟩ := Option.map_eq_some_iff.mp h
        exact .record hi hpc hb
      · cases h
    · cases h
  | ret i =>
    simp only [sessionStep] at h
    split at h
    · next x hi =>
      split at h
      · next hpc =>
        cases h
        exact .success hi hpc
      · next hpc =>
        cases h
        exact .failure hi (.inl hpc)
      · next hpc =>
        cases h
        exact .failure hi (.inr hpc)
      · next hpc =>
        cases h
        exact .rethrow hi hpc
      · cases h
    · cases h
  | tick d =>
    simp only [sessionStep] at h
    obtain ⟨b, hb, rfl⟩ := Option.map_eq_some_iff.mp h
    exact .tick hb

end Deepspan
