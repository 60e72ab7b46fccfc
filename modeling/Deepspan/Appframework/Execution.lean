import Deepspan.Appframework.SessionManager

/-!
# What an execution may rely on

Three invariants of `sessionSystem`, one for each part of the state: what every
execution has done so far (`Exec.Ok`), which guards the executions own (`Owning`) and
where the breaker's calls stand (`Calling`).

`executions_exclusive` is the contract of `execute`; `exec_next` says that an execution
that has not ended can always go on.
-/

namespace Deepspan

open Transition Ownership DevicePool CircuitBreaker

variable {cfg : Config} {s s' : SessionRun} {a : SessionAct} {n : Nat}

/-! ## One execution -/

/-- `f` has been called once, and left like this. -/
def Exec.Ran (x : Exec) (r : FResult) : Prop :=
  x.runs = 1 ∧ x.outcome = some r ∧ x.refused = false

/-- `f` was not called, since the breaker or the pool would not have it. -/
def Exec.Refused (x : Exec) : Prop := x.runs = 0 ∧ x.outcome = none ∧ x.refused = true

/-- What the execution has done so far, by where it stands. -/
def Exec.Ok (x : Exec) : Prop :=
  match x.pc with
  | .called | .lambda | .acquired _ => x.runs = 0 ∧ x.outcome = none ∧ x.refused = false
  | .inF _ => x.runs = 1 ∧ x.outcome = none ∧ x.refused = false
  | .leftF _ r => x.Ran r
  | .unwinding | .threw => x.Ran .threw
  | .rejected => x.Refused
  | .lambdaReturned ok | .recorded ok => (x.Refused ∧ ok = false) ∨ x.Ran (.returned ok)
  | .returned (.ok ()) => x.Ran (.returned true)
  | .returned (.error e) => (x.Refused ∨ x.Ran (.returned false)) ∧ e = .submitFailed

/-- A table all of whose executions satisfy `P`, when one of them moves on. -/
theorem execs_set {P : Exec → Prop} {execs : List Exec} {i : Nat} {x y : Exec}
    (h : ∀ (j : Nat) (z : Exec), execs[j]? = some z → P z) (hi : execs[i]? = some x) (hy : P y) :
    ∀ (j : Nat) (z : Exec), (execs.set i y)[j]? = some z → P z := by
  intro j z hj
  rcases getElem?_set_cases hi hj with ⟨_, rfl⟩ | ⟨_, hj⟩
  · exact hy
  · exact h j z hj

theorem execOk_step (h : ∀ (i : Nat) (x : Exec), s.execs[i]? = some x → x.Ok)
    (hs : sessionStep cfg s a = some s') :
    ∀ (i : Nat) (x : Exec), s'.execs[i]? = some x → x.Ok := by
  have hpc {i : Nat} {x : Exec} {pc : ExecPc} (hi : s.execs[i]? = some x) (hx : x.pc = pc) :
      ({ x with pc := pc } : Exec).Ok := by
    rw [← hx]
    exact h i x hi
  cases sessionStep_cases hs with
  | execute _ =>
    intro i x hi
    rcases getElem?_concat_cases hi with hi | ⟨_, rfl⟩
    · exact h i x hi
    · exact ⟨rfl, rfl, rfl⟩
  | tick _ => exact h
  | admitted hi hx _ _ =>
    have hok := hpc hi hx
    exact execs_set h hi hok
  | rejected hi hx _ _ =>
    obtain ⟨hruns, hout, _⟩ := hpc hi hx
    exact execs_set h hi ⟨hruns, hout, rfl⟩
  | acquired hi hx _ _ =>
    have hok := hpc hi hx
    exact execs_set h hi hok
  | full hi hx _ _ =>
    obtain ⟨hruns, hout, _⟩ := hpc hi hx
    exact execs_set h hi (.inl ⟨⟨hruns, hout, rfl⟩, rfl⟩)
  | start hi hx =>
    obtain ⟨hruns, hout, href⟩ := hpc hi hx
    exact execs_set h hi ⟨congrArg (· + 1) hruns, hout, href⟩
  | finish hi hx =>
    obtain ⟨hruns, _, href⟩ := hpc hi hx
    exact execs_set h hi ⟨hruns, rfl, href⟩
  | leave hi hx _ _ => exact execs_set h hi (.inr (hpc hi hx))
  | unwind hi hx _ =>
    have hok := hpc hi hx
    exact execs_set h hi hok
  | record hi hx _ =>
    have hok := hpc hi hx
    exact execs_set h hi hok
  | success hi hx =>
    refine execs_set h hi ?_
    rcases hpc hi hx with ⟨_, hok⟩ | hran
    · cases hok
    · exact hran
  | @failure i x hi hx =>
    refine execs_set h hi ?_
    rcases hx with hx | hx
    · exact ⟨(hpc hi hx).imp And.left id, rfl⟩
    · exact ⟨.inl (hpc hi hx), rfl⟩
  | rethrow hi hx =>
    have hok := hpc hi hx
    exact execs_set h hi hok

/-! ## The entries -/

/-- Guard `g` is valid. -/
def PoolRun.isValid (p : PoolRun) (g : Nat) : Bool := p.guards[g]?.any GuardSlot.valid

/-- The guard of every execution. -/
def SessionRun.owners (s : SessionRun) : List (Option Nat) := s.execs.map Exec.guard

/-- The executions own the guards: each valid guard belongs to one execution, and holds
the entry that the pool gave it. -/
structure Owning (n : Nat) (s : SessionRun) : Prop where
  pool : PoolOk n s.pool
  /-- No guard is ever moved. -/
  plain : ∀ (g : Nat) (x : GuardSlot), s.pool.guards[g]? = some x →
    x = .dead ∨ ∃ e, x = .live ⟨true, some e⟩
  owned : Exclusive s.pool.isValid s.owners
  used : ∀ (i g : Nat) (x : Exec), s.execs[i]? = some x → x.guard = some g →
    ∃ e, x.used = some e ∧ s.pool.Holds g e

theorem owning_init (h : (sessionSystem cfg n).init s) : Owning n s := by
  obtain ⟨_, hpool, hexecs⟩ := h
  have hguards : s.pool.guards = [] := by
    rw [hpool]
  refine ⟨poolOk_init hpool, ?_, ?_, ?_⟩
  · intro g x hg
    rw [hguards] at hg
    cases hg
  · refine exclusive_of_forall_none ?_ ?_
    · intro x hx
      rw [SessionRun.owners, hexecs] at hx
      cases hx
    · intro g
      rw [PoolRun.isValid, hguards]
      rfl
  · intro i g x hi
    rw [hexecs] at hi
    cases hi

theorem owners_getElem? {i : Nat} {x : Exec} (hi : s.execs[i]? = some x) :
    s.owners[i]? = some x.guard := by
  rw [SessionRun.owners, List.getElem?_map, hi]
  rfl

/-- A step that leaves the pool and the guard of execution `i` alone. -/
theorem Owning.keep (h : Owning n s) {i : Nat} {x y : Exec} {b : BreakerRun}
    (hi : s.execs[i]? = some x) (hguard : y.guard = x.guard) (hused : y.used = x.used) :
    Owning n { s with breaker := b, execs := s.execs.set i y } where
  pool := h.pool
  plain := h.plain
  owned := by
    have hsame := h.owned.set_same (owners_getElem? hi)
    rw [SessionRun.owners, List.map_set, hguard]
    exact hsame
  used := by
    intro j g z hj hg
    rcases getElem?_set_cases hi hj with ⟨rfl, rfl⟩ | ⟨_, hj⟩
    · rw [hguard] at hg
      rw [hused]
      exact h.used j g x hi hg
    · exact h.used j g z hj hg

theorem Owning.execute (h : Owning n s) (b : BreakerRun) :
    Owning n { s with breaker := b, execs := s.execs ++ [{}] } where
  pool := h.pool
  plain := h.plain
  owned := by
    rw [SessionRun.owners, List.map_append]
    exact h.owned.concat_none
  used := by
    intro j g z hj hg
    rcases getElem?_concat_cases hj with hj | ⟨_, rfl⟩
    · exact h.used j g z hj hg
    · cases hg

theorem isValid_concat (p : PoolRun) (d : DevicePool) (e : Nat) :
    PoolRun.isValid { pool := d, guards := p.guards ++ [.live ⟨true, some e⟩] } =
      Function.update p.isValid p.guards.length true := by
  funext g
  rcases Nat.lt_trichotomy g p.guards.length with hg | rfl | hg
  · rw [Function.update_of_ne (Nat.ne_of_lt hg)]
    simp only [PoolRun.isValid, List.getElem?_append_left hg]
  · rw [Function.update_self]
    simp only [PoolRun.isValid, List.getElem?_concat_length]
    rfl
  · rw [Function.update_of_ne (Nat.ne_of_gt hg)]
    have hlen : (p.guards ++ [GuardSlot.live ⟨true, some e⟩]).length ≤ g := by
      rw [List.length_append]
      exact hg
    simp only [PoolRun.isValid, List.getElem?_eq_none hlen, List.getElem?_eq_none (Nat.le_of_lt hg)]

theorem Owning.acquired (h : Owning n s) {i e : Nat} {x : Exec} {d : DevicePool} {p : PoolRun}
    (hi : s.execs[i]? = some x) (hx : x.pc = .lambda) (hacq : s.pool.pool.acquire = .ok (d, e))
    (hp : poolStep s.pool .acquire = some p) :
    Owning n { s with
      pool := p
      execs := s.execs.set i { x with pc := .acquired s.pool.guards.length, used := some e } } := by
  have hp' : p = { pool := d, guards := s.pool.guards ++ [.live ⟨true, some e⟩] } := by
    simp only [poolStep, hacq] at hp
    exact (Option.some.inj hp).symm
  -- the new guard stands behind the others, where nobody owns anything
  have hfree : s.pool.isValid s.pool.guards.length = false := by
    rw [PoolRun.isValid, List.getElem?_eq_none (Nat.le_refl _)]
    rfl
  have hnone : s.owners[i]? = some none := by
    rw [owners_getElem? hi, Exec.guard, hx]
  refine ⟨poolOk_step h.pool hp, ?_, ?_, ?_⟩
  · intro g y hg
    rw [hp'] at hg
    rcases getElem?_concat_cases hg with hg | ⟨_, rfl⟩
    · exact h.plain g y hg
    · exact .inr ⟨e, rfl⟩
  · have htake := h.owned.take hnone hfree
    rw [SessionRun.owners, List.map_set, hp', isValid_concat]
    exact htake
  · intro j g z hj hg
    rw [hp']
    rcases getElem?_set_cases hi hj with ⟨rfl, rfl⟩ | ⟨_, hj⟩
    · cases hg
      exact ⟨e, rfl, _, List.getElem?_concat_length, rfl⟩
    · obtain ⟨e', hused, y, hy, hholds⟩ := h.used j g z hj hg
      refine ⟨e', hused, y, ?_, hholds⟩
      exact (List.getElem?_append_left (List.getElem?_eq_some_iff.mp hy).1).trans hy

theorem isValid_destroy {p p' : PoolRun} {g : Nat} (hs : poolStep p (.destroy g) = some p') :
    p'.isValid = Function.update p.isValid g false ∧ ∀ k, k ≠ g → p'.guards[k]? = p.guards[k]? := by
  cases poolStep_cases hs with
  | destroy hg =>
    refine ⟨?_, fun k hk => List.getElem?_set_ne (Ne.symm hk)⟩
    funext k
    simp only [PoolRun.isValid]
    rcases Nat.decEq k g with hk | rfl
    · rw [Function.update_of_ne hk, List.getElem?_set_ne (Ne.symm hk)]
      rfl
    · rw [Function.update_self, getElem?_set_self_of hg]
      rfl

theorem Owning.leave (h : Owning n s) {i g : Nat} {x y : Exec} {p : PoolRun} {b : BreakerRun}
    (hi : s.execs[i]? = some x) (hx : x.guard = some g) (hp : poolStep s.pool (.destroy g) = some p)
    (hy : y.guard = none) : Owning n { breaker := b, pool := p, execs := s.execs.set i y } := by
  obtain ⟨hvalid, hrest⟩ := isValid_destroy hp
  have hown := owners_getElem? hi
  rw [hx] at hown
  refine ⟨poolOk_step h.pool hp, ?_, ?_, ?_⟩
  · intro k z hk
    cases poolStep_cases hp with
    | destroy hg =>
      rcases getElem?_set_cases hg hk with ⟨_, rfl⟩ | ⟨_, hk⟩
      · exact .inl rfl
      · exact h.plain k z hk
  · have hback := h.owned.give_back hown
    rw [SessionRun.owners, List.map_set, hy, hvalid]
    exact hback
  · intro j k z hj hk
    rcases getElem?_set_cases hi hj with ⟨rfl, rfl⟩ | ⟨hji, hj⟩
    · rw [hy] at hk
      cases hk
    · obtain ⟨e, hused, w, hw, hholds⟩ := h.used j k z hj hk
      refine ⟨e, hused, w, ?_, hholds⟩
      rw [hrest k ?_]
      · exact hw
      · -- another execution has another guard
        rintro rfl
        have hown' := owners_getElem? hj
        rw [hk] at hown'
        exact hji (h.owned.unique hown' hown)

theorem owning_step (h : Owning n s) (hs : sessionStep cfg s a = some s') : Owning n s' := by
  have hguard {x : Exec} {pc : ExecPc} (hx : x.pc = pc) :
      x.guard = ({ x with pc := pc } : Exec).guard := by
    rw [← hx]
  cases sessionStep_cases hs with
  | execute _ => exact h.execute _
  | tick _ => exact ⟨h.pool, h.plain, h.owned, h.used⟩
  | admitted hi hx _ _ => exact h.keep hi (hguard hx).symm rfl
  | rejected hi hx _ _ => exact h.keep hi (hguard hx).symm rfl
  | acquired hi hx hacq hp => exact h.acquired hi hx hacq hp
  | full hi hx _ _ => exact h.keep hi (hguard hx).symm rfl
  | start hi hx => exact h.keep hi (hguard hx).symm rfl
  | finish hi hx => exact h.keep hi (hguard hx).symm rfl
  | leave hi hx hp _ => exact h.leave hi (hguard hx) hp rfl
  | unwind hi hx hp => exact h.leave hi (hguard hx) hp rfl
  | record hi hx _ => exact h.keep hi (hguard hx).symm rfl
  | success hi hx => exact h.keep hi (hguard hx).symm rfl
  | failure hi hx =>
    rcases hx with hx | hx
    · exact h.keep hi (hguard hx).symm rfl
    · exact h.keep hi (hguard hx).symm rfl
  | rethrow hi hx => exact h.keep hi (hguard hx).symm rfl

/-! ## The breaker's calls -/

/-- Where the breaker's call stands when the execution has still to do with it. -/
def Exec.callPc (x : Exec) : Option CallPc :=
  match x.pc with
  | .called => some .entered
  | .lambda | .acquired _ | .inF _ | .leftF _ _ => some .running
  | .lambdaReturned ok => some (.ran ok)
  | .rejected | .unwinding | .recorded _ | .returned _ | .threw => none

/-- Every execution is a call of the breaker. -/
structure Calling (s : SessionRun) : Prop where
  length : s.breaker.calls.length = s.execs.length
  calls : ∀ (i : Nat) (x : Exec) (c : CallPc), s.execs[i]? = some x → x.callPc = some c →
    s.breaker.calls[i]? = some c

/-- Execution `i` and its call move on together. -/
theorem Calling.set (h : Calling s) {i : Nat} {x y : Exec} {p : PoolRun} {b : BreakerRun}
    (hi : s.execs[i]? = some x)
    (hcalls : b.calls = s.breaker.calls ∨ ∃ c, b.calls = s.breaker.calls.set i c)
    (hy : ∀ c, y.callPc = some c → b.calls[i]? = some c) :
    Calling { breaker := b, pool := p, execs := s.execs.set i y } where
  length := by
    rw [List.length_set, ← h.length]
    rcases hcalls with hsame | ⟨c, hset⟩
    · rw [hsame]
    · rw [hset, List.length_set]
  calls := by
    intro j z c hj hc
    rcases getElem?_set_cases hi hj with ⟨rfl, rfl⟩ | ⟨hji, hj⟩
    · exact hy c hc
    · have hold := h.calls j z c hj hc
      rcases hcalls with hsame | ⟨c', hset⟩
      · rw [hsame]
        exact hold
      · rw [hset]
        exact getElem?_set_of_ne hji hold

theorem calling_step (h : Calling s) (hs : sessionStep cfg s a = some s') : Calling s' := by
  have hpc {i : Nat} {x : Exec} {pc : ExecPc} {c : CallPc} (hi : s.execs[i]? = some x)
      (hx : x.pc = pc) (hc : ({ x with pc := pc } : Exec).callPc = some c) :
      s.breaker.calls[i]? = some c := by
    rw [← hx] at hc
    exact h.calls i x c hi hc
  cases sessionStep_cases hs with
  | execute hb =>
    cases hb
    refine ⟨?_, ?_⟩
    · simp only [List.length_append, h.length, List.length_singleton]
    · intro j x c hj hc
      rcases getElem?_concat_cases hj with hj | ⟨rfl, rfl⟩
      · have hold := h.calls j x c hj hc
        exact (List.getElem?_append_left (List.getElem?_eq_some_iff.mp hold).1).trans hold
      · cases hc
        rw [← h.length]
        exact List.getElem?_concat_length
  | tick hb =>
    cases hb
    exact ⟨h.length, h.calls⟩
  | @admitted i x b c hi hx hallow hb =>
    cases breakerStep_cases hb with
    | allowed hcall _ =>
      refine h.set hi (.inr ⟨_, rfl⟩) ?_
      rintro c ⟨⟩
      exact getElem?_set_self_of hcall
    | rejected _ hnone =>
      -- both look at the breaker as it is now
      rw [hallow] at hnone
      cases hnone
  | rejected hi hx hallow hb =>
    cases breakerStep_cases hb with
    | allowed _ hsome =>
      rw [hallow] at hsome
      cases hsome
    | rejected _ _ =>
      refine h.set hi (.inr ⟨_, rfl⟩) ?_
      rintro c ⟨⟩
  | acquired hi hx _ _ => exact h.set hi (.inl rfl) (fun c hc => hpc hi hx hc)
  | full hi hx _ hb =>
    cases breakerStep_cases hb with
    | run hcall =>
      refine h.set hi (.inr ⟨_, rfl⟩) ?_
      rintro c ⟨⟩
      exact getElem?_set_self_of hcall
  | start hi hx => exact h.set hi (.inl rfl) (fun c hc => hpc hi hx hc)
  | finish hi hx => exact h.set hi (.inl rfl) (fun c hc => hpc hi hx hc)
  | leave hi hx _ hb =>
    cases breakerStep_cases hb with
    | run hcall =>
      refine h.set hi (.inr ⟨_, rfl⟩) ?_
      rintro c ⟨⟩
      exact getElem?_set_self_of hcall
  | unwind hi hx _ hb =>
    cases breakerStep_cases hb with
    | throw hcall =>
      refine h.set hi (.inr ⟨_, rfl⟩) ?_
      rintro c ⟨⟩
  | record hi hx hb =>
    cases breakerStep_cases hb with
    | record hcall =>
      refine h.set hi (.inr ⟨_, rfl⟩) ?_
      rintro c ⟨⟩
  | success hi hx =>
    refine h.set hi (.inl rfl) ?_
    rintro c ⟨⟩
  | failure hi hx =>
    refine h.set hi (.inl rfl) ?_
    rintro c ⟨⟩
  | rethrow hi hx =>
    refine h.set hi (.inl rfl) ?_
    rintro c ⟨⟩

theorem calling_init (h : (sessionSystem cfg n).init s) : Calling s := by
  obtain ⟨⟨_, hcalls, _⟩, _, hexecs⟩ := h
  refine ⟨?_, ?_⟩
  · rw [hcalls, hexecs]
    rfl
  · intro i x c hi
    rw [hexecs] at hi
    cases hi

/-! ## Whole runs -/

/-- What holds in every run. -/
structure SessionOk (n : Nat) (s : SessionRun) : Prop where
  execs : ∀ (i : Nat) (x : Exec), s.execs[i]? = some x → x.Ok
  owning : Owning n s
  calling : Calling s

theorem reach_sessionOk {G : SessionRun → SessionAct → Prop} (h : Reach (sessionSystem cfg n) G s) :
    SessionOk n s := by
  refine h.invariant (P := SessionOk n) ?_ ?_
  · intro s h0
    refine ⟨?_, owning_init h0, calling_init h0⟩
    intro i x hi
    rw [h0.2.2] at hi
    cases hi
  · intro s a s' hP _ hs
    exact ⟨execOk_step hP.execs hs, owning_step hP.owning hs, calling_step hP.calling hs⟩

/-- The step is one of execution `i`. -/
def SessionAct.isOf (i : Nat) : SessionAct → Prop
  | .allow j | .acquire j | .start j | .finish j _ | .leave j | .record j | .ret j => j = i
  | .execute | .tick _ => False

/-- The guard of an execution can be destroyed. -/
theorem Owning.destroy (h : Owning n s) {i g : Nat} {x : Exec} (hi : s.execs[i]? = some x)
    (hg : x.guard = some g) : ∃ p, poolStep s.pool (.destroy g) = some p := by
  obtain ⟨e, _, y, hy, hholds⟩ := h.used i g x hi hg
  rcases h.plain g y hy with rfl | ⟨e', rfl⟩
  · cases hholds
  · simp only [poolStep, hy]
    exact ⟨_, rfl⟩

/-- An execution that has not ended has a next step, when `f` returns. -/
theorem exec_next (h : Reach (sessionSystem cfg n) (fun _ _ => True) s) {i : Nat} {x : Exec}
    (hi : s.execs[i]? = some x) (hx : x.ended = false) :
    ∃ a s', a.isOf i ∧ sessionStep cfg s a = some s' := by
  have hok := reach_sessionOk h
  -- the breaker's call stands where the execution does, so that its step is enabled
  have hcall (c : CallPc) (hc : x.callPc = some c) := hok.calling.calls i x c hi hc
  cases hpc : x.pc with
  | called =>
    have hentered := hcall .entered (by rw [Exec.callPc, hpc])
    cases hallow : s.breaker.breaker.allow cfg s.breaker.clock with
    | some b =>
      refine ⟨.allow i, ?_⟩
      simp only [sessionStep, hi, hpc, breakerStep, hentered, hallow]
      exact ⟨_, rfl, rfl⟩
    | none =>
      refine ⟨.allow i, ?_⟩
      simp only [sessionStep, hi, hpc, breakerStep, hentered, hallow]
      exact ⟨_, rfl, rfl⟩
  | lambda =>
    have hrunning := hcall .running (by rw [Exec.callPc, hpc])
    cases hacq : s.pool.pool.acquire with
    | ok r =>
      refine ⟨.acquire i, ?_⟩
      simp only [sessionStep, hi, hpc, poolStep, hacq]
      exact ⟨_, rfl, rfl⟩
    | error err =>
      refine ⟨.acquire i, ?_⟩
      simp only [sessionStep, hi, hpc, hacq, breakerStep, hrunning]
      exact ⟨_, rfl, rfl⟩
  | acquired g =>
    refine ⟨.start i, ?_⟩
    simp only [sessionStep, hi, hpc]
    exact ⟨_, rfl, rfl⟩
  | inF g =>
    refine ⟨.finish i (.returned true), ?_⟩
    simp only [sessionStep, hi, hpc]
    exact ⟨_, rfl, rfl⟩
  | leftF g r =>
    have hrunning := hcall .running (by rw [Exec.callPc, hpc])
    obtain ⟨p, hp⟩ := hok.owning.destroy hi (by rw [Exec.guard, hpc])
    cases r with
    | returned ok =>
      refine ⟨.leave i, ?_⟩
      simp only [sessionStep, hi, hpc, hp, breakerStep, hrunning]
      exact ⟨_, rfl, rfl⟩
    | threw =>
      refine ⟨.leave i, ?_⟩
      simp only [sessionStep, hi, hpc, hp, breakerStep, hrunning]
      exact ⟨_, rfl, rfl⟩
  | lambdaReturned ok =>
    have hran := hcall (.ran ok) (by rw [Exec.callPc, hpc])
    refine ⟨.record i, ?_⟩
    simp only [sessionStep, hi, hpc, breakerStep, hran]
    exact ⟨_, rfl, rfl⟩
  | rejected =>
    refine ⟨.ret i, ?_⟩
    simp only [sessionStep, hi, hpc]
    exact ⟨_, rfl, rfl⟩
  | unwinding =>
    refine ⟨.ret i, ?_⟩
    simp only [sessionStep, hi, hpc]
    exact ⟨_, rfl, rfl⟩
  | recorded ok =>
    refine ⟨.ret i, ?_⟩
    cases ok with
    | true =>
      simp only [sessionStep, hi, hpc]
      exact ⟨_, rfl, rfl⟩
    | false =>
      simp only [sessionStep, hi, hpc]
      exact ⟨_, rfl, rfl⟩
  | returned r =>
    rw [Exec.ended, hpc] at hx
    cases hx
  | threw =>
    rw [Exec.ended, hpc] at hx
    cases hx

/-- The `AsyncClient` with which `f` of execution `i` is running. -/
def SessionRun.client (s : SessionRun) (i : Nat) : Option Nat :=
  (s.execs[i]?.bind Exec.running).bind fun g => s.pool.guards[g]?.bind GuardSlot.holds

theorem Exec.guard_of_running {x : Exec} {g : Nat} (h : x.running = some g) : x.guard = some g := by
  unfold Exec.running at h
  split at h
  · next hpc =>
    rw [Exec.guard, hpc]
    exact h
  all_goals cases h

theorem client_eq_some {i e : Nat} (h : s.client i = some e) :
    ∃ g x, s.execs[i]? = some x ∧ x.running = some g ∧ s.pool.Holds g e := by
  obtain ⟨g, hg, he⟩ := Option.bind_eq_some_iff.mp h
  obtain ⟨x, hi, hx⟩ := Option.bind_eq_some_iff.mp hg
  obtain ⟨y, hy, hholds⟩ := Option.bind_eq_some_iff.mp he
  exact ⟨g, x, hi, hx, y, hy, hholds⟩

namespace Owning

/-- An `f` that runs has a client. -/
theorem exists_client (h : Owning n s) {i g : Nat} {x : Exec} (hi : s.execs[i]? = some x)
    (hx : x.running = some g) : ∃ e, e < n ∧ s.client i = some e := by
  obtain ⟨e, _, y, hy, hholds⟩ := h.used i g x hi (Exec.guard_of_running hx)
  refine ⟨e, ?_, ?_⟩
  · have hmarked := h.pool.owned.marked_of_holds (holds_iff.mp ⟨y, hy, hholds⟩)
    have hlt := lt_size_of_marked hmarked
    rw [h.pool.size] at hlt
    exact hlt
  · rw [SessionRun.client, hi, Option.bind_some, hx, Option.bind_some, hy, Option.bind_some, hholds]

/-- Two executions do not have the same client. -/
theorem client_unique (h : Owning n s) {i j e : Nat} (hi : s.client i = some e)
    (hj : s.client j = some e) : i = j := by
  obtain ⟨g, x, hxi, hx, hg⟩ := client_eq_some hi
  obtain ⟨k, y, hyj, hy, hk⟩ := client_eq_some hj
  have hgk : g = k := h.pool.owned.unique (holds_iff.mp hg) (holds_iff.mp hk)
  have howni := owners_getElem? hxi
  have hownj := owners_getElem? hyj
  rw [Exec.guard_of_running hx] at howni
  rw [Exec.guard_of_running hy, ← hgk] at hownj
  exact h.owned.unique howni hownj

/-- As many executions have a guard as entries are in use. -/
theorem countP_guard (h : Owning n s) :
    s.execs.countP (fun x => x.guard.isSome) = s.pool.pool.inUse := by
  have hvalid : s.owners.countP Option.isSome =
      (List.range s.pool.guards.length).countP s.pool.isValid := by
    refine h.owned.countP_isSome List.nodup_range ?_
    intro g hg
    rw [List.mem_range]
    refine Nat.lt_of_not_le fun hge => ?_
    rw [PoolRun.isValid, List.getElem?_eq_none hge] at hg
    cases hg
  calc s.execs.countP (fun x => x.guard.isSome)
      = s.owners.countP Option.isSome := by
        rw [SessionRun.owners, List.countP_map]
        rfl
    _ = (List.range s.pool.guards.length).countP s.pool.isValid := hvalid
    _ = s.pool.guards.countP GuardSlot.valid := countP_range s.pool.guards GuardSlot.valid
    _ = s.pool.pool.inUse := h.pool.inUse.symm

/-- No more `f` run than there are entries. -/
theorem countP_running (h : Owning n s) : s.execs.countP (fun x => x.running.isSome) ≤ n := by
  calc s.execs.countP (fun x => x.running.isSome)
      ≤ s.execs.countP (fun x => x.guard.isSome) := by
        refine List.countP_mono_left fun x _ hx => ?_
        obtain ⟨g, hg⟩ := Option.isSome_iff_exists.mp hx
        rw [Exec.guard_of_running hg]
        rfl
    _ = s.pool.pool.inUse := h.countP_guard
    _ ≤ s.pool.pool.size := List.countP_le_length
    _ = n := h.pool.size

/-- An entry that is in use belongs to an execution that has a guard for it. -/
theorem exists_owner (h : Owning n s) {e : Nat} (he : s.pool.pool.marked e = true) :
    ∃ (j : Nat) (y : Exec) (g : Nat), s.execs[j]? = some y ∧ y.guard = some g ∧
      s.pool.Holds g e := by
  obtain ⟨g, hg⟩ := h.pool.owned.exists_holds he
  obtain ⟨x, hx, hholds⟩ := holds_iff.mpr hg
  have hvalid : s.pool.isValid g = true := by
    rw [PoolRun.isValid, hx]
    rcases h.plain g x hx with rfl | ⟨e', rfl⟩
    · cases hholds
    · rfl
  obtain ⟨j, hj⟩ := h.owned.exists_holds hvalid
  rw [SessionRun.owners, List.getElem?_map] at hj
  obtain ⟨y, hy, hyg⟩ := Option.map_eq_some_iff.mp hj
  exact ⟨j, y, g, hy, hyg, x, hx, hholds⟩

/-- When its guard goes out of scope, the entry of the execution is free. -/
theorem free_of_leave (h : Owning n s) {i e : Nat} {x : Exec} (hi : s.execs[i]? = some x)
    (hused : x.used = some e) (hs : sessionStep cfg s (.leave i) = some s') :
    s'.pool.pool.marked e = false := by
  have hfree {y : Exec} {g : Nat} {r : FResult} {p : PoolRun} (hy : s.execs[i]? = some y)
      (hpc : y.pc = .leftF g r) (hp : poolStep s.pool (.destroy g) = some p) :
      p.pool.marked e = false := by
    rw [hi] at hy
    cases hy
    obtain ⟨e', hused', z, hz, hholds⟩ := h.used i g x hi (by rw [Exec.guard, hpc])
    rw [hused] at hused'
    cases hused'
    cases poolStep_cases hp with
    | destroy hg =>
      rw [hz] at hg
      cases hg
      rcases h.plain g _ hz with hdead | ⟨e', heq⟩
      · cases hdead
      · cases heq
        cases hholds
        simp only [Guard.letGo, marked_release, Function.update_self]
  cases sessionStep_cases hs with
  | leave hy hpc hp _ => exact hfree hy hpc hp
  | unwind hy hpc hp => exact hfree hy hpc hp

end Owning

/-- An execution that has ended has no guard. -/
theorem Exec.guard_of_ended {x : Exec} (h : x.ended = true) : x.guard = none := by
  unfold Exec.ended at h
  unfold Exec.guard
  cases hpc : x.pc <;> rw [hpc] at h <;> first | rfl | cases h

/-- How often `f` is called. -/
theorem Exec.Ok.runs_le {x : Exec} (h : x.Ok) : x.runs ≤ 1 ∧ (x.refused = true → x.runs = 0) := by
  have hran {r : FResult} (h : x.Ran r) : x.runs ≤ 1 ∧ (x.refused = true → x.runs = 0) := by
    refine ⟨Nat.le_of_eq h.1, fun href => ?_⟩
    rw [h.2.2] at href
    cases href
  have hrefused (h : x.runs = 0) : x.runs ≤ 1 ∧ (x.refused = true → x.runs = 0) :=
    ⟨h ▸ Nat.zero_le 1, fun _ => h⟩
  unfold Exec.Ok at h
  split at h
  · exact hrefused h.1
  · exact hrefused h.1
  · exact hrefused h.1
  · refine ⟨Nat.le_of_eq h.1, fun href => ?_⟩
    rw [h.2.2] at href
    cases href
  · exact hran h
  · exact hran h
  · exact hran h
  · exact hrefused h.1
  · exact h.elim (fun h => hrefused h.1.1) hran
  · exact h.elim (fun h => hrefused h.1.1) hran
  · exact hran h
  · exact h.1.elim (fun h => hrefused h.1) hran

/-- What an execution that has ended says of its `f`. -/
theorem Exec.Ok.success_iff {x : Exec} (h : x.Ok) (hended : x.ended = true) :
    x.pc = .returned (.ok ()) ↔ x.runs = 1 ∧ x.outcome = some (.returned true) := by
  unfold Exec.Ok at h
  unfold Exec.ended at hended
  cases hpc : x.pc with
  | returned r =>
    rw [hpc] at h
    cases r with
    | ok u => exact ⟨fun _ => ⟨h.1, h.2.1⟩, fun _ => rfl⟩
    | error e =>
      refine ⟨fun heq => (by cases heq), ?_⟩
      rintro ⟨hruns, hout⟩
      rcases h.1 with href | hran
      · rw [href.1] at hruns
        cases hruns
      · rw [hran.2.1] at hout
        cases hout
  | threw =>
    rw [hpc] at h
    refine ⟨fun heq => (by cases heq), ?_⟩
    rintro ⟨_, hout⟩
    rw [h.2.1] at hout
    cases hout
  | _ =>
    rw [hpc] at hended
    cases hended

/-- Any number of executions over a pool of `n` entries: every `f` that runs has a client
of its own, at most `n` run at once, each is called at most once and never after a
rejection, success means that it returned true, and the entry of an execution that has
ended is free, or in the hands of another one since. -/
theorem executions_exclusive (h : Reach (sessionSystem cfg n) (fun _ _ => True) s) :
    ((∀ (i g : Nat) (x : Exec), s.execs[i]? = some x → x.running = some g →
        ∃ e, e < n ∧ s.client i = some e) ∧
      ∀ i j e, s.client i = some e → s.client j = some e → i = j) ∧
    s.execs.countP (fun x => x.running.isSome) ≤ n ∧
    (∀ (i : Nat) (x : Exec), s.execs[i]? = some x →
      x.runs ≤ 1 ∧ (x.refused = true → x.runs = 0) ∧
      (x.ended = true →
        (x.pc = .returned (.ok ()) ↔ x.runs = 1 ∧ x.outcome = some (.returned true)))) ∧
    (∀ (i e : Nat) (x : Exec), s.execs[i]? = some x → x.used = some e →
      (∀ s', sessionStep cfg s (.leave i) = some s' → s'.pool.pool.marked e = false) ∧
      (x.ended = true → s.pool.pool.marked e = true →
        ∃ (j : Nat) (y : Exec) (g : Nat), j ≠ i ∧ s.execs[j]? = some y ∧ y.guard = some g ∧
          s.pool.Holds g e)) ∧
    ((∀ x ∈ s.execs, x.ended = true) → s.pool.pool.inUse = 0) := by
  obtain ⟨hexecs, hown, _⟩ := reach_sessionOk h
  refine ⟨⟨?_, ?_⟩, hown.countP_running, ?_, ?_, ?_⟩
  · exact fun i g x hi hx => hown.exists_client hi hx
  · exact fun i j e hi hj => hown.client_unique hi hj
  · intro i x hi
    obtain ⟨hle, hrefused⟩ := (hexecs i x hi).runs_le
    exact ⟨hle, hrefused, (hexecs i x hi).success_iff⟩
  · intro i e x hi hused
    refine ⟨fun s' hs => hown.free_of_leave hi hused hs, ?_⟩
    intro hended hmarked
    obtain ⟨j, y, g, hj, hg, hholds⟩ := hown.exists_owner hmarked
    -- whoever has the entry has a guard, and an execution that has ended has none
    refine ⟨j, y, g, ?_, hj, hg, hholds⟩
    rintro rfl
    rw [hi] at hj
    cases hj
    rw [Exec.guard_of_ended hended] at hg
    cases hg
  · intro hall
    rw [← hown.countP_guard]
    refine List.countP_eq_zero.mpr fun x hx => ?_
    rw [Exec.guard_of_ended (hall x hx)]
    exact Bool.false_ne_true

/-- Two executions run over two entries while a third finds none; then one returns true,
one throws, and a fourth has the entry that the first one had. -/
def threeSessions : List SessionAct :=
  [.execute, .execute, .execute, .execute, .allow 0, .allow 1, .allow 2, .allow 3, .acquire 0,
    .acquire 1, .acquire 2, .start 0, .start 1, .finish 0 (.returned true), .leave 0, .acquire 3,
    .start 3, .record 0, .ret 0, .finish 1 .threw, .leave 1, .ret 1, .record 2, .ret 2]

theorem reach_session {G : SessionRun → SessionAct → Prop} :
    Reach (sessionSystem cfg n) G { pool := { pool := create n } } :=
  .init ⟨⟨rfl, rfl, rfl⟩, rfl, rfl⟩

theorem executions_exclusive_three :
    ∃ s, Reach (sessionSystem {} 2) (fun _ _ => True) s ∧
      s.execs.map Exec.pc =
        [.returned (.ok ()), .threw, .returned (.error .submitFailed), .inF 2] ∧
      s.client 3 = some 0 ∧ s.execs.countP (fun x => x.running.isSome) ≤ 2 := by
  have hrun : (replay (sessionSystem {} 2) (fun _ _ => true) { pool := { pool := create 2 } }
      threeSessions).map (fun s => (s.execs.map Exec.pc, s.client 3)) =
      some ([.returned (.ok ()), .threw, .returned (.error .submitFailed), .inF 2], some 0) := rfl
  obtain ⟨s, hs, hview⟩ := Option.map_eq_some_iff.mp hrun
  rw [Prod.mk.injEq] at hview
  have hreach : Reach (sessionSystem {} 2) (fun _ _ => True) s :=
    replay_reach (fun _ _ _ => trivial) reach_session hs
  exact ⟨s, hreach, hview.1, hview.2, (executions_exclusive hreach).2.1⟩

end Deepspan
