import Deepspan.Appframework.Execution
import Deepspan.Userlib.SyncOnly

/-!
# The whole runtime stack

`SessionManager::execute` on top of the pool, the pool's clients on top of io_uring and the
driver: any number of executions of `sessionSystem`, over entries whose devices are
`machineSystem`s. Entry `e` of the pool has client number `(place e).2` of device
`(place e).1`; other processes may have clients of the same devices, and do with them what
they like.

`f` uses the client that `execute` gives it by calling `submit_and_wait`, any number of times,
and returns or throws when no call of its own is going on. As in `sync_calls_answered`,
`io_uring_submit` does not fail and waits are not interrupted.

An `AsyncClient` has no lock of its own: what one call finds in the completion queue depends on
what was submitted before. `executions_answered` says that the guard of the pool is enough:
every call returns to the execution that has made it, with the driver's answer to its own
command.
-/

namespace Deepspan

open Transition DevicePool CircuitBreaker

/-- A call of `submit_and_wait`: execution `exec` makes call number `number` on the client of
entry `entry`. -/
structure StackCall where
  exec : Nat
  entry : Nat
  number : Nat
deriving DecidableEq, Repr

/-- `started` and `results` are history: the calls that were made, and what calls returned to
the executions in whose `f` they were. -/
structure Stack where
  session : SessionRun
  devices : List Machine
  started : List StackCall := []
  results : List (StackCall × Except Error DeepspanResult) := []

inductive StackAct where
  | session (a : SessionAct)
  /-- `f` of execution `i` takes a step in its client. -/
  | client (i : Nat) (a : ClientAct)
  /-- Anything else that happens on device `d`. -/
  | device (d : Nat) (a : MachineAct)

theorem ClientPc.not_reaping_iff {pc : ClientPc} : (!pc.reaping) = true ↔ pc = .idle := by
  cases pc <;> simp [ClientPc.reaping]

section System

variable (cfg : Config) (n : Nat) (place : Nat → Nat × Nat)

/-- The client of entry `e`. -/
def Stack.entryClient (st : Stack) (e : Nat) : Option ClientState :=
  (st.devices[(place e).1]?).bind fun m => m.clients[(place e).2]?

/-- `f` of execution `i` has no call going on. -/
def Stack.quiet (st : Stack) (i : Nat) : Bool :=
  ((st.session.client i).bind (st.entryClient place)).any fun x => !x.pc.reaping

/-- Client `c` of device `d` is one of the pool's. -/
def pooled (d c : Nat) : Bool := (List.range n).any fun e => place e == (d, c)

/-- Execution `i` takes the step `a` in the client of entry `e`, from `x` to `x'`. -/
def Stack.took (st : Stack) (i e : Nat) (a : ClientAct) (m : Machine) (x x' : ClientState) : Stack where
  session := st.session
  devices := st.devices.set (place e).1 { m with clients := m.clients.set (place e).2 x' }
  started := match a with
    | .submitAndWait _ => st.started ++ [⟨i, e, x.syncs.length⟩]
    | _ => st.started
  results := st.results ++ (x'.syncs.drop x.syncs.length).map fun s =>
    (⟨i, e, x.syncs.length⟩, s.value)

def Stack.step (st : Stack) : StackAct → Option Stack
  | .session a =>
    match a with
    | .finish i r =>
      if st.quiet place i then
        (sessionStep cfg st.session (.finish i r)).map fun s => { st with session := s }
      else none
    | a => (sessionStep cfg st.session a).map fun s => { st with session := s }
  | .client i a =>
    if a.byUser && a.syncOnly then do
      let e ← st.session.client i
      let m ← st.devices[(place e).1]?
      let x ← m.clients[(place e).2]?
      let x' ← clientStep x a
      return st.took place i e a m x x'
    else none
  | .device d a =>
    match a with
    | .client c b =>
      if pooled n place d c then none
      else (st.devices[d]?).bind fun m =>
        (m.step (.client c b)).map fun m' => { st with devices := st.devices.set d m' }
    | a => (st.devices[d]?).bind fun m =>
      (m.step a).map fun m' => { st with devices := st.devices.set d m' }

/-- A pool that has just been created, on devices that may have been in use before: every
entry has a new client of its own. -/
def stackSystem : System Stack StackAct where
  init st := (sessionSystem cfg n).init st.session ∧ st.started = [] ∧ st.results = [] ∧
    (∀ m ∈ st.devices, Reach machineSystem (fun _ _ => True) m) ∧
    (∀ e, e < n → ∃ c, st.entryClient place e = some c ∧ clientSystem.init c) ∧
    ∀ e e', e < n → e' < n → place e = place e' → e = e'
  step := Stack.step cfg n place

end System

/-! ## Who has which client -/

section Session

variable {cfg : Config} {n : Nat} {s s' : SessionRun} {a : SessionAct} {i e : Nat}

/-- The client of an `f` is the one that the pool gave out. -/
theorem Owning.client_iff (h : Owning n s) :
    s.client i = some e ↔ ∃ x g, s.execs[i]? = some x ∧ x.pc = .inF g ∧ x.used = some e := by
  constructor
  · intro hc
    obtain ⟨g, x, hi, hx, y, hy, hholds⟩ := client_eq_some hc
    obtain ⟨e', hused, y', hy', hholds'⟩ := h.used i g x hi (Exec.guard_of_running hx)
    cases hy.symm.trans hy'
    cases hholds.symm.trans hholds'
    refine ⟨x, g, hi, ?_, hused⟩
    unfold Exec.running at hx
    split at hx
    · next hpc =>
      cases hx
      exact hpc
    all_goals cases hx
  · rintro ⟨x, g, hi, hpc, hused⟩
    have hrun : x.running = some g := by rw [Exec.running, hpc]
    obtain ⟨e', hused', y, hy, hholds⟩ := h.used i g x hi (Exec.guard_of_running hrun)
    cases hused.symm.trans hused'
    rw [SessionRun.client, hi, Option.bind_some, hrun, Option.bind_some, hy, Option.bind_some,
      hholds]

/-- An execution whose `f` runs stays where it is until `f` is left. -/
theorem inF_step {x : Exec} {g : Nat} (hi : s.execs[i]? = some x) (hpc : x.pc = .inF g)
    (ha : ∀ r, a ≠ .finish i r) (hs : sessionStep cfg s a = some s') : s'.execs[i]? = some x := by
  have hother {j : Nat} {y z : Exec} {pc : ExecPc} (hj : s.execs[j]? = some y) (hy : y.pc = pc)
      (hne : pc ≠ .inF g) : (s.execs.set j z)[i]? = some x := by
    refine getElem?_set_of_ne ?_ hi
    rintro rfl
    cases hi.symm.trans hj
    exact hne (hy.symm.trans hpc)
  cases sessionStep_cases hs with
  | execute _ => exact (List.getElem?_append_left (List.getElem?_eq_some_iff.mp hi).1).trans hi
  | tick _ => exact hi
  | admitted hj hy _ _ | rejected hj hy _ _ | acquired hj hy _ _ | full hj hy _ _ | start hj hy
  | leave hj hy _ _ | unwind hj hy _ | record hj hy _ | success hj hy | rethrow hj hy =>
    exact hother hj hy (by simp)
  | failure hj hy =>
    rcases hy with hy | hy
    · exact hother hj hy (by simp)
    · exact hother hj hy (by simp)
  | @finish j g' y r hj hy =>
    refine getElem?_set_of_ne ?_ hi
    rintro rfl
    exact ha r rfl

theorem client_step (h : Owning n s) (hc : s.client i = some e) (ha : ∀ r, a ≠ .finish i r)
    (hs : sessionStep cfg s a = some s') : s'.client i = some e := by
  obtain ⟨x, g, hi, hpc, hused⟩ := h.client_iff.mp hc
  exact (owning_step h hs).client_iff.mpr ⟨x, g, inF_step hi hpc ha hs, hpc, hused⟩

theorem Owning.client_lt (h : Owning n s) (hc : s.client i = some e) : e < n := by
  obtain ⟨g, x, hi, hx, _⟩ := client_eq_some hc
  obtain ⟨e', hlt, hc'⟩ := h.exists_client hi hx
  cases hc.symm.trans hc'
  exact hlt

end Session

/-! ## What the layers know of each other -/

/-- What a step of a device does to a client that does not take part in it, except that
completions are posted to it. -/
structure LeftAlone (x x' : ClientState) : Prop where
  pc : x'.pc = x.pc
  syncs : x'.syncs = x.syncs
  right : SyncRight x → SyncRight x'

theorem leftAlone_refl (x : ClientState) : LeftAlone x x := ⟨rfl, rfl, id⟩

theorem leftAlone_post {x x' : ClientState} {r : Nat} {ret : Int32} {res2 : UInt64}
    (h : clientStep x (.post r ret res2) = some x') : LeftAlone x x' := by
  refine ⟨?_, ?_, fun hx => syncRight_post hx h⟩
  · cases clientStep_cases h
    rfl
  · cases clientStep_cases h
    rfl

theorem machineStep_client {m m' : Machine} {a : MachineAct} {c : Nat} {x : ClientState}
    (ha : ∀ b, a ≠ .client c b) (hx : m.clients[c]? = some x) (hs : m.step a = some m') :
    ∃ x', m'.clients[c]? = some x' ∧ LeftAlone x x' := by
  have hset {j : Nat} {y y' : ClientState} (hy : m.clients[j]? = some y) (hpost : LeftAlone y y') :
      ∃ x', (m.clients.set j y')[c]? = some x' ∧ LeftAlone x x' := by
    rcases Nat.decEq c j with hcj | rfl
    · exact ⟨x, getElem?_set_of_ne hcj hx, leftAlone_refl x⟩
    · cases hx.symm.trans hy
      exact ⟨y', getElem?_set_self_of hy, hpost⟩
  cases Machine.step_cases hs with
  | created _ =>
    refine ⟨x, ?_, leftAlone_refl x⟩
    exact (List.getElem?_append_left (List.getElem?_eq_some_iff.mp hx).1).trans hx
  | notCreated | uringCmd _ _ _ _ | kernel _ _ _ => exact ⟨x, hx, leftAlone_refl x⟩
  | @client j b y y' _ hy _ =>
    refine ⟨x, getElem?_set_of_ne ?_ hx, leftAlone_refl x⟩
    rintro rfl
    exact ha b rfl
  | cmdDone _ _ hp | refuse _ _ _ hp => exact hset hp.client (leftAlone_post hp.step)

/-- What the pool knows of entry `e`, whose client is `x`. -/
structure EntryOk (st : Stack) (e : Nat) (x : ClientState) : Prop where
  right : SyncRight x
  /-- A call that is going on belongs to the execution that has the client. -/
  busy : x.pc ≠ .idle →
    ∃ i, st.session.client i = some e ∧ ⟨i, e, x.syncs.length⟩ ∈ st.started
  numbers : ∀ q ∈ st.started, q.entry = e →
    q.number < x.syncs.length ∨ (q.number = x.syncs.length ∧ x.pc ≠ .idle)
  results : ∀ q v, (q, v) ∈ st.results → q.entry = e →
    q ∈ st.started ∧ ∃ s, x.syncs[q.number]? = some s ∧ s.value = v

structure Stacked (cfg : Config) (n : Nat) (place : Nat → Nat × Nat) (st : Stack) : Prop where
  session : Reach (sessionSystem cfg n) (fun _ _ => True) st.session
  devices : ∀ m ∈ st.devices, Joined m
  apart : ∀ e e', e < n → e' < n → place e = place e' → e = e'
  entries : ∀ e, e < n → ∃ x, st.entryClient place e = some x ∧ EntryOk st e x
  results : ∀ q v, (q, v) ∈ st.results → q.entry < n
  once : (st.started.map fun q => (q.entry, q.number)).Nodup
  returned : (st.results.map Prod.fst).Nodup

section Stacked

variable {cfg : Config} {n : Nat} {place : Nat → Nat × Nat} {st st' : Stack}

theorem stacked_init (h : (stackSystem cfg n place).init st) : Stacked cfg n place st := by
  obtain ⟨hsession, hstarted, hresults, hdevices, hentries, hapart⟩ := h
  have hnone {q : StackCall} {v : Except Error DeepspanResult} : (q, v) ∉ st.results := by
    rw [hresults]
    exact List.not_mem_nil
  refine ⟨.init hsession, fun m hm => reach_joined (hdevices m hm), hapart, ?_,
    fun q v hq => absurd hq hnone, ?_, ?_⟩
  · intro e he
    obtain ⟨x, hx, hinit⟩ := hentries e he
    refine ⟨x, hx, syncRight_init hinit, ?_, ?_, fun q v hq => absurd hq hnone⟩
    · obtain ⟨depth, rfl⟩ := clientSystem_init hinit
      exact fun hbusy => absurd rfl hbusy
    · intro q hq
      rw [hstarted] at hq
      cases hq
  · rw [hstarted]
    exact List.nodup_nil
  · rw [hresults]
    exact List.nodup_nil

theorem entryClient_eq_some {e : Nat} {x : ClientState} (hx : st.entryClient place e = some x) :
    ∃ m, st.devices[(place e).1]? = some m ∧ m.clients[(place e).2]? = some x :=
  Option.bind_eq_some_iff.mp hx

theorem EntryOk.leftAlone {e : Nat} {x x' : ClientState} (h : EntryOk st e x)
    (hx : LeftAlone x x') (devices : List Machine) : EntryOk { st with devices := devices } e x' := by
  refine ⟨hx.right h.right, ?_, ?_, ?_⟩
  · rw [hx.pc, hx.syncs]
    exact h.busy
  · rw [hx.pc, hx.syncs]
    exact h.numbers
  · rw [hx.syncs]
    exact h.results

/-- Something happens on device `d` that no client of the pool takes part in. -/
theorem Stacked.device (h : Stacked cfg n place st) {d : Nat} {a : MachineAct} {m m' : Machine}
    (hm : st.devices[d]? = some m) (hs : m.step a = some m')
    (ha : ∀ e b, e < n → (place e).1 = d → a ≠ .client (place e).2 b) :
    Stacked cfg n place { st with devices := st.devices.set d m' } := by
  refine { h with devices := ?_, entries := ?_ }
  · intro y hy
    rcases List.mem_or_eq_of_mem_set hy with hy | rfl
    · exact h.devices y hy
    · exact joined_step (h.devices m (List.mem_of_getElem? hm)) hs
  · intro e he
    obtain ⟨x, hx, hok⟩ := h.entries e he
    obtain ⟨y, hy, hyx⟩ := entryClient_eq_some hx
    rcases Nat.decEq (place e).1 d with hne | rfl
    · refine ⟨x, ?_, hok.leftAlone (leftAlone_refl x) _⟩
      rw [Stack.entryClient, getElem?_set_of_ne hne hy, Option.bind_some]
      exact hyx
    · cases hm.symm.trans hy
      obtain ⟨x', hx', hxx'⟩ := machineStep_client (fun b => ha e b he rfl) hyx hs
      refine ⟨x', ?_, hok.leftAlone hxx' _⟩
      rw [Stack.entryClient, getElem?_set_self_of hm, Option.bind_some]
      exact hx'

/-- The session manager takes a step in which no `f` with a call going on is left. -/
theorem Stacked.sessionStep (h : Stacked cfg n place st) {a : SessionAct} {s : SessionRun}
    (ha : ∀ i r, a = .finish i r → st.quiet place i = true)
    (hs : Deepspan.sessionStep cfg st.session a = some s) :
    Stacked cfg n place { st with session := s } := by
  refine { h with session := .step h.session trivial hs, entries := ?_ }
  intro e he
  obtain ⟨x, hx, hok⟩ := h.entries e he
  refine ⟨x, hx, { hok with busy := fun hbusy => ?_ }⟩
  obtain ⟨i, hi, hstarted⟩ := hok.busy hbusy
  refine ⟨i, client_step (reach_sessionOk h.session).owning hi ?_ hs, hstarted⟩
  rintro r rfl
  have hquiet := ha i r rfl
  rw [Stack.quiet, hi, Option.bind_some, hx, Option.any_some, ClientPc.not_reaping_iff] at hquiet
  exact hbusy hquiet

/-- What a step of `submit_and_wait` does to the history of its client: it begins a call, is
inside one, or ends one. -/
inductive SyncMove (x : ClientState) : ClientAct → ClientState → Prop
  | begun {k : Option Nat} {x' : ClientState} : x.pc = .idle → x'.pc ≠ .idle → x'.syncs = x.syncs →
      SyncMove x (.submitAndWait k) x'
  | inside {a : ClientAct} {x' : ClientState} : (∀ k, a ≠ .submitAndWait k) → x.pc ≠ .idle →
      x'.pc ≠ .idle → x'.syncs = x.syncs → SyncMove x a x'
  | ended {a : ClientAct} {x' : ClientState} {s : SyncEnd} : (∀ k, a ≠ .submitAndWait k) →
      x.pc ≠ .idle → x'.pc = .idle → x'.syncs = x.syncs ++ [s] → SyncMove x a x'

theorem syncMove_of_step {x x' : ClientState} {a : ClientAct} (hx : SyncRight x)
    (huser : a.byUser = true) (ha : a.syncOnly = true) (hs : clientStep x a = some x') :
    SyncMove x a x' := by
  cases clientStep_cases hs with
  | submit _ | reap _ => cases ha
  | waitFailed _ => cases ha
  | post _ => cases huser
  | @refused k e hpc herr =>
    -- there is room, and `io_uring_submit` does not fail
    obtain ⟨hroom, _⟩ := hx.between hpc
    rcases submit_cases x 0 k with ⟨hfull, _⟩ | ⟨_, rfl, _⟩ | ⟨_, _, _, h⟩
    · exact absurd hroom (Nat.not_lt.mpr hfull)
    · cases ha
    · rw [h] at herr
      cases herr
  | @accepted k hpc _ =>
    refine .begun hpc (by simp) ?_
    rcases submit_cases x 0 k with ⟨_, h⟩ | ⟨_, _, h⟩ | ⟨_, _, _, h⟩ <;> rw [h]
  | waited hpc _ | peeked hpc _ =>
    refine .inside (by simp) (by simp [hpc]) ?_ rfl
    simp only [ClientState.handOver]
    split <;> simp
  | callbackReturn hpc => exact .inside (by simp) (by simp [hpc]) (by simp) rfl
  | @drained d hpc _ =>
    cases hx.phase with
    | idle hpc' _ _ | waiting hpc' _ _ => cases hpc.symm.trans hpc'
    | drained d' _ hpc' hcaller _ _ _ _ _ =>
      cases hpc.symm.trans hpc'
      refine .ended (s := ⟨some x.syncs.length, true, d.captured⟩) (by simp) (by simp [hpc]) rfl ?_
      simp only [ClientState.finish, hcaller]

section Took

variable {i e : Nat} {a : ClientAct} {m : Machine} {x x' : ClientState}
  (hm : st.devices[(place e).1]? = some m)
include hm

theorem took_self (hx : m.clients[(place e).2]? = some x) :
    (st.took place i e a m x x').entryClient place e = some x' := by
  simp only [Stack.entryClient, Stack.took]
  rw [getElem?_set_self_of hm, Option.bind_some]
  exact getElem?_set_self_of hx

theorem took_other {e' : Nat} (hne : place e' ≠ place e) :
    (st.took place i e a m x x').entryClient place e' = st.entryClient place e' := by
  simp only [Stack.entryClient, Stack.took]
  rcases Nat.decEq (place e').1 (place e).1 with hd | hd
  · rw [List.getElem?_set_ne (Ne.symm hd)]
  · have hc : (place e').2 ≠ (place e).2 := fun hc => hne (Prod.ext hd hc)
    rw [hd, getElem?_set_self_of hm, hm, Option.bind_some, Option.bind_some]
    exact List.getElem?_set_ne (Ne.symm hc)

end Took

/-- What execution `i` does in the client of entry `e` adds to the history of that entry
only. -/
structure OnlyEntry (st st' : Stack) (e : Nat) : Prop where
  session : st'.session = st.session
  started : ∃ l, st'.started = st.started ++ l ∧ ∀ q ∈ l, q.entry = e
  results : ∃ l, st'.results = st.results ++ l ∧ ∀ p ∈ l, p.1.entry = e

theorem EntryOk.other {e e' : Nat} {y : ClientState} (h : EntryOk st e' y)
    (honly : OnlyEntry st st' e) (hne : e' ≠ e) : EntryOk st' e' y := by
  obtain ⟨l, hl, hle⟩ := honly.started
  obtain ⟨k, hk, hke⟩ := honly.results
  refine ⟨h.right, fun hbusy => ?_, fun q hq heq => ?_, fun q v hq heq => ?_⟩
  · obtain ⟨i, hi, hstarted⟩ := h.busy hbusy
    rw [honly.session, hl]
    exact ⟨i, hi, List.mem_append_left _ hstarted⟩
  · rw [hl] at hq
    rcases List.mem_append.mp hq with hq | hq
    · exact h.numbers q hq heq
    · exact absurd (heq.symm.trans (hle q hq)) hne
  · rw [hk] at hq
    rcases List.mem_append.mp hq with hq | hq
    · obtain ⟨hstarted, hsync⟩ := h.results q v hq heq
      rw [hl]
      exact ⟨List.mem_append_left _ hstarted, hsync⟩
    · exact absurd (heq.symm.trans (hke _ hq)) hne

theorem took_only (i e : Nat) (a : ClientAct) (m : Machine) (x x' : ClientState) :
    OnlyEntry st (st.took place i e a m x x') e := by
  refine ⟨rfl, ?_, ?_⟩
  · simp only [Stack.took]
    split
    · exact ⟨_, rfl, fun q hq => by rw [List.mem_singleton.mp hq]⟩
    · exact ⟨[], (List.append_nil _).symm, fun q hq => by cases hq⟩
  · refine ⟨_, rfl, fun p hp => ?_⟩
    obtain ⟨s, _, rfl⟩ := List.mem_map.mp hp
    rfl

/-- What a step of `submit_and_wait` adds to the history. -/
theorem took_history (st : Stack) (place : Nat → Nat × Nat) (i e : Nat) (m : Machine)
    {a : ClientAct} {x x' : ClientState} (h : SyncMove x a x') :
    (x.pc = .idle ∧ x'.pc ≠ .idle ∧ x'.syncs = x.syncs ∧
      (st.took place i e a m x x').started = st.started ++ [⟨i, e, x.syncs.length⟩] ∧
      (st.took place i e a m x x').results = st.results) ∨
    (x.pc ≠ .idle ∧ (st.took place i e a m x x').started = st.started ∧
      ((x'.pc ≠ .idle ∧ x'.syncs = x.syncs ∧
        (st.took place i e a m x x').results = st.results) ∨
      ∃ s, x'.pc = .idle ∧ x'.syncs = x.syncs ++ [s] ∧
        (st.took place i e a m x x').results =
          st.results ++ [(⟨i, e, x.syncs.length⟩, s.value)])) := by
  cases h with
  | begun hpc hpc' hsyncs =>
    refine .inl ⟨hpc, hpc', hsyncs, rfl, ?_⟩
    simp only [Stack.took, hsyncs, List.drop_length, List.map_nil, List.append_nil]
  | inside ha hpc hpc' hsyncs =>
    refine .inr ⟨hpc, ?_, .inl ⟨hpc', hsyncs, ?_⟩⟩
    · simp only [Stack.took]
    · simp only [Stack.took, hsyncs, List.drop_length, List.map_nil, List.append_nil]
  | @ended _ _ s ha hpc hpc' hsyncs =>
    refine .inr ⟨hpc, ?_, .inr ⟨s, hpc', hsyncs, ?_⟩⟩
    · simp only [Stack.took]
    · simp only [Stack.took, hsyncs, List.drop_left, List.map_cons, List.map_nil]

theorem EntryOk.took {i e : Nat} {a : ClientAct} {m : Machine} {x x' : ClientState}
    (h : EntryOk st e x) (hi : st.session.client i = some e)
    (hunique : ∀ j, st.session.client j = some e → j = i) (hright : SyncRight x')
    (hmove : SyncMove x a x') : EntryOk (st.took place i e a m x x') e x' := by
  rcases took_history st place i e m hmove with ⟨hpc, hpc', hsyncs, hstarted, hresults⟩ |
    ⟨hpc, hstarted, ⟨hpc', hsyncs, hresults⟩ | ⟨s, hpc', hsyncs, hresults⟩⟩
  · -- a call begins, and all earlier ones have returned
    refine ⟨hright, fun _ => ⟨i, hi, ?_⟩, fun q hq heq => ?_, fun q v hq heq => ?_⟩
    · rw [hstarted, hsyncs]
      exact List.mem_append_right _ (List.mem_singleton_self _)
    · rw [hsyncs]
      rw [hstarted] at hq
      rcases List.mem_append.mp hq with hq | hq
      · exact .inl ((h.numbers q hq heq).resolve_right fun hn => hn.2 hpc)
      · cases List.mem_singleton.mp hq
        exact .inr ⟨rfl, hpc'⟩
    · rw [hresults] at hq
      rw [hstarted, hsyncs]
      obtain ⟨hq, hsync⟩ := h.results q v hq heq
      exact ⟨List.mem_append_left _ hq, hsync⟩
  · refine ⟨hright, fun _ => ?_, fun q hq heq => ?_, fun q v hq heq => ?_⟩
    · rw [hstarted, hsyncs]
      exact h.busy hpc
    · rw [hstarted] at hq
      rw [hsyncs]
      exact (h.numbers q hq heq).imp_right fun hn => ⟨hn.1, hpc'⟩
    · rw [hresults] at hq
      rw [hstarted, hsyncs]
      exact h.results q v hq heq
  · -- the call that ends is the one that this execution has begun
    obtain ⟨j, hj, hmem⟩ := h.busy hpc
    cases hunique j hj
    refine ⟨hright, fun hb => absurd hpc' hb, fun q hq heq => ?_, fun q v hq heq => ?_⟩
    · rw [hstarted] at hq
      rw [hsyncs, List.length_append, List.length_singleton]
      rcases h.numbers q hq heq with hn | ⟨hn, _⟩
      · exact .inl (Nat.lt_succ_of_lt hn)
      · exact .inl (hn ▸ Nat.lt_succ_self _)
    · rw [hresults] at hq
      rw [hstarted, hsyncs]
      rcases List.mem_append.mp hq with hq | hq
      · obtain ⟨hq, r, hr, hv⟩ := h.results q v hq heq
        refine ⟨hq, r, ?_, hv⟩
        rw [List.getElem?_append_left (List.getElem?_eq_some_iff.mp hr).1]
        exact hr
      · cases List.mem_singleton.mp hq
        exact ⟨hmem, s, List.getElem?_concat_length, rfl⟩

/-- Execution `i` takes a step in its client. -/
theorem Stacked.client (h : Stacked cfg n place st) {i e : Nat} {a : ClientAct} {m : Machine}
    {x x' : ClientState} (hi : st.session.client i = some e)
    (hm : st.devices[(place e).1]? = some m) (hx : m.clients[(place e).2]? = some x)
    (huser : a.byUser = true) (ha : a.syncOnly = true) (hs : clientStep x a = some x') :
    Stacked cfg n place (st.took place i e a m x x') := by
  have hown := (reach_sessionOk h.session).owning
  have hlt : e < n := hown.client_lt hi
  have hjoined := h.devices m (List.mem_of_getElem? hm)
  obtain ⟨y, hy, hok⟩ := h.entries e hlt
  have hxy : st.entryClient place e = some x := by
    rw [Stack.entryClient, hm, Option.bind_some]
    exact hx
  cases hxy.symm.trans hy
  have hmove := syncMove_of_step hok.right huser ha hs
  have hright : SyncRight x' :=
    syncRight_client (reach_delivering (hjoined.clients x (List.mem_of_getElem? hx))) hok.right ha hs
  have honly : OnlyEntry st (st.took place i e a m x x') e := took_only i e a m x x'
  refine ⟨h.session, ?_, h.apart, ?_, ?_, ?_, ?_⟩
  · intro z hz
    rcases List.mem_or_eq_of_mem_set hz with hz | rfl
    · exact h.devices z hz
    · exact joined_client hjoined huser hx hs
  · intro e' he'
    rcases Nat.decEq e' e with hne | rfl
    · obtain ⟨z, hz, hzok⟩ := h.entries e' he'
      refine ⟨z, ?_, hzok.other honly hne⟩
      rw [took_other hm fun hp => hne (h.apart e' e he' hlt hp)]
      exact hz
    · exact ⟨x', took_self hm hx,
        hok.took hi (fun j hj => hown.client_unique hj hi) hright hmove⟩
  · intro q v hq
    obtain ⟨l, hl, hle⟩ := honly.results
    rw [hl] at hq
    rcases List.mem_append.mp hq with hq | hq
    · exact h.results q v hq
    · exact hle _ hq ▸ hlt
  · rcases took_history st place i e m hmove with ⟨hpc, _, _, hstarted, _⟩ | ⟨_, hstarted, _⟩
    · rw [hstarted, List.map_append, List.nodup_append]
      refine ⟨h.once, List.nodup_singleton _, ?_⟩
      intro p hp p' hp' hpp
      obtain ⟨q, hq, rfl⟩ := List.mem_map.mp hp
      cases List.mem_singleton.mp hp'
      obtain ⟨heq, hnumber⟩ := Prod.mk.inj hpp
      rcases hok.numbers q hq heq with hn | ⟨_, hb⟩
      · exact Nat.ne_of_lt hn hnumber
      · exact hb hpc
    · rw [hstarted]
      exact h.once
  · rcases took_history st place i e m hmove with ⟨_, _, _, _, hresults⟩ |
      ⟨_, _, ⟨_, _, hresults⟩ | ⟨s, _, _, hresults⟩⟩
    · rw [hresults]
      exact h.returned
    · rw [hresults]
      exact h.returned
    · rw [hresults, List.map_append, List.nodup_append]
      refine ⟨h.returned, List.nodup_singleton _, ?_⟩
      intro q hq q' hq' hqq
      obtain ⟨⟨_, v⟩, hv, rfl⟩ := List.mem_map.mp hq
      cases List.mem_singleton.mp hq'
      cases hqq
      obtain ⟨_, r, hr, _⟩ := hok.results _ v hv rfl
      exact Nat.lt_irrefl _ (List.getElem?_eq_some_iff.mp hr).1

theorem stacked_step {a : StackAct} (h : Stacked cfg n place st)
    (hs : st.step cfg n place a = some st') : Stacked cfg n place st' := by
  cases a with
  | session a =>
    simp only [Stack.step] at hs
    split at hs
    · next i r =>
      split at hs
      · next hquiet =>
        obtain ⟨s, hstep, rfl⟩ := Option.map_eq_some_iff.mp hs
        refine h.sessionStep (fun j r' heq => ?_) hstep
        cases heq
        exact hquiet
      · cases hs
    · next hno =>
      obtain ⟨s, hstep, rfl⟩ := Option.map_eq_some_iff.mp hs
      exact h.sessionStep (fun i r heq => absurd heq (hno i r)) hstep
  | client i a =>
    simp only [Stack.step] at hs
    split at hs
    · next hact =>
      rw [Bool.and_eq_true] at hact
      obtain ⟨e, he, hs⟩ := Option.bind_eq_some_iff.mp hs
      obtain ⟨m, hm, hs⟩ := Option.bind_eq_some_iff.mp hs
      obtain ⟨x, hx, hs⟩ := Option.bind_eq_some_iff.mp hs
      obtain ⟨x', hx', hs⟩ := Option.bind_eq_some_iff.mp hs
      cases hs
      exact h.client he hm hx hact.1 hact.2 hx'
    · cases hs
  | device d a =>
    simp only [Stack.step] at hs
    split at hs
    · next c b =>
      split at hs
      · cases hs
      · next hfree =>
        obtain ⟨m, hm, hs⟩ := Option.bind_eq_some_iff.mp hs
        obtain ⟨m', hm', rfl⟩ := Option.map_eq_some_iff.mp hs
        refine h.device hm hm' fun e b' he hd heq => hfree ?_
        cases heq
        rw [pooled, List.any_eq_true]
        exact ⟨e, List.mem_range.mpr he, by rw [beq_iff_eq, ← hd]⟩
    · next hno =>
      obtain ⟨m, hm, hs⟩ := Option.bind_eq_some_iff.mp hs
      obtain ⟨m', hm', rfl⟩ := Option.map_eq_some_iff.mp hs
      exact h.device hm hm' fun e b _ _ heq => hno _ b heq

theorem reach_stacked (h : Reach (stackSystem cfg n place) (fun _ _ => True) st) :
    Stacked cfg n place st :=
  h.invariant (fun _ => stacked_init) fun _ _ _ hst _ hs => stacked_step hst hs

/-- Any number of executions over a pool of `n` entries, whatever else goes on at their
devices: no two calls of `submit_and_wait` have the same entry and number, each returns at
most once, and it returns to the execution that has made it, with what the driver of its
device answered to the one command that was issued for it. -/
theorem executions_answered (h : Reach (stackSystem cfg n place) (fun _ _ => True) st) :
    (st.started.map fun q => (q.entry, q.number)).Nodup ∧ (st.results.map Prod.fst).Nodup ∧
    ∀ q v, (q, v) ∈ st.results → q ∈ st.started ∧
      ∃ m, st.devices[(place q.entry).1]? = some m ∧
        ∃ k, (∀ k', m.calls[k']? = some ((place q.entry).2, q.number) ↔ k' = k) ∧
          m.kernel.Answers k v := by
  have hst := reach_stacked h
  refine ⟨hst.once, hst.returned, fun q v hq => ?_⟩
  obtain ⟨x, hx, hok⟩ := hst.entries q.entry (hst.results q v hq)
  obtain ⟨hstarted, s, hs, rfl⟩ := hok.results q v hq rfl
  obtain ⟨m, hm, hmx⟩ := entryClient_eq_some hx
  have hjoined := hst.devices m (List.mem_of_getElem? hm)
  exact ⟨hstarted, m, hm, hjoined.answered hmx hok.right hs⟩

end Stacked

/-! ## Two executions beside another process -/

/-- A pool of two entries on one device, which another process has a client of. -/
def twoEntries : Stack where
  session := { pool := { pool := create 2 } }
  devices := [⟨List.replicate 3 { flags := 0, depth := 4 }, .initial, [], []⟩]

/-- Two executions call `submit_and_wait` at once while the other process submits, and the
device answers the second. -/
def secondAnswered : List StackAct :=
  ([.execute, .execute, .allow 0, .allow 1, .acquire 0, .acquire 1, .start 0, .start 1] :
    List SessionAct).map .session ++
  [.client 0 (.submitAndWait (some 1)), .client 1 (.submitAndWait (some 1)),
    .device 0 (.client 2 (.submit 9 (some 1))), .device 0 (.uringCmd 1 0 (plainReq 1)),
    .device 0 (.uringCmd 2 0 (plainReq 1))] ++
  oneAnswered.map (fun a => .device 0 (.kernel a)) ++ [.client 1 (.waitCqe true), .client 1 .peekCqe]

theorem twoEntries_init : (stackSystem {} 2 (fun e => (0, e))).init twoEntries := by
  have hclient : clientSystem.init { flags := 0, depth := 4 } := ⟨3, 0, 4, by decide, rfl⟩
  refine ⟨⟨⟨rfl, rfl, rfl⟩, rfl, rfl⟩, rfl, rfl, ?_, ?_, fun e e' _ _ h => (Prod.mk.inj h).2⟩
  · intro m hm
    cases List.mem_singleton.mp hm
    have hrun : replay machineSystem (fun _ _ => true) ⟨[], .initial, [], []⟩
        (List.replicate 3 (.create 3 0 4)) =
        some ⟨List.replicate 3 { flags := 0, depth := 4 }, .initial, [], []⟩ := rfl
    exact replay_reach (fun _ _ _ => trivial) (.init rfl) hrun
  · intro e he
    match e, he with
    | 0, _ => exact ⟨_, rfl, hclient⟩
    | 1, _ => exact ⟨_, rfl, hclient⟩

theorem executions_answered_second :
    ∃ (st : Stack) (m : Machine) (v : Except Error DeepspanResult),
      (⟨1, 1, 0⟩, v) ∈ st.results ∧ v.toOption.map (·.status) = some 5 ∧ ⟨1, 1, 0⟩ ∈ st.started ∧
      st.devices[0]? = some m ∧ m.calls[0]? = some (1, 0) ∧ m.kernel.Answers 0 v := by
  obtain ⟨st, hrun, hview⟩ := Option.map_eq_some_iff.mp (show
    (replay (stackSystem {} 2 (fun e => (0, e))) (fun _ _ => true) twoEntries secondAnswered).map
        (fun st => (st.results.map fun p => (p.1, p.2.toOption.map (·.status)),
          st.devices.map Machine.calls)) =
      some ([(⟨1, 1, 0⟩, some 5)], [[(1, 0), (2, 0)]]) by decide)
  obtain ⟨hresults, hcalls⟩ := Prod.mk.inj hview
  obtain ⟨⟨q, v⟩, rest, hlist, hqv, _⟩ := List.map_eq_cons_iff.mp hresults
  obtain ⟨rfl, hv⟩ := Prod.mk.inj hqv
  have hmem : (⟨1, 1, 0⟩, v) ∈ st.results := hlist ▸ List.mem_cons_self
  obtain ⟨_, _, hall⟩ :=
    executions_answered (replay_reach (fun _ _ _ => trivial) (.init twoEntries_init) hrun)
  obtain ⟨hstarted, m, hm, k, hk, hanswer⟩ := hall _ v hmem
  have hcall : m.calls[0]? = some (1, 0) := by
    have hm' := congrArg (fun l => l[0]?) hcalls
    simp only [List.getElem?_map, hm, Option.map_some] at hm'
    rw [Option.some.inj hm']
    rfl
  cases (hk 0).mp hcall
  exact ⟨st, m, v, hmem, hv, hstarted, hm, hcall, hanswer⟩

end Deepspan
