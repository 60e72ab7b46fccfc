import Deepspan.Lib.QueuePair
import Deepspan.Lib.Transition

/-!
# The asynchronous client

`AsyncClient` of the user library: `submit`, `reap` and `submit_and_wait` on an
io_uring ring. The ring is a `QueuePair`; the kernel takes entries only inside
`io_uring_submit` and posts completions at any moment.

* `io_uring_get_sqe` fails when the submission queue is full. `io_uring_submit`
  may fail, which leaves the new entry queued, or pass on any number of the entries
  that are queued.
* `io_uring_wait_cqe` may fail; `io_uring_peek_cqe` finds the queue empty or not.
* The callback of a `reap` may call `submit` any number of times before it returns.
  The one inside `submit_and_wait` only assigns `captured`.
* The counter of `reap` is unbounded here; overflow is undefined in the source.

`delivered`, `reaps` and `syncs` are history: the callback invocations, and what the
calls of `reap` and `submit_and_wait` returned.
-/

namespace Deepspan

open Transition

/-- `deepspan::userlib::Error`. -/
inductive Error where
  | unsupportedKernelVersion
  | deviceOpenFailed
  | iouringSetupFailed
  | submitFailed
  | timeout
  | ioError
deriving DecidableEq, Repr

/-- `struct deepspan_result`; `{}` is all zero. -/
structure DeepspanResult where
  status : Int32 := 0
  resultLo : UInt32 := 0
  resultHi : UInt32 := 0
deriving DecidableEq, Repr

/-- What a completion carries besides the token: `res`, and in rings of 32-byte
completions a second result. -/
structure CqeResult where
  res : Int32
  bigCqe : Option UInt64
deriving DecidableEq, Repr

def ioringSetupCqe32 : UInt32 := 2048

/-- The completion that `io_uring_cmd_done` posts to a ring set up with `flags`. -/
def cmdDone (flags : UInt32) (ret : Int32) (res2 : UInt64) : CqeResult :=
  ⟨ret, if flags &&& ioringSetupCqe32 ≠ 0 then some res2 else none⟩

/-- What `reap` makes of a completion for its callback. -/
def completionResult (cqe : CqeResult) : Except Error DeepspanResult :=
  let dr : DeepspanResult := { status := cqe.res }
  if dr.status < 0 then .error .ioError else .ok dr

/-- Who has called `reap`: the user, or `submit_and_wait` for its request `own`. -/
inductive Caller where
  | user
  | submitAndWait (own : Nat)
deriving DecidableEq, Repr

/-- The local variables of a call of `reap` and of the `submit_and_wait` around it. -/
structure Drain where
  caller : Caller
  count : Nat := 0
  captured : Except Error DeepspanResult := .error .ioError

inductive ClientPc where
  | idle
  | waitCqe (d : Drain)
  | callback (d : Drain)
  | peekCqe (d : Drain)

abbrev RingCqe := QueuePair.Completion UInt64 CqeResult

/-- An invocation of a callback, by the `reap` call number `reap`. -/
structure Delivery where
  reap : Nat
  cqe : RingCqe
  token : UInt64
  result : Except Error DeepspanResult

/-- A call of `reap` that has returned `ret`, and the completions `posted` by then. -/
structure ReapEnd where
  ret : Except Error Nat
  posted : List RingCqe

/-- A call of `submit_and_wait` that has returned `value`; `own` is its request unless
`submit` failed, and `reaped` says whether its `reap` succeeded. -/
structure SyncEnd where
  own : Option Nat
  reaped : Bool
  value : Except Error DeepspanResult

structure ClientState where
  flags : UInt32
  depth : Nat
  ring : QueuePair UInt64 CqeResult := .empty
  pc : ClientPc := .idle
  delivered : List Delivery := []
  reaps : List ReapEnd := []
  syncs : List SyncEnd := []

namespace ClientState

/-- `AsyncClient::create`, where `io_uring_queue_init` has returned `ret` for a ring of
`depth` entries with the flags 0. -/
def create (fd ret : Int) (depth : Nat) : Except Error ClientState :=
  if fd < 0 then .error .deviceOpenFailed
  else if ret < 0 then .error .iouringSetupFailed
  else .ok { flags := 0, depth := depth }

/-- `submit`; `submitted` is what `io_uring_submit` returns, `none` for an error. -/
def submit (s : ClientState) (userData : UInt64) (submitted : Option Nat) :
    Except Error Unit × ClientState :=
  if s.depth ≤ s.ring.sq.length then (.error .submitFailed, s)
  else
    match submitted with
    | none => (.error .submitFailed, { s with ring := s.ring.push userData })
    | some k => (.ok (), { s with ring := (s.ring.push userData).take k })

/-- The completion at the head of the queue goes to the callback. -/
def handOver (s : ClientState) (d : Drain) (cqe : RingCqe) (rest : List RingCqe) : ClientState :=
  let result := completionResult cqe.res
  { s with
    ring := s.ring.pop cqe rest
    delivered := s.delivered ++ [⟨s.reaps.length, cqe, cqe.token, result⟩]
    pc := match d.caller with
      | .user => .callback { d with count := d.count + 1 }
      | .submitAndWait _ => .peekCqe { d with count := d.count + 1, captured := result } }

/-- `reap` returns, and with it the `submit_and_wait` that has called it. -/
def finish (s : ClientState) (d : Drain) (ret : Except Error Nat) : ClientState :=
  { s with
    pc := .idle
    reaps := s.reaps ++ [⟨ret, s.ring.posted⟩]
    syncs := match d.caller, ret with
      | .user, _ => s.syncs
      | .submitAndWait own, .error e => s.syncs ++ [⟨some own, false, .error e⟩]
      | .submitAndWait own, .ok _ => s.syncs ++ [⟨some own, true, d.captured⟩] }

end ClientState

inductive ClientAct where
  | submit (userData : UInt64) (submitted : Option Nat)
  | reap (wait : Bool)
  | submitAndWait (submitted : Option Nat)
  | waitCqe (ok : Bool)
  | callbackReturn
  | peekCqe
  | post (r : Nat) (ret : Int32) (res2 : UInt64)
deriving DecidableEq

open ClientState in
def clientStep (s : ClientState) : ClientAct → Option ClientState
  | .submit userData submitted =>
    match s.pc with
    | .idle | .callback _ => some (s.submit userData submitted).2
    | .waitCqe _ | .peekCqe _ => none
  | .reap wait =>
    match s.pc with
    | .idle =>
      some { s with pc := if wait then .waitCqe { caller := .user } else .peekCqe { caller := .user } }
    | .waitCqe _ | .callback _ | .peekCqe _ => none
  | .submitAndWait submitted =>
    match s.pc with
    | .idle =>
      match s.submit 0 submitted with
      | (.error e, s') => some { s' with syncs := s'.syncs ++ [⟨none, false, .error e⟩] }
      | (.ok (), s') =>
        some { s' with pc := .waitCqe { caller := .submitAndWait s.ring.tokens.length } }
    | .waitCqe _ | .callback _ | .peekCqe _ => none
  | .waitCqe ok =>
    match s.pc with
    | .waitCqe d =>
      if ok then
        match s.ring.cq with
        | cqe :: rest => some (s.handOver d cqe rest)
        | [] => none
      else some (s.finish d (.error .ioError))
    | .idle | .callback _ | .peekCqe _ => none
  | .callbackReturn =>
    match s.pc with
    | .callback d => some { s with pc := .peekCqe d }
    | .idle | .waitCqe _ | .peekCqe _ => none
  | .peekCqe =>
    match s.pc with
    | .peekCqe d =>
      match s.ring.cq with
      | cqe :: rest => some (s.handOver d cqe rest)
      | [] => some (s.finish d (.ok d.count))
    | .idle | .waitCqe _ | .callback _ => none
  | .post r ret res2 =>
    (s.ring.post r (cmdDone s.flags ret res2)).map fun ring => { s with ring := ring }

def clientSystem : System ClientState ClientAct where
  init s := ∃ fd ret depth, 0 < depth ∧ ClientState.create fd ret depth = .ok s
  step := clientStep

variable {s s' : ClientState} {a : ClientAct}

theorem clientSystem_init (h : clientSystem.init s) : ∃ depth, s = { flags := 0, depth := depth } := by
  obtain ⟨fd, ret, depth, _, hcreate⟩ := h
  unfold ClientState.create at hcreate
  split at hcreate
  · cases hcreate
  · split at hcreate
    · cases hcreate
    · cases hcreate
      exact ⟨depth, rfl⟩

/-- What a step can do, for a call of `submit_and_wait` by the outcome of its `submit`. -/
inductive ClientStep (s : ClientState) : ClientAct → ClientState → Prop
  | submit {u : UInt64} {k : Option Nat} : (s.pc = .idle ∨ ∃ d, s.pc = .callback d) →
      ClientStep s (.submit u k) (s.submit u k).2
  | reap {w : Bool} : s.pc = .idle →
      ClientStep s (.reap w) { s with
        pc := if w then .waitCqe { caller := .user } else .peekCqe { caller := .user } }
  | refused {k : Option Nat} {e : Error} : s.pc = .idle → (s.submit 0 k).1 = .error e →
      ClientStep s (.submitAndWait k) { (s.submit 0 k).2 with
        syncs := (s.submit 0 k).2.syncs ++ [⟨none, false, .error e⟩] }
  | accepted {k : Option Nat} : s.pc = .idle → (s.submit 0 k).1 = .ok () →
      ClientStep s (.submitAndWait k) { (s.submit 0 k).2 with
        pc := .waitCqe { caller := .submitAndWait s.ring.tokens.length } }
  | waited {d : Drain} {cqe : RingCqe} {rest : List RingCqe} : s.pc = .waitCqe d →
      s.ring.cq = cqe :: rest → ClientStep s (.waitCqe true) (s.handOver d cqe rest)
  | waitFailed {d : Drain} : s.pc = .waitCqe d →
      ClientStep s (.waitCqe false) (s.finish d (.error .ioError))
  | callbackReturn {d : Drain} : s.pc = .callback d →
      ClientStep s .callbackReturn { s with pc := .peekCqe d }
  | peeked {d : Drain} {cqe : RingCqe} {rest : List RingCqe} : s.pc = .peekCqe d →
      s.ring.cq = cqe :: rest → ClientStep s .peekCqe (s.handOver d cqe rest)
  | drained {d : Drain} : s.pc = .peekCqe d → s.ring.cq = [] →
      ClientStep s .peekCqe (s.finish d (.ok d.count))
  | post {r : Nat} {ret : Int32} {res2 : UInt64} {q : QueuePair UInt64 CqeResult} :
      s.ring.post r (cmdDone s.flags ret res2) = some q →
      ClientStep s (.post r ret res2) { s with ring := q }

theorem clientStep_cases (h : clientStep s a = some s') : ClientStep s a s' := by
  cases a with
  | submit u k =>
    simp only [clientStep] at h
    split at h
    · next hpc =>
      cases h
      exact .submit (.inl hpc)
    · next d hpc =>
      cases h
      exact .submit (.inr ⟨d, hpc⟩)
    · cases h
    · cases h
  | reap w =>
    simp only [clientStep] at h
    split at h
    · next hpc =>
      cases h
      exact .reap hpc
    all_goals cases h
  | submitAndWait k =>
    simp only [clientStep] at h
    split at h
    · next hpc =>
      split at h
      · next e s1 hsub =>
        cases h
        obtain rfl : (s.submit 0 k).2 = s1 := by rw [hsub]
        exact .refused hpc (by rw [hsub])
      · next s1 hsub =>
        cases h
        obtain rfl : (s.submit 0 k).2 = s1 := by rw [hsub]
        exact .accepted hpc (by rw [hsub])
    all_goals cases h
  | waitCqe ok =>
    simp only [clientStep] at h
    split at h
    · next d hpc =>
      split at h
      · next hok =>
        subst hok
        split at h
        · next cqe rest hcq =>
          cases h
          exact .waited hpc hcq
        · cases h
      · next hok =>
        cases ok with
        | true => exact absurd rfl hok
        | false =>
          cases h
          exact .waitFailed hpc
    all_goals cases h
  | callbackReturn =>
    simp only [clientStep] at h
    split at h
    · next d hpc =>
      cases h
      exact .callbackReturn hpc
    all_goals cases h
  | peekCqe =>
    simp only [clientStep] at h
    split at h
    · next d hpc =>
      split at h
      · next cqe rest hcq =>
        cases h
        exact .peeked hpc hcq
      · next hcq =>
        cases h
        exact .drained hpc hcq
    all_goals cases h
  | post r ret res2 =>
    simp only [clientStep] at h
    obtain ⟨q, hq, rfl⟩ := Option.map_eq_some_iff.mp h
    exact .post hq

/-- `submit` touches the ring only: it fails with the queue full, or pushes its entry,
of which `io_uring_submit` makes what it will. -/
theorem submit_cases (s : ClientState) (u : UInt64) (k : Option Nat) :
    (s.depth ≤ s.ring.sq.length ∧ s.submit u k = (.error .submitFailed, s)) ∨
    (s.ring.sq.length < s.depth ∧ k = none ∧
      s.submit u k = (.error .submitFailed, { s with ring := s.ring.push u })) ∨
    (∃ n, s.ring.sq.length < s.depth ∧ k = some n ∧
      s.submit u k = (.ok (), { s with ring := (s.ring.push u).take n })) := by
  unfold ClientState.submit
  split
  · next hfull => exact .inl ⟨hfull, rfl⟩
  · next hroom =>
    rw [Nat.not_le] at hroom
    cases k with
    | none => exact .inr (.inl ⟨hroom, rfl, rfl⟩)
    | some n => exact .inr (.inr ⟨n, hroom, rfl, rfl⟩)

end Deepspan
