import Deepspan.Userlib.Reap

/-!
# Requests whose submission has failed

`AsyncClient::submit` returns `SubmitFailed` on two paths: `io_uring_get_sqe` finds no slot,
or `io_uring_submit` fails after the slot has been filled. On the second path the entry stays
in the submission queue, and the next `io_uring_submit` that succeeds passes it on with its
own: the device gets a request that its caller was told has failed.

The runs are those of `clientSystem` with a history of the calls of `submit`, and with
liburing as documented: an `io_uring_submit` that succeeds passes on every reserved slot, and
one that fails leaves them reserved. `failed_submit_withdrawn_iff` says which of them keep
every failed request from the device: those in which `io_uring_submit` succeeds only while
nothing is left in the queue.
-/

namespace Deepspan

open Transition

/-- The token and the outcome of `io_uring_submit` in an action that calls `submit`. -/
def ClientAct.submission? : ClientAct → Option (UInt64 × Option Nat)
  | .submit userData submitted => some (userData, submitted)
  | .submitAndWait submitted => some (0, submitted)
  | _ => none

/-- A call of `submit`, with the number of the entry it has filled, if it got one. -/
structure SubmitCall where
  userData : UInt64
  entry : Option Nat
  ret : Except Error Unit

def ClientState.submitCall (s : ClientState) (userData : UInt64) (submitted : Option Nat) :
    SubmitCall where
  userData := userData
  entry := if s.depth ≤ s.ring.sq.length then none else some s.ring.tokens.length
  ret := (s.submit userData submitted).1

/-- The entry of a call that has failed. -/
def SubmitCall.failedEntry (call : SubmitCall) : Option Nat :=
  match call.ret with
  | .error .submitFailed => call.entry
  | _ => none

structure SubmitRun where
  client : ClientState
  calls : List SubmitCall := []

namespace SubmitRun

/-- The entries that failed calls have left behind. -/
def failed (r : SubmitRun) : List Nat := r.calls.filterMap SubmitCall.failedEntry

/-- `io_uring_submit` is called, and succeeds. -/
def Passes (r : SubmitRun) (a : ClientAct) : Prop :=
  r.client.ring.sq.length < r.client.depth ∧ ∃ u n, a.submission? = some (u, some n)

/-- It then passes on every reserved slot, the new one included. -/
def Contract (r : SubmitRun) (a : ClientAct) : Prop :=
  r.client.ring.sq.length < r.client.depth →
    ∀ u n, a.submission? = some (u, some n) → n = r.client.ring.sq.length + 1

/-- No request of a call that returned `SubmitFailed` is with the device, is completed, or is
delivered to a callback. -/
def Withdrawn (r : SubmitRun) : Prop :=
  ∀ call ∈ r.calls, call.ret = .error .submitFailed → ∀ n, call.entry = some n →
    n ∉ r.client.ring.inflight ∧ (∀ c ∈ r.client.ring.posted, c.req ≠ n) ∧
      ∀ d ∈ r.client.delivered, d.cqe.req ≠ n

end SubmitRun

def submitRunStep (r : SubmitRun) (a : ClientAct) : Option SubmitRun :=
  (clientStep r.client a).map fun s =>
    { client := s
      calls := match a.submission? with
        | some (userData, submitted) => r.calls ++ [r.client.submitCall userData submitted]
        | none => r.calls }

def submitRunSystem : System SubmitRun ClientAct where
  init r := clientSystem.init r.client ∧ r.calls = []
  step := submitRunStep

variable {r r' : SubmitRun} {a : ClientAct}

/-- What a step does to the queue: it is a call of `submit`, or leaves it alone. -/
theorem clientStep_queue {s s' : ClientState} (h : clientStep s a = some s') :
    (∃ u k, a.submission? = some (u, k) ∧ s'.ring = (s.submit u k).2.ring) ∨
    (a.submission? = none ∧ s'.ring.sq = s.ring.sq ∧ s'.ring.tokens = s.ring.tokens) := by
  cases clientStep_cases h with
  | submit _ => exact .inl ⟨_, _, rfl, rfl⟩
  | reap _ => exact .inr ⟨rfl, rfl, rfl⟩
  | refused _ _ => exact .inl ⟨_, _, rfl, rfl⟩
  | accepted _ _ => exact .inl ⟨_, _, rfl, rfl⟩
  | waited _ _ => exact .inr ⟨rfl, rfl, rfl⟩
  | waitFailed _ => exact .inr ⟨rfl, rfl, rfl⟩
  | callbackReturn _ => exact .inr ⟨rfl, rfl, rfl⟩
  | peeked _ _ => exact .inr ⟨rfl, rfl, rfl⟩
  | drained _ _ => exact .inr ⟨rfl, rfl, rfl⟩
  | post hq =>
    obtain ⟨_, t, _, rfl⟩ := QueuePair.post_cases hq
    exact .inr ⟨rfl, rfl, rfl⟩

/-- The three things that can happen to the queue and to the failed entries. -/
inductive QueueStep (r : SubmitRun) (a : ClientAct) (r' : SubmitRun) : Prop
  | untouched : ¬r.Passes a → r'.failed = r.failed → r'.client.ring.sq = r.client.ring.sq →
      r'.client.ring.tokens = r.client.ring.tokens → QueueStep r a r'
  | left {u : UInt64} : ¬r.Passes a → r'.failed = r.failed ++ [r.client.ring.tokens.length] →
      r'.client.ring.sq = r.client.ring.sq ++ [r.client.ring.tokens.length] →
      r'.client.ring.tokens = r.client.ring.tokens ++ [u] → QueueStep r a r'
  | passed {u : UInt64} : r.Passes a → r'.failed = r.failed → r'.client.ring.sq = [] →
      r'.client.ring.tokens = r.client.ring.tokens ++ [u] → QueueStep r a r'

theorem submitRunStep_cases (hc : r.Contract a) (h : submitRunStep r a = some r') :
    QueueStep r a r' := by
  obtain ⟨s', hs, rfl⟩ := Option.map_eq_some_iff.mp h
  rcases clientStep_queue hs with ⟨u, k, hsub, hring⟩ | ⟨hsub, hsq, htokens⟩
  · have hfailed : (SubmitRun.mk s' (r.calls ++ [r.client.submitCall u k])).failed =
        r.failed ++ (r.client.submitCall u k).failedEntry.toList := by
      rw [SubmitRun.failed, List.filterMap_append, List.filterMap_cons, List.filterMap_nil]
      cases (r.client.submitCall u k).failedEntry <;> rfl
    simp only [hsub]
    rcases submit_cases r.client u k with ⟨hfull, hret⟩ | ⟨hroom, rfl, hret⟩ | ⟨n, hroom, rfl, hret⟩
    · have hentry : (r.client.submitCall u k).failedEntry = none := by
        simp [SubmitCall.failedEntry, ClientState.submitCall, hret, hfull]
      rw [hret] at hring
      refine .untouched ?_ (by simpa [hentry] using hfailed) (by rw [hring]) (by rw [hring])
      rintro ⟨hroom, _⟩
      omega
    · have hentry : (r.client.submitCall u none).failedEntry = some r.client.ring.tokens.length := by
        simp [SubmitCall.failedEntry, ClientState.submitCall, hret, Nat.not_le.mpr hroom]
      rw [hret] at hring
      refine .left ?_ (by simpa [hentry] using hfailed) (by rw [hring]; rfl) (by rw [hring]; rfl)
      rintro ⟨_, u', n, hpasses⟩
      rw [hsub] at hpasses
      cases hpasses
    · have hentry : (r.client.submitCall u (some n)).failedEntry = none := by
        simp [SubmitCall.failedEntry, ClientState.submitCall, hret]
      rw [hret] at hring
      have hall : n = r.client.ring.sq.length + 1 := hc hroom u n hsub
      refine .passed ⟨hroom, u, n, hsub⟩ (by simpa [hentry] using hfailed) ?_ (by rw [hring]; rfl)
      rw [hring]
      refine List.drop_eq_nil_of_le (Nat.le_of_eq ?_)
      rw [hall, QueuePair.push, List.length_append, List.length_singleton]
  · simp only [hsub]
    refine .untouched ?_ rfl hsq htokens
    rintro ⟨_, u, n, hpasses⟩
    rw [hsub] at hpasses
    cases hpasses

/-! ## The invariant -/

/-- Everything in the queue has been left there by a failed call. -/
structure Leftovers (r : SubmitRun) : Prop where
  delivering : Delivering r.client
  queued : ∀ n ∈ r.client.ring.sq, n ∈ r.failed
  made : ∀ n ∈ r.failed, n < r.client.ring.tokens.length

theorem leftovers_init (h : submitRunSystem.init r) : Leftovers r := by
  obtain ⟨hclient, hcalls⟩ := h
  obtain ⟨depth, heq⟩ := clientSystem_init hclient
  refine ⟨delivering_init hclient, ?_, ?_⟩
  · intro n hn
    rw [heq] at hn
    cases hn
  · intro n hn
    rw [SubmitRun.failed, hcalls] at hn
    cases hn

theorem leftovers_step (h : Leftovers r) (hc : r.Contract a) (hs : submitRunStep r a = some r') :
    Leftovers r' := by
  obtain ⟨s', hclient, heq⟩ := Option.map_eq_some_iff.mp hs
  have hdel : Delivering r'.client := by
    rw [← heq]
    exact delivering_step h.delivering hclient
  rcases submitRunStep_cases hc hs with
    ⟨_, hfailed, hsq, htokens⟩ | ⟨_, hfailed, hsq, htokens⟩ | ⟨_, hfailed, hsq, htokens⟩
  · exact ⟨hdel, by rw [hfailed, hsq]; exact h.queued, by rw [hfailed, htokens]; exact h.made⟩
  · refine ⟨hdel, ?_, ?_⟩
    · intro n hn
      rw [hsq, List.mem_append] at hn
      rw [hfailed, List.mem_append]
      exact hn.imp_left (h.queued n)
    · intro n hn
      rw [hfailed, List.mem_append, List.mem_singleton] at hn
      rw [htokens, List.length_append, List.length_singleton]
      rcases hn with hn | rfl
      · exact Nat.lt_succ_of_lt (h.made n hn)
      · exact Nat.lt_succ_self _
  · refine ⟨hdel, ?_, ?_⟩
    · intro n hn
      rw [hsq] at hn
      cases hn
    · intro n hn
      rw [hfailed] at hn
      rw [htokens, List.length_append, List.length_singleton]
      exact Nat.lt_succ_of_lt (h.made n hn)

/-- A failed request has not been issued as long as its entry is still in the queue. -/
theorem withdrawn_iff (h : Leftovers r) :
    r.Withdrawn ↔ ∀ n ∈ r.failed, n ∈ r.client.ring.sq := by
  have honce := h.delivering.conserved.once
  have hnodup := honce.nodup_iff.mpr List.nodup_range
  have hposted : ∀ d ∈ r.client.delivered, d.cqe ∈ r.client.ring.posted := by
    intro d hd
    refine List.mem_append_left _ ?_
    rw [← h.delivering.seen]
    exact List.mem_map_of_mem hd
  constructor
  · intro hw n hn
    obtain ⟨call, hcall, hentry⟩ := List.mem_filterMap.mp hn
    have hret : call.ret = .error .submitFailed ∧ call.entry = some n := by
      unfold SubmitCall.failedEntry at hentry
      split at hentry
      · next hret => exact ⟨hret, hentry⟩
      · cases hentry
    obtain ⟨hinflight, hnotposted, _⟩ := hw call hcall hret.1 n hret.2
    have hmem : n ∈ r.client.ring.sq ++ r.client.ring.inflight ++
        r.client.ring.posted.map (·.req) := honce.mem_iff.mpr (List.mem_range.mpr (h.made n hn))
    rcases List.mem_append.mp hmem with hmem | hmem
    · exact (List.mem_append.mp hmem).resolve_right hinflight
    · obtain ⟨c, hc, hreq⟩ := List.mem_map.mp hmem
      exact absurd hreq (hnotposted c hc)
  · intro hsq call hcall hret n hentry
    have hn : n ∈ r.client.ring.sq :=
      hsq n (List.mem_filterMap.mpr ⟨call, hcall, by rw [SubmitCall.failedEntry, hret, hentry]⟩)
    obtain ⟨hfirst, _, hapart⟩ := List.nodup_append.mp hnodup
    have hnotposted : ∀ c ∈ r.client.ring.posted, c.req ≠ n := by
      intro c hc heq
      exact hapart n (List.mem_append_left _ hn) c.req (List.mem_map_of_mem hc) heq.symm
    refine ⟨?_, hnotposted, fun d hd => hnotposted d.cqe (hposted d hd)⟩
    intro hinflight
    exact (List.nodup_append.mp hfirst).2.2 n hn n hinflight rfl

/-- A step keeps the failed requests from the device exactly if it passes nothing on, or finds
the queue empty. -/
theorem withdrawn_step (h : Leftovers r) (hc : r.Contract a) (hs : submitRunStep r a = some r') :
    r'.Withdrawn ↔ r.Withdrawn ∧ (r.Passes a → r.client.ring.sq = []) := by
  rw [withdrawn_iff h, withdrawn_iff (leftovers_step h hc hs)]
  rcases submitRunStep_cases hc hs with
    ⟨hno, hfailed, hsq, _⟩ | ⟨hno, hfailed, hsq, _⟩ | ⟨hpasses, hfailed, hsq, _⟩
  · rw [hfailed, hsq]
    exact (and_iff_left fun hpasses => absurd hpasses hno).symm
  · rw [hfailed, hsq, and_iff_left fun hpasses => absurd hpasses hno]
    constructor
    · intro hall n hn
      refine (List.mem_append.mp (hall n (List.mem_append_left _ hn))).resolve_right ?_
      intro hlast
      exact absurd (h.made n hn) (List.mem_singleton.mp hlast ▸ Nat.lt_irrefl _)
    · intro hall n hn
      exact List.mem_append.mpr ((List.mem_append.mp hn).imp_left (hall n))
  · -- the queue is empty afterwards: no entry may have failed, and so none was queued
    rw [hfailed, hsq]
    constructor
    · intro hall
      refine ⟨fun n hn => absurd (hall n hn) List.not_mem_nil, fun _ => ?_⟩
      exact List.eq_nil_iff_forall_not_mem.mpr fun n hn =>
        absurd (hall n (h.queued n hn)) List.not_mem_nil
    · rintro ⟨hall, hempty⟩ n hn
      rw [← hempty hpasses]
      exact hall n hn

/-- The runs that never issue or complete a request whose `submit` returned `SubmitFailed` are
those in which `io_uring_submit` succeeds only while the submission queue is empty. -/
theorem failed_submit_withdrawn_iff (r : SubmitRun) :
    Reach submitRunSystem (fun r a => r.Contract a ∧ (r.Passes a → r.client.ring.sq = [])) r ↔
      Reach submitRunSystem (fun r a => r.Contract a) r ∧ r.Withdrawn := by
  refine Reach.exact (P := Leftovers) ?_ ?_ ?_
  · intro r h0
    refine ⟨leftovers_init h0, ?_⟩
    intro call hcall
    rw [h0.2] at hcall
    cases hcall
  · intro r a r' hP hc hs
    exact leftovers_step hP hc hs
  · intro r a r' hP hc hs
    exact withdrawn_step hP hc hs

/-- The `io_uring_submit` of the request 7 fails; that of the request 9 succeeds. -/
def passedOnLater : List ClientAct :=
  [.submit 7 none, .submit 9 (some 2), .post 0 3 0, .reap true, .waitCqe true]

/-- An `io_uring_submit` that succeeds passes on all that the ring holds. -/
def SubmitRun.passesAll (r : SubmitRun) (a : ClientAct) : Bool :=
  match a.submission? with
  | some (_, some n) => n == r.client.ring.sq.length + 1
  | _ => true

/-- `submit` has returned `SubmitFailed` for the request 7, and a callback is handed its
completion. -/
theorem failed_submit_delivered :
    ∃ r, Reach submitRunSystem (fun r a => r.Contract a) r ∧
      (r.calls.map fun call => (call.userData, call.entry, call.ret)) =
        [(7, some 0, .error .submitFailed), (9, some 1, .ok ())] ∧
      (r.client.delivered.map fun d => (d.cqe.req, d.token)) = [(0, 7)] ∧ ¬r.Withdrawn := by
  have hinit : submitRunSystem.init ⟨{ flags := 0, depth := 64 }, []⟩ :=
    ⟨⟨3, 0, 64, by decide, rfl⟩, rfl⟩
  have hcontract : ∀ (r : SubmitRun) a, r.passesAll a = true → r.Contract a := by
    intro r a h _ u n hsub
    simp only [SubmitRun.passesAll, hsub, beq_iff_eq] at h
    exact h
  obtain ⟨r, hr⟩ : ∃ r, replay submitRunSystem SubmitRun.passesAll ⟨{ flags := 0, depth := 64 }, []⟩
      passedOnLater = some r := ⟨_, rfl⟩
  have hreach := replay_reach hcontract (.init hinit) hr
  cases hr
  refine ⟨_, hreach, rfl, rfl, ?_⟩
  intro h
  have hgone := (h _ List.mem_cons_self rfl 0 rfl).2.2
  exact hgone _ List.mem_cons_self rfl

end Deepspan
