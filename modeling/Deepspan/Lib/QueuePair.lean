/-!
# A submission queue and a completion queue

A pair of rings as a client shares them with a kernel: entries are pushed into the
submission queue, taken from it by the kernel in order, completed in any order, and
their completions are popped from the completion queue. An entry is named by its
number; `seen` is the history of the completions that have been popped, so that
`seen ++ cq` are all that have been posted.

`Conserved` is kept by every operation: an entry is in one place at a time, and a
completion carries the token of its entry. `Conserved.seen_nodup` is what a client
that drains the queue wants of it.
-/

/-- The completion of entry `req`, with the entry's token. -/
structure QueuePair.Completion (T R : Type) where
  req : Nat
  token : T
  res : R
deriving DecidableEq, Repr

/-- `tokens` are those of all entries ever pushed, in order. -/
structure QueuePair (T R : Type) where
  tokens : List T
  sq : List Nat
  inflight : List Nat
  cq : List (QueuePair.Completion T R)
  seen : List (QueuePair.Completion T R)
deriving DecidableEq, Repr

namespace QueuePair

variable {T R : Type}

def empty : QueuePair T R := ⟨[], [], [], [], []⟩

def posted (q : QueuePair T R) : List (Completion T R) := q.seen ++ q.cq

/-- The entries whose completions have not been popped. -/
def outstanding (q : QueuePair T R) : List Nat := q.sq ++ q.inflight ++ q.cq.map (·.req)

def push (q : QueuePair T R) (t : T) : QueuePair T R :=
  { q with tokens := q.tokens ++ [t], sq := q.sq ++ [q.tokens.length] }

/-- The kernel takes the first `k` entries of the submission queue. -/
def take (q : QueuePair T R) (k : Nat) : QueuePair T R :=
  { q with sq := q.sq.drop k, inflight := q.inflight ++ q.sq.take k }

/-- The kernel completes the entry `r`, if it has it. -/
def post (q : QueuePair T R) (r : Nat) (res : R) : Option (QueuePair T R) :=
  if r ∈ q.inflight then
    q.tokens[r]?.map fun t =>
      { q with inflight := q.inflight.erase r, cq := q.cq ++ [⟨r, t, res⟩] }
  else none

/-- Pop the completion `c`, followed by `rest`. -/
def pop (q : QueuePair T R) (c : Completion T R) (rest : List (Completion T R)) : QueuePair T R :=
  { q with cq := rest, seen := q.seen ++ [c] }

structure Conserved (q : QueuePair T R) : Prop where
  once : (q.sq ++ q.inflight ++ q.posted.map (·.req)).Perm (List.range q.tokens.length)
  tokens : ∀ c ∈ q.posted, q.tokens[c.req]? = some c.token

variable {q q' : QueuePair T R} {c : Completion T R}

theorem conserved_empty : (empty : QueuePair T R).Conserved where
  once := List.Perm.refl _
  tokens := by
    intro c hc
    cases hc

theorem posted_pop {rest : List (Completion T R)} (h : q.cq = c :: rest) :
    (q.pop c rest).posted = q.posted := by
  simp [pop, posted, h]

theorem Conserved.pop {rest : List (Completion T R)} (h : q.Conserved) (hc : q.cq = c :: rest) :
    (q.pop c rest).Conserved where
  once := by
    rw [posted_pop hc]
    exact h.once
  tokens := by
    rw [posted_pop hc]
    exact h.tokens

theorem Conserved.push (h : q.Conserved) (t : T) : (q.push t).Conserved where
  once := by
    refine List.perm_iff_count.mpr fun x => ?_
    have hx := h.once.count_eq x
    simp only [List.count_append] at hx
    simp only [QueuePair.push, posted, List.length_append, List.length_singleton, List.range_succ,
      List.count_append, List.map_append] at hx ⊢
    omega
  tokens := by
    intro c hc
    have hlt := (List.getElem?_eq_some_iff.mp (h.tokens c hc)).1
    exact (List.getElem?_append_left hlt).trans (h.tokens c hc)

theorem Conserved.take (h : q.Conserved) (k : Nat) : (q.take k).Conserved where
  once := by
    refine List.perm_iff_count.mpr fun x => ?_
    have hx := h.once.count_eq x
    have hsplit : q.sq.count x = (q.sq.take k).count x + (q.sq.drop k).count x := by
      rw [← List.count_append, List.take_append_drop]
    simp only [QueuePair.take, posted, List.count_append, List.map_append] at hx ⊢
    omega
  tokens := h.tokens

theorem post_cases {r : Nat} {res : R} (h : q.post r res = some q') :
    r ∈ q.inflight ∧ ∃ t, q.tokens[r]? = some t ∧
      q' = { q with inflight := q.inflight.erase r, cq := q.cq ++ [⟨r, t, res⟩] } := by
  unfold post at h
  split at h
  · next hr =>
    obtain ⟨t, ht, rfl⟩ := Option.map_eq_some_iff.mp h
    exact ⟨hr, t, ht, rfl⟩
  · cases h

theorem Conserved.post {r : Nat} {res : R} (h : q.Conserved) (hp : q.post r res = some q') :
    q'.Conserved := by
  obtain ⟨hr, t, ht, rfl⟩ := post_cases hp
  refine ⟨?_, ?_⟩
  · refine List.perm_iff_count.mpr fun x => ?_
    have hx := h.once.count_eq x
    have hsplit := (List.perm_cons_erase hr).count_eq x
    rw [List.count_cons] at hsplit
    simp only [posted, List.count_append, List.map_append, List.map_cons, List.map_nil,
      List.count_singleton] at hx ⊢
    omega
  · intro c hc
    rw [posted, ← List.append_assoc] at hc
    rcases List.mem_append.mp hc with hc | hc
    · exact h.tokens c hc
    · cases List.mem_singleton.mp hc
      exact ht

/-- No entry is completed twice. -/
theorem Conserved.posted_nodup (h : q.Conserved) : (q.posted.map (·.req)).Nodup := by
  have hnodup := h.once.nodup_iff.mpr List.nodup_range
  exact (List.nodup_append.mp hnodup).2.1

/-- So none is popped twice. -/
theorem Conserved.seen_nodup (h : q.Conserved) : (q.seen.map (·.req)).Nodup := by
  have hnodup := h.posted_nodup
  rw [posted, List.map_append] at hnodup
  exact (List.nodup_append.mp hnodup).1

/-- Among things with different numbers one is found by its number. -/
theorem filter_number {α : Type} {f : α → Nat} {l : List α} {a : α} (hn : (l.map f).Nodup)
    (ha : a ∈ l) : l.filter (fun x => f x == f a) = [a] := by
  induction l with
  | nil => cases ha
  | cons b l ih =>
    rw [List.map_cons, List.nodup_cons] at hn
    rcases List.mem_cons.mp ha with rfl | hmem
    · have hnone : l.filter (fun x => f x == f a) = [] := by
        rw [List.filter_eq_nil_iff]
        intro x hx hxa
        exact hn.1 (List.mem_map.mpr ⟨x, hx, beq_iff_eq.mp hxa⟩)
      rw [List.filter_cons, if_pos (beq_self_eq_true _), hnone]
    · have hne : f b ≠ f a := by
        intro heq
        exact hn.1 (heq ▸ List.mem_map_of_mem hmem)
      rw [List.filter_cons, if_neg (fun h => hne (beq_iff_eq.mp h))]
      exact ih hn.2 hmem

/-- The entries in flight have tokens. -/
theorem Conserved.token_of_inflight (h : q.Conserved) {r : Nat} (hr : r ∈ q.inflight) :
    ∃ t, q.tokens[r]? = some t := by
  have hmem : r ∈ List.range q.tokens.length :=
    h.once.subset (List.mem_append_left _ (List.mem_append_right _ hr))
  exact ⟨_, List.getElem?_eq_getElem (List.mem_range.mp hmem)⟩

theorem Conserved.lt_of_outstanding (h : q.Conserved) {r : Nat} (hr : r ∈ q.outstanding) :
    r < q.tokens.length := by
  refine List.mem_range.mp (h.once.subset ?_)
  rw [outstanding, List.append_assoc] at hr
  rw [posted, List.map_append, List.append_assoc]
  rcases List.mem_append.mp hr with hr | hr
  · exact List.mem_append_left _ hr
  · refine List.mem_append_right _ ?_
    rcases List.mem_append.mp hr with hr | hr
    · exact List.mem_append_left _ hr
    · exact List.mem_append_right _ (List.mem_append_right _ hr)

/-- What has been popped is not outstanding any more. -/
theorem Conserved.not_outstanding (h : q.Conserved) (hc : c ∈ q.seen) :
    c.req ∉ q.outstanding := by
  intro hr
  have hcount := (List.nodup_range (n := q.tokens.length)).count (a := c.req)
  rw [← h.once.count_eq, posted, List.map_append, List.count_append, List.count_append,
    List.count_append] at hcount
  have hseen : 0 < (q.seen.map (·.req)).count c.req :=
    List.count_pos_iff.mpr (List.mem_map_of_mem hc)
  have hout := List.count_pos_iff.mpr hr
  rw [outstanding, List.count_append, List.count_append] at hout
  split at hcount <;> omega

end QueuePair
