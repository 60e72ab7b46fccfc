import Mathlib.Logic.Function.Basic

/-!
# A ledger of asynchronous requests

What a driver with a table of request ids, a queue to a device and one worker owes
its requests, without locks and program points. A request is given an id, queued,
answered by the device with some `W`, and popped by the worker, which then frees the
id, reads the answer and reports it; a request that cannot be queued is dropped and
its id freed.

`Step` lists the moves and `Consistent` is their invariant. It counts every request
in the queue once (`ring`), ties the table of ids to the requests that hold one
(`ids`), and ties the reports to the buffers popped (`finished`) and to what the
device wrote (`words`). `ids_unique`, `done_nodup` and `count_done` are what a client
wants from it.
-/

namespace Ledger

/-- How far the worker is with the buffer that it has popped. -/
inductive Work (W : Type) where
  | none
  | popped (r : Nat)
  | erased (r : Nat)
  | read (r : Nat) (w : W)

/-- The request that has been popped and not yet reported. -/
def Work.holding {W : Type} : Work W → List Nat
  | .none => []
  | .popped r | .erased r | .read r _ => [r]

/-- `id` is the id that a request holds, `pending` the table of ids; `popped`,
`written` and `done` are history. -/
@[ext]
structure Books (W : Type) where
  id : Nat → Option Nat
  queued : Nat → Bool
  resp : Nat → W
  pending : Nat → Option Nat
  avail : List Nat
  used : List Nat
  popped : List Nat
  written : List (Nat × W)
  work : Work W
  done : List (Nat × W)

variable {W : Type} {b b' : Books W} {r r' k : Nat} {w : W}

open Function (update)

inductive Step : Books W → Books W → Prop
  | alloc {b : Books W} {r k : Nat} : b.id r = none → b.queued r = false → b.pending k = none →
      Step b { b with id := update b.id r (some k), pending := update b.pending k (some r) }
  | drop {b : Books W} {r k : Nat} : b.id r = some k → b.queued r = false →
      Step b { b with id := update b.id r none, pending := update b.pending k none }
  | queue {b : Books W} {r : Nat} : b.queued r = false →
      Step b { b with queued := update b.queued r true, avail := b.avail ++ [r] }
  | answer {b : Books W} {r : Nat} {w : W} : r ∈ b.avail →
      Step b { b with
        avail := b.avail.erase r, used := b.used ++ [r]
        resp := update b.resp r w, written := b.written ++ [(r, w)] }
  | pop {b : Books W} {r : Nat} {rest : List Nat} : b.used = r :: rest → b.work = .none →
      Step b { b with used := rest, popped := b.popped ++ [r], work := .popped r }
  | erase {b : Books W} {r k : Nat} : b.work = .popped r → b.id r = some k →
      Step b { b with pending := update b.pending k none, work := .erased r }
  | read {b : Books W} {r : Nat} : b.work = .erased r →
      Step b { b with work := .read r (b.resp r) }
  | report {b : Books W} {r : Nat} {w : W} : b.work = .read r w →
      Step b { b with work := .none, done := b.done ++ [(r, w)] }

/-- A move to books that are known up to the way they are written. -/
theorem Step.of_eq {b₁ : Books W} (hs : Step b b₁) (h : b' = b₁) : Step b b' := by
  rw [h]
  exact hs

/-- Request `r` holds id `k`, and has not been popped and its id freed since. -/
def Books.InFlight (b : Books W) (r k : Nat) : Prop :=
  b.id r = some k ∧ (r ∈ b.popped → b.work = .popped r)

/-- The invariant. -/
structure Consistent (b : Books W) : Prop where
  ring : ∀ r, b.avail.count r + b.used.count r + b.popped.count r = (b.queued r).toNat
  ids : ∀ k r, b.pending k = some r ↔ b.InFlight r k
  finished : b.popped = b.done.map Prod.fst ++ b.work.holding
  wrote : b.written.map Prod.fst = b.popped ++ b.used
  resp : ∀ r w, (r, w) ∈ b.written → b.resp r = w
  words : ∀ r w, (r, w) ∈ b.done ∨ b.work = .read r w → (r, w) ∈ b.written

/-! ## What consistent books say -/

/-- Two requests in flight have different ids. -/
theorem Consistent.ids_unique (h : Consistent b) (hr : b.InFlight r k) (hr' : b.InFlight r' k) :
    r = r' := by
  have hp := (h.ids k r).mpr hr
  rw [(h.ids k r').mpr hr'] at hp
  exact (Option.some.inj hp).symm

theorem Consistent.count_le_one (h : Consistent b) (r : Nat) :
    b.avail.count r + b.used.count r + b.popped.count r ≤ 1 := by
  rw [h.ring r]
  exact Bool.toNat_le _

theorem Consistent.not_popped (h : Consistent b) (hq : b.queued r = false) : r ∉ b.popped := by
  have hcount := h.ring r
  rw [hq, Bool.toNat_false] at hcount
  exact List.count_eq_zero.mp (by omega)

theorem Consistent.not_popped_of_used (h : Consistent b) (hr : r ∈ b.used) : r ∉ b.popped := by
  have hcount := h.count_le_one r
  have hpos := List.count_pos_iff.mpr hr
  exact List.count_eq_zero.mp (by omega)

theorem Consistent.queued_of_popped (h : Consistent b) (hr : r ∈ b.popped) :
    b.queued r = true := by
  cases hq : b.queued r with
  | true => rfl
  | false => exact absurd hr (h.not_popped hq)

/-- What the worker has at hand has been popped. -/
theorem Consistent.mem_popped (h : Consistent b) (hr : r ∈ b.work.holding) : r ∈ b.popped := by
  rw [h.finished]
  exact List.mem_append_right _ hr

theorem Consistent.mem_popped_of_done (h : Consistent b) (hr : (r, w) ∈ b.done) :
    r ∈ b.popped := by
  rw [h.finished]
  exact List.mem_append_left _ (List.mem_map_of_mem hr)

/-- A request that the device can still answer has no answer yet. -/
theorem Consistent.not_written (h : Consistent b) (hr : r ∈ b.avail) : (r, w) ∉ b.written := by
  intro hw
  have hmem : r ∈ b.popped ++ b.used := by
    rw [← h.wrote]
    exact List.mem_map_of_mem hw
  have hcount := h.count_le_one r
  have havail := List.count_pos_iff.mpr hr
  have hpos := List.count_pos_iff.mpr hmem
  rw [List.count_append] at hpos
  omega

/-- What has been popped has been answered. -/
theorem Consistent.answered (h : Consistent b) (hr : r ∈ b.popped) : ∃ w, (r, w) ∈ b.written := by
  have hmem : r ∈ b.written.map Prod.fst := by
    rw [h.wrote]
    exact List.mem_append_left _ hr
  obtain ⟨⟨_, w⟩, hw, rfl⟩ := List.mem_map.mp hmem
  exact ⟨w, hw⟩

/-- No request is answered twice. -/
theorem Consistent.written_nodup (h : Consistent b) : (b.written.map Prod.fst).Nodup := by
  refine List.nodup_iff_count.mpr fun r => ?_
  have hcount := h.count_le_one r
  rw [h.wrote, List.count_append]
  omega

/-- No request is reported twice. -/
theorem Consistent.done_nodup (h : Consistent b) : (b.done.map Prod.fst).Nodup := by
  refine List.nodup_iff_count.mpr fun r => ?_
  have hcount := h.count_le_one r
  rw [h.finished, List.count_append] at hcount
  omega

/-- What has been popped and is no longer at hand has been reported, once. -/
theorem Consistent.count_done (h : Consistent b) (hr : r ∈ b.popped) (hw : r ∉ b.work.holding) :
    (b.done.map Prod.fst).count r = 1 := by
  have hcount := h.count_le_one r
  have hpos := List.count_pos_iff.mpr hr
  have hzero := List.count_eq_zero.mpr hw
  rw [h.finished, List.count_append] at hcount hpos
  omega

/-! ## The table of ids -/

/-- The table says exactly who is in flight with which id. -/
def Exact (pending : Nat → Option Nat) (F : Nat → Nat → Prop) : Prop :=
  ∀ k r, pending k = some r ↔ F r k

section Exact

variable {pending : Nat → Option Nat} {F F' : Nat → Nat → Prop}

/-- A free id is given to a request that has none. -/
theorem Exact.give (h : Exact pending F) (hk : pending k = none) (hr : ∀ j, ¬F r j)
    (hother : ∀ r' j, r' ≠ r → (F' r' j ↔ F r' j)) (hself : ∀ j, F' r j ↔ j = k) :
    Exact (update pending k (some r)) F' := by
  intro j r'
  rw [Function.update_apply]
  rcases Nat.decEq r' r with hr' | rfl
  · rw [hother r' j hr', ← h j r']
    split
    · next hj =>
      subst hj
      rw [hk]
      exact ⟨fun he => absurd (Option.some.inj he).symm hr', nofun⟩
    · exact Iff.rfl
  · rw [hself j]
    split
    · next hj => exact ⟨fun _ => hj, fun _ => rfl⟩
    · next hj => exact ⟨fun he => absurd ((h j r').mp he) (hr j), fun he => absurd he hj⟩

/-- The id of a request is freed. -/
theorem Exact.free (h : Exact pending F) (hr : ∀ j, F r j ↔ j = k)
    (hother : ∀ r' j, r' ≠ r → (F' r' j ↔ F r' j)) (hself : ∀ j, ¬F' r j) :
    Exact (update pending k none) F' := by
  intro j r'
  rw [Function.update_apply]
  rcases Nat.decEq r' r with hr' | rfl
  · rw [hother r' j hr', ← h j r']
    split
    · next hj =>
      subst hj
      -- the entry was that of `r`
      rw [(h j r).mpr ((hr j).mpr rfl)]
      exact ⟨nofun, fun he => absurd (Option.some.inj he).symm hr'⟩
    · exact Iff.rfl
  · split
    · exact ⟨nofun, fun he => absurd he (hself j)⟩
    · next hj =>
      exact ⟨fun he => absurd ((hr j).mp ((h j r').mp he)) hj, fun he => absurd he (hself j)⟩

end Exact

/-! ## Every move keeps the books consistent -/

theorem Consistent.alloc (h : Consistent b) (hid : b.id r = none) (hq : b.queued r = false)
    (hk : b.pending k = none) :
    Consistent { b with id := update b.id r (some k), pending := update b.pending k (some r) } where
  ring := h.ring
  ids := by
    refine Exact.give h.ids hk (fun j hj => ?_) (fun r' j hr' => ?_) (fun j => ?_)
    · have hj := hj.1
      rw [hid] at hj
      cases hj
    · simp only [Books.InFlight, Function.update_of_ne hr']
    · simp only [Books.InFlight, Function.update_self, Option.some.injEq]
      exact ⟨fun hj => hj.1.symm, fun hj => ⟨hj.symm, fun hp => absurd hp (h.not_popped hq)⟩⟩
  finished := h.finished
  wrote := h.wrote
  resp := h.resp
  words := h.words

theorem Consistent.drop (h : Consistent b) (hid : b.id r = some k) (hq : b.queued r = false) :
    Consistent { b with id := update b.id r none, pending := update b.pending k none } where
  ring := h.ring
  ids := by
    refine Exact.free (r := r) h.ids (fun j => ?_) (fun r' j hr' => ?_) (fun j hj => ?_)
    · rw [Books.InFlight, hid, Option.some.injEq]
      exact ⟨fun hj => hj.1.symm, fun hj => ⟨hj.symm, fun hp => absurd hp (h.not_popped hq)⟩⟩
    · simp only [Books.InFlight, Function.update_of_ne hr']
    · simp only [Books.InFlight, Function.update_self] at hj
      cases hj.1
  finished := h.finished
  wrote := h.wrote
  resp := h.resp
  words := h.words

theorem Consistent.queue (h : Consistent b) (hq : b.queued r = false) :
    Consistent { b with queued := update b.queued r true, avail := b.avail ++ [r] } where
  ring := by
    intro r'
    have hcount := h.ring r'
    simp only [List.count_append, List.count_singleton]
    rcases Nat.decEq r' r with hr' | rfl
    · rw [Function.update_of_ne hr', beq_eq_false_iff_ne.mpr (Ne.symm hr')]
      simpa using hcount
    · rw [hq, Bool.toNat_false] at hcount
      rw [Function.update_self, beq_self_eq_true, if_pos rfl, Bool.toNat_true]
      omega
  ids := h.ids
  finished := h.finished
  wrote := h.wrote
  resp := h.resp
  words := h.words

theorem Consistent.answer (h : Consistent b) (hr : r ∈ b.avail) (w : W) :
    Consistent { b with
      avail := b.avail.erase r, used := b.used ++ [r]
      resp := update b.resp r w, written := b.written ++ [(r, w)] } where
  ring := by
    intro r'
    have hcount := h.ring r'
    simp only [List.count_append, List.count_singleton, List.count_erase]
    rcases Nat.decEq r' r with hr' | rfl
    · simp only [beq_eq_false_iff_ne.mpr (Ne.symm hr')]
      simpa using hcount
    · have hpos := List.count_pos_iff.mpr hr
      simp only [beq_self_eq_true, if_true]
      omega
  ids := h.ids
  finished := h.finished
  wrote := by
    simp only [List.map_append, h.wrote, List.append_assoc]
    rfl
  resp := by
    intro r' w' hw
    rcases List.mem_append.mp hw with hold | hnew
    · have hr' : r' ≠ r := by
        rintro rfl
        exact h.not_written hr hold
      simp only [Function.update_of_ne hr']
      exact h.resp r' w' hold
    · cases List.mem_singleton.mp hnew
      exact Function.update_self ..
  words := fun r' w' hw => List.mem_append_left _ (h.words r' w' hw)

theorem Consistent.pop (h : Consistent b) {rest : List Nat} (hused : b.used = r :: rest)
    (hwork : b.work = .none) :
    Consistent { b with used := rest, popped := b.popped ++ [r], work := .popped r } where
  ring := by
    intro r'
    have hcount := h.ring r'
    rw [hused, List.count_cons] at hcount
    simp only [List.count_append, List.count_singleton]
    omega
  ids := by
    intro k r'
    rw [h.ids k r']
    refine and_congr_right fun _ => ?_
    -- `r` comes out of the ring for the first time
    have hnot : r ∉ b.popped := h.not_popped_of_used (by rw [hused]; exact List.mem_cons_self)
    rw [hwork]
    constructor
    · intro hold hmem
      rcases List.mem_append.mp hmem with hmem | hmem
      · cases hold hmem
      · cases List.mem_singleton.mp hmem
        rfl
    · intro hnew hmem
      cases hnew (List.mem_append_left _ hmem)
      exact absurd hmem hnot
  finished := by
    have hfin := h.finished
    rw [hwork] at hfin
    simp only [hfin, Work.holding, List.append_nil]
  wrote := by
    rw [h.wrote, hused, List.append_assoc]
    rfl
  resp := h.resp
  words := by
    rintro r' w' (hw | hw)
    · exact h.words r' w' (.inl hw)
    · cases hw

theorem Consistent.erase (h : Consistent b) (hwork : b.work = .popped r) (hid : b.id r = some k) :
    Consistent { b with pending := update b.pending k none, work := .erased r } where
  ring := h.ring
  ids := by
    have hpopped : r ∈ b.popped := h.mem_popped (by rw [hwork]; exact List.mem_singleton_self r)
    refine Exact.free (r := r) h.ids (fun j => ?_) (fun r' j hr' => ?_) (fun j hj => ?_)
    · rw [Books.InFlight, hid, Option.some.injEq]
      exact ⟨fun hj => hj.1.symm, fun hj => ⟨hj.symm, fun _ => hwork⟩⟩
    · -- neither before nor after is the worker at the popped buffer `r'`
      refine and_congr_right fun _ => forall_congr' fun _ => ?_
      rw [hwork]
      exact ⟨nofun, fun he => absurd (Work.popped.inj he).symm hr'⟩
    · cases hj.2 hpopped
  finished := by
    have hfin := h.finished
    rw [hwork] at hfin
    exact hfin
  wrote := h.wrote
  resp := h.resp
  words := by
    rintro r' w' (hw | hw)
    · exact h.words r' w' (.inl hw)
    · cases hw

/-- Past the freeing of the id, the worker's progress is not seen in the table. -/
theorem Consistent.ids_of_work (h : Consistent b) {work : Work W} (hb : ∀ r, b.work ≠ .popped r)
    (hwork : ∀ r, work ≠ .popped r) : Exact b.pending { b with work := work }.InFlight := by
  intro k r
  rw [h.ids k r]
  refine and_congr_right fun _ => forall_congr' fun _ => ?_
  exact ⟨fun he => absurd he (hb r), fun he => absurd he (hwork r)⟩

theorem Consistent.read (h : Consistent b) (hwork : b.work = .erased r) :
    Consistent { b with work := .read r (b.resp r) } where
  ring := h.ring
  ids := h.ids_of_work (by simp [hwork]) (by simp)
  finished := by
    have hfin := h.finished
    rw [hwork] at hfin
    exact hfin
  wrote := h.wrote
  resp := h.resp
  words := by
    rintro r' w' (hw | hw)
    · exact h.words r' w' (.inl hw)
    · cases hw
      obtain ⟨w, hw⟩ := h.answered (h.mem_popped (by rw [hwork]; exact List.mem_singleton_self r))
      rw [h.resp r w hw]
      exact hw

theorem Consistent.report (h : Consistent b) (hwork : b.work = .read r w) :
    Consistent { b with work := .none, done := b.done ++ [(r, w)] } where
  ring := h.ring
  ids := h.ids_of_work (by simp [hwork]) (by simp)
  finished := by
    have hfin := h.finished
    rw [hwork] at hfin
    simp only [hfin, List.map_append, Work.holding, List.append_nil]
    rfl
  wrote := h.wrote
  resp := h.resp
  words := by
    rintro r' w' (hw | hw)
    · rcases List.mem_append.mp hw with hw | hw
      · exact h.words r' w' (.inl hw)
      · cases List.mem_singleton.mp hw
        exact h.words r w (.inr hwork)
    · cases hw

theorem Consistent.step (h : Consistent b) (hs : Step b b') : Consistent b' := by
  cases hs with
  | alloc hid hq hk => exact h.alloc hid hq hk
  | drop hid hq => exact h.drop hid hq
  | queue hq => exact h.queue hq
  | answer hr => exact h.answer hr _
  | pop hused hwork => exact h.pop hused hwork
  | erase hwork hid => exact h.erase hwork hid
  | read hwork => exact h.read hwork
  | report hwork => exact h.report hwork

end Ledger
