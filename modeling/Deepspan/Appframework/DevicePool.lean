import Deepspan.Lib.Ownership
import Deepspan.Userlib.AsyncClient

/-!
# The device pool

`DevicePool` and its `Guard`. The guards are objects of their own: `acquire` makes
one, they are moved from one to another by hand-written pointer assignments, and the
last one to have the entry gives it back when it dies.

* `acquire` and `release` run under the pool's mutex and are one step each. The move
  assignment is two: it releases what the target holds, and takes the other guard's
  entry over when any number of steps of other threads have passed.
* Between the two the target still points to the entry that it has released. Nobody
  can look: the guard is in the middle of an assignment. It counts as holding nothing
  (`GuardSlot.holds`), and neither of the two guards takes part in another operation.
* All guards die before the pool, which therefore does not.
* An entry is known by its index. Its device and its `AsyncClient` are the same as
  long as the pool lives and no function here looks at them.

`guards_own_entries` is what the pool promises in every run.
-/

namespace Deepspan

open Transition Ownership

/-- The `in_use` of every entry. -/
structure DevicePool where
  entries : List Bool := []
deriving DecidableEq, Repr

namespace DevicePool

/-- What `create` makes of `n` devices that it could open. -/
def create (n : Nat) : DevicePool := ⟨List.replicate n false⟩

/-- The first entry that is not in use. -/
def acquire (p : DevicePool) : Except Error (DevicePool × Nat) :=
  match p.entries.findIdx? (fun inUse => !inUse) with
  | some e => .ok (⟨p.entries.set e true⟩, e)
  | none => .error .deviceOpenFailed

def size (p : DevicePool) : Nat := p.entries.length

def inUse (p : DevicePool) : Nat := p.entries.countP id

def release (p : DevicePool) (e : Nat) : DevicePool := ⟨p.entries.set e false⟩

/-- `DevicePool::Guard`; `pool_` is null or the one pool there is. -/
structure Guard where
  pool : Bool := false
  entry : Option Nat := none
deriving DecidableEq, Repr

def Guard.valid (g : Guard) : Bool := g.entry.isSome

/-- The guarded `release` of the destructor and of the move assignment. -/
def Guard.letGo (g : Guard) (p : DevicePool) : DevicePool :=
  match g.pool, g.entry with
  | true, some e => p.release e
  | true, none | false, _ => p

end DevicePool

open DevicePool

/-- A guard object of the program. -/
inductive GuardSlot where
  | live (g : Guard)
  /-- Being assigned from the guard `src`, past the release of what it holds. -/
  | assigned (g : Guard) (src : Nat)
  /-- Live, and being moved out of by such an assignment. -/
  | source (g : Guard)
  | dead
deriving DecidableEq, Repr

/-- The entry that a guard holds. -/
def GuardSlot.holds : GuardSlot → Option Nat
  | .live g | .source g => g.entry
  | .assigned _ _ | .dead => none

/-- The guard is alive and `valid()`. -/
def GuardSlot.valid : GuardSlot → Bool
  | .live g | .source g => g.valid
  | .assigned _ _ | .dead => false

structure PoolRun where
  pool : DevicePool
  guards : List GuardSlot := []
deriving DecidableEq, Repr

inductive PoolAct where
  /-- `Guard()` -/
  | construct
  | acquire
  /-- `Guard(Guard&&)` -/
  | moveConstruct (src : Nat)
  /-- `operator=(Guard&&)` up to the release. -/
  | moveAssign (dst src : Nat)
  /-- The rest of it. -/
  | takeOver (dst : Nat)
  /-- `~Guard()` -/
  | destroy (i : Nat)
deriving DecidableEq, Repr

def poolStep (s : PoolRun) : PoolAct → Option PoolRun
  | .construct => some { s with guards := s.guards ++ [.live {}] }
  | .acquire =>
    match s.pool.acquire with
    | .ok (p, e) => some { pool := p, guards := s.guards ++ [.live ⟨true, some e⟩] }
    | .error _ => some s
  | .moveConstruct src =>
    match s.guards[src]? with
    | some (.live g) => some { s with guards := s.guards.set src (.live {}) ++ [.live g] }
    | _ => none
  | .moveAssign dst src =>
    match s.guards[dst]?, s.guards[src]? with
    | some (.live g), some (.live g') =>
      -- `this != &other`
      if dst = src then some s
      else some {
        pool := g.letGo s.pool
        guards := (s.guards.set dst (.assigned g src)).set src (.source g') }
    | _, _ => none
  | .takeOver dst =>
    match s.guards[dst]? with
    | some (.assigned _ src) =>
      match s.guards[src]? with
      | some (.source g) => some { s with guards := (s.guards.set dst (.live g)).set src (.live {}) }
      | _ => none
    | _ => none
  | .destroy i =>
    match s.guards[i]? with
    | some (.live g) => some { pool := g.letGo s.pool, guards := s.guards.set i .dead }
    | _ => none

def poolSystem (n : Nat) : System PoolRun PoolAct where
  init s := s = { pool := create n }
  step := poolStep

/-- What a step can do; an `acquire` that fails and a self-assignment change nothing. -/
inductive PoolStep (s : PoolRun) : PoolAct → PoolRun → Prop
  | construct : PoolStep s .construct { s with guards := s.guards ++ [.live {}] }
  | acquired {p : DevicePool} {e : Nat} : s.pool.acquire = .ok (p, e) →
      PoolStep s .acquire { pool := p, guards := s.guards ++ [.live ⟨true, some e⟩] }
  | full {err : Error} : s.pool.acquire = .error err → PoolStep s .acquire s
  | moveConstruct {src : Nat} {g : Guard} : s.guards[src]? = some (.live g) →
      PoolStep s (.moveConstruct src) { s with guards := s.guards.set src (.live {}) ++ [.live g] }
  | selfAssign {i : Nat} : PoolStep s (.moveAssign i i) s
  | moveAssign {dst src : Nat} {g g' : Guard} : s.guards[dst]? = some (.live g) →
      s.guards[src]? = some (.live g') → dst ≠ src →
      PoolStep s (.moveAssign dst src) {
        pool := g.letGo s.pool
        guards := (s.guards.set dst (.assigned g src)).set src (.source g') }
  | takeOver {dst src : Nat} {g g' : Guard} : s.guards[dst]? = some (.assigned g' src) →
      s.guards[src]? = some (.source g) →
      PoolStep s (.takeOver dst)
        { s with guards := (s.guards.set dst (.live g)).set src (.live {}) }
  | destroy {i : Nat} {g : Guard} : s.guards[i]? = some (.live g) →
      PoolStep s (.destroy i) { pool := g.letGo s.pool, guards := s.guards.set i .dead }

variable {s s' : PoolRun} {a : PoolAct} {n : Nat}

theorem poolStep_cases (h : poolStep s a = some s') : PoolStep s a s' := by
  cases a with
  | construct => cases h; exact .construct
  | acquire =>
    simp only [poolStep] at h
    split at h
    · next hacq =>
      cases h
      exact .acquired hacq
    · next hacq =>
      cases h
      exact .full hacq
  | moveConstruct src =>
    simp only [poolStep] at h
    split at h
    · next hsrc =>
      cases h
      exact .moveConstruct hsrc
    · cases h
  | moveAssign dst src =>
    simp only [poolStep] at h
    split at h
    · next hdst hsrc =>
      split at h
      · next heq =>
        cases h
        cases heq
        exact .selfAssign
      · next hne =>
        cases h
        exact .moveAssign hdst hsrc hne
    · cases h
  | takeOver dst =>
    simp only [poolStep] at h
    split at h
    · next hdst =>
      split at h
      · next hsrc =>
        cases h
        exact .takeOver hdst hsrc
      · cases h
    · cases h
  | destroy i =>
    simp only [poolStep] at h
    split at h
    · next hi =>
      cases h
      exact .destroy hi
    · cases h

/-! ## The marks -/

namespace DevicePool

/-- `in_use` of entry `e`. -/
def marked (p : DevicePool) (e : Nat) : Bool := p.entries.getD e false

variable {p p' : DevicePool} {e : Nat}

theorem marked_create (n e : Nat) : (create n).marked e = false := by
  simp only [marked, create, List.getD_eq_getElem?_getD, List.getElem?_replicate]
  split
  · rfl
  · rfl

theorem marked_set {x : Bool} (he : e < p.size ∨ x = false) :
    marked ⟨p.entries.set e x⟩ = Function.update p.marked e x := by
  funext k
  simp only [marked, List.getD_eq_getElem?_getD]
  rcases Nat.decEq k e with hne | rfl
  · rw [Function.update_of_ne hne, List.getElem?_set_ne (Ne.symm hne)]
    rfl
  · rw [Function.update_self, List.getElem?_set, if_pos rfl]
    split
    · rfl
    · next hlt =>
      rcases he with he | rfl
      · exact absurd he hlt
      · rfl

theorem marked_release : (p.release e).marked = Function.update p.marked e false :=
  marked_set (.inr rfl)

theorem lt_size_of_marked (h : p.marked e = true) : e < p.size := by
  refine Nat.lt_of_not_le fun hge => ?_
  rw [marked, List.getD_eq_getElem?_getD, List.getElem?_eq_none hge] at h
  cases h

/-- `acquire` returns an entry that was not in use and marks it. -/
theorem acquire_ok (h : p.acquire = .ok (p', e)) :
    e < p.size ∧ p.marked e = false ∧ p'.marked = Function.update p.marked e true ∧
      p'.size = p.size := by
  unfold acquire at h
  split at h
  · next hfind =>
    cases h
    obtain ⟨hlt, hfree, _⟩ := List.findIdx?_eq_some_iff_getElem.mp hfind
    refine ⟨hlt, ?_, marked_set (.inl hlt), List.length_set⟩
    rw [marked, List.getD_eq_getElem?_getD, List.getElem?_eq_getElem hlt]
    simpa using hfree
  · cases h

/-- `acquire` fails when every entry is in use. -/
theorem acquire_isOk : (∃ p' e, p.acquire = .ok (p', e)) ↔ ∃ e < p.size, p.marked e = false := by
  constructor
  · rintro ⟨p', e, h⟩
    obtain ⟨hlt, hfree, _⟩ := acquire_ok h
    exact ⟨e, hlt, hfree⟩
  · rintro ⟨e, hlt, hfree⟩
    unfold acquire
    cases hfind : p.entries.findIdx? (fun inUse => !inUse) with
    | some e' => exact ⟨_, e', rfl⟩
    | none =>
      obtain ⟨inUse, hget⟩ : ∃ inUse, p.entries[e]? = some inUse :=
        ⟨_, List.getElem?_eq_getElem hlt⟩
      have hall := List.findIdx?_eq_none_iff.mp hfind inUse (List.mem_of_getElem? hget)
      rw [marked, List.getD_eq_getElem?_getD, hget, Option.getD_some] at hfree
      rw [hfree] at hall
      cases hall

theorem inUse_eq (p : DevicePool) : p.inUse = (List.range p.size).countP p.marked := by
  have hmarked : p.marked = fun e => p.entries[e]?.any id := by
    funext e
    rw [marked, List.getD_eq_getElem?_getD]
    cases p.entries[e]? with
    | none => rfl
    | some inUse => rfl
  rw [hmarked]
  exact (countP_range p.entries id).symm

theorem size_letGo (g : Guard) (p : DevicePool) : (g.letGo p).size = p.size := by
  unfold Guard.letGo
  split
  · exact List.length_set
  · rfl
  · rfl

end DevicePool

/-! ## The invariant -/

/-- What every guard holds. -/
def PoolRun.held (s : PoolRun) : List (Option Nat) := s.guards.map GuardSlot.holds

/-- A guard has both pointers or none. -/
def GuardSlot.Paired : GuardSlot → Prop
  | .live g | .source g => g.pool = g.entry.isSome
  | .assigned _ _ | .dead => True

/-- The invariant of the pool and its guards. -/
structure PoolOk (n : Nat) (s : PoolRun) : Prop where
  size : s.pool.size = n
  owned : Exclusive s.pool.marked s.held
  paired : ∀ (i : Nat) (x : GuardSlot), s.guards[i]? = some x → x.Paired

theorem poolOk_init (h : (poolSystem n).init s) : PoolOk n s := by
  cases h
  refine ⟨List.length_replicate, ?_, ?_⟩
  · refine exclusive_of_forall_none ?_ (marked_create n)
    intro x hx
    cases hx
  · intro i x hi
    cases hi

theorem held_of_getElem? {i : Nat} {x : GuardSlot} (hi : s.guards[i]? = some x) :
    s.held[i]? = some x.holds := by
  rw [PoolRun.held, List.getElem?_map, hi]
  rfl

/-- A guard that lets its entry go, and the entry is free. -/
theorem PoolOk.letGo (h : PoolOk n s) {i : Nat} {g : Guard} (hi : s.guards[i]? = some (.live g)) :
    Exclusive (g.letGo s.pool).marked (s.held.set i none) := by
  have hheld := held_of_getElem? hi
  have hpair : g.pool = g.entry.isSome := h.paired i _ hi
  simp only [GuardSlot.holds] at hheld
  unfold Guard.letGo
  cases hentry : g.entry with
  | some e =>
    rw [hentry] at hpair hheld
    rw [hpair]
    simp only [Option.isSome_some, marked_release]
    exact h.owned.give_back hheld
  | none =>
    rw [hentry] at hpair hheld
    rw [hpair]
    exact h.owned.set_same hheld

theorem PoolOk.paired_set (h : PoolOk n s) {i : Nat} {x y : GuardSlot} (hi : s.guards[i]? = some x)
    (hy : y.Paired) : ∀ (j : Nat) (z : GuardSlot), (s.guards.set i y)[j]? = some z → z.Paired := by
  intro j z hj
  rcases getElem?_set_cases hi hj with ⟨_, rfl⟩ | ⟨_, hj⟩
  · exact hy
  · exact h.paired j z hj

theorem paired_concat {l : List GuardSlot} {y : GuardSlot}
    (hl : ∀ (i : Nat) (x : GuardSlot), l[i]? = some x → x.Paired) (hy : y.Paired) :
    ∀ (i : Nat) (x : GuardSlot), (l ++ [y])[i]? = some x → x.Paired := by
  intro i x hi
  rcases getElem?_concat_cases hi with hi | ⟨_, rfl⟩
  · exact hl i x hi
  · exact hy

theorem poolOk_moveConstruct (h : PoolOk n s) {src : Nat} {g : Guard}
    (hsrc : s.guards[src]? = some (.live g)) :
    PoolOk n { s with guards := s.guards.set src (.live {}) ++ [.live g] } where
  size := h.size
  owned := by
    have hpass := h.owned.concat_pass (held_of_getElem? hsrc)
    rw [PoolRun.held, List.map_append, List.map_set]
    exact hpass
  paired := paired_concat (h.paired_set hsrc rfl) (h.paired src _ hsrc)

theorem poolOk_moveAssign (h : PoolOk n s) {dst src : Nat} {g g' : Guard}
    (hdst : s.guards[dst]? = some (.live g)) (hsrc : s.guards[src]? = some (.live g'))
    (hne : dst ≠ src) :
    PoolOk n {
      pool := g.letGo s.pool
      guards := (s.guards.set dst (.assigned g src)).set src (.source g') } where
  size := (size_letGo g s.pool).trans h.size
  owned := by
    have hheld : (s.held.set dst none)[src]? = some g'.entry :=
      getElem?_set_of_ne hne.symm (held_of_getElem? hsrc)
    have hsame := (h.letGo hdst).set_same hheld
    rw [PoolRun.held, List.map_set, List.map_set]
    exact hsame
  paired := by
    intro j z hj
    rcases getElem?_set_cases (getElem?_set_of_ne hne.symm hsrc) hj with ⟨_, rfl⟩ | ⟨_, hj⟩
    · exact h.paired src (.live g') hsrc
    · exact h.paired_set hdst (y := .assigned g src) trivial j z hj

theorem poolOk_takeOver (h : PoolOk n s) {dst src : Nat} {g g' : Guard}
    (hdst : s.guards[dst]? = some (.assigned g' src)) (hsrc : s.guards[src]? = some (.source g)) :
    PoolOk n { s with guards := (s.guards.set dst (.live g)).set src (.live {}) } where
  size := h.size
  owned := by
    have hne : dst ≠ src := by
      rintro rfl
      rw [hdst] at hsrc
      cases hsrc
    have hpass := h.owned.pass (held_of_getElem? hdst) (held_of_getElem? hsrc) hne
    rw [PoolRun.held, List.map_set, List.map_set]
    exact hpass
  paired := by
    have hpair : (GuardSlot.live g).Paired := h.paired src (.source g) hsrc
    intro j z hj
    rcases Nat.decEq j src with hji | rfl
    · rw [List.getElem?_set_ne (Ne.symm hji)] at hj
      exact h.paired_set hdst hpair j z hj
    · rw [List.getElem?_set, if_pos rfl] at hj
      split at hj
      · cases hj
        rfl
      · cases hj

theorem poolOk_step (h : PoolOk n s) (hs : poolStep s a = some s') : PoolOk n s' := by
  cases poolStep_cases hs with
  | construct =>
    refine ⟨h.size, ?_, paired_concat h.paired rfl⟩
    rw [PoolRun.held, List.map_append]
    exact h.owned.concat_none
  | @acquired p e hacq =>
    obtain ⟨_, hfree, hmarked, hsize⟩ := acquire_ok hacq
    refine ⟨hsize.trans h.size, ?_, paired_concat h.paired rfl⟩
    rw [PoolRun.held, List.map_append, hmarked]
    exact h.owned.concat_take hfree
  | full _ => exact h
  | moveConstruct hsrc => exact poolOk_moveConstruct h hsrc
  | selfAssign => exact h
  | moveAssign hdst hsrc hne => exact poolOk_moveAssign h hdst hsrc hne
  | takeOver hdst hsrc => exact poolOk_takeOver h hdst hsrc
  | @destroy i g hi =>
    refine ⟨(size_letGo g s.pool).trans h.size, ?_, h.paired_set hi (y := .dead) trivial⟩
    rw [PoolRun.held, List.map_set]
    exact h.letGo hi

theorem reach_poolOk {G : PoolRun → PoolAct → Prop} (h : Reach (poolSystem n) G s) : PoolOk n s :=
  h.invariant (P := PoolOk n) (fun _ h0 => poolOk_init h0) fun _ _ _ hP _ hs => poolOk_step hP hs

/-! ## What the pool promises -/

/-- The live guard `i` holds entry `e`. -/
def PoolRun.Holds (s : PoolRun) (i e : Nat) : Prop := ∃ x, s.guards[i]? = some x ∧ x.holds = some e

theorem holds_iff {i e : Nat} : s.Holds i e ↔ s.held[i]? = some (some e) := by
  rw [PoolRun.held, List.getElem?_map, Option.map_eq_some_iff]
  rfl

theorem countP_valid (s : PoolRun) :
    s.guards.countP GuardSlot.valid = s.held.countP Option.isSome := by
  rw [PoolRun.held, List.countP_map]
  congr 1
  funext x
  cases x <;> rfl

/-- As many entries are in use as guards are valid. -/
theorem PoolOk.inUse (h : PoolOk n s) : s.pool.inUse = s.guards.countP GuardSlot.valid := by
  rw [inUse_eq, countP_valid]
  refine (h.owned.countP_isSome List.nodup_range ?_).symm
  exact fun e he => List.mem_range.mpr (lt_size_of_marked he)

/-- In every run an entry is in use exactly when exactly one live guard holds it, no two
guards hold the same entry, `in_use()` is the number of valid guards, and `acquire`
succeeds exactly when there is an entry that no guard holds. -/
theorem guards_own_entries (h : Reach (poolSystem n) (fun _ _ => True) s) :
    (∀ e, s.pool.marked e = true ↔ ∃! i, s.Holds i e) ∧
    (∀ i j e, s.Holds i e → s.Holds j e → i = j) ∧
    s.pool.inUse = s.guards.countP GuardSlot.valid ∧
    ((∃ p e, s.pool.acquire = .ok (p, e)) ↔ ∃ e < n, ∀ i, ¬s.Holds i e) := by
  have hok := reach_poolOk h
  refine ⟨?_, ?_, hok.inUse, ?_⟩
  · intro e
    rw [hok.owned.marked_iff]
    simp only [holds_iff]
  · intro i j e hi hj
    exact hok.owned.unique (holds_iff.mp hi) (holds_iff.mp hj)
  · rw [acquire_isOk, hok.size]
    refine exists_congr fun e => and_congr_right fun _ => ?_
    constructor
    · intro hfree i hi
      rw [hok.owned.marked_of_holds (holds_iff.mp hi)] at hfree
      cases hfree
    · intro hnone
      refine Bool.eq_false_iff.mpr fun hmarked => ?_
      obtain ⟨i, hi⟩ := hok.owned.exists_holds hmarked
      exact hnone i (holds_iff.mpr hi)

/-- Both entries of a pool are acquired, one guard is assigned over the other, and an
`acquire` gets in between the release and the rest of the assignment. -/
def assignOver : List PoolAct := [.acquire, .acquire, .moveAssign 0 1, .acquire, .takeOver 0]

theorem guards_own_entries_assigned :
    ∃ s, Reach (poolSystem 2) (fun _ _ => True) s ∧
      s.guards = [.live ⟨true, some 1⟩, .live {}, .live ⟨true, some 0⟩] ∧
      s.pool.inUse = s.guards.countP GuardSlot.valid ∧
      ¬∃ p e, s.pool.acquire = .ok (p, e) := by
  have hrun : replay (poolSystem 2) (fun _ _ => true) { pool := create 2 } assignOver =
      some {
        pool := ⟨[true, true]⟩
        guards := [.live ⟨true, some 1⟩, .live {}, .live ⟨true, some 0⟩] } := rfl
  have hreach := replay_reach (G := fun _ _ => True) (fun _ _ _ => trivial) (.init rfl) hrun
  obtain ⟨_, _, hcount, hacquire⟩ := guards_own_entries hreach
  refine ⟨_, hreach, rfl, hcount, ?_⟩
  rw [hacquire]
  rintro ⟨e, he, hfree⟩
  rcases Nat.lt_or_ge e 1 with h0 | h1
  · exact hfree 2 ⟨_, rfl, by cases Nat.lt_one_iff.mp h0; rfl⟩
  · exact hfree 0 ⟨_, rfl, by cases Nat.le_antisymm (Nat.le_of_lt_succ he) h1; rfl⟩

end Deepspan
