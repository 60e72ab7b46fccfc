/-!
# Guarded transition systems

A system is a set of initial states and an executable step function: `step s a`
is `some s'` when the action `a` can be taken in `s`. A run is constrained by a
guard `G s a`, read in the state before each step, so that one system serves
several claims about different kinds of runs:

* `Reach sys G s`: some run whose every step satisfies `G` ends in `s`;
* `Reach.invariant`: the induction rule for invariants of such runs, and `Reach.after` for
  the continuations of a run;
* `Reach.strengthen`: a guard that follows from an invariant of the run may be
  assumed of it;
* `Reach.exact`: the runs that keep to a further guard are those that end well, when
  that guard is what every single step needs to keep ending well;
* `Reach.progress`: what some run always brings closer can be reached;
* `Views.reach_iff`: two levels of one system, of which one is the other seen through a
  function, have the same runs;
* `Reach.erase`: a run without the steps that a view does not show;
* `replay`: execution of a list of actions, with `replay_reach` turning a
  successful execution into reachability.
-/

namespace Transition

/-- A transition system over states `S` with actions `A`. -/
structure System (S A : Type) where
  init : S → Prop
  step : S → A → Option S

variable {S A : Type} {sys : System S A} {G G' : S → A → Prop} {s s' : S}

/-- The states that runs reach whose every step satisfies `G`. -/
inductive Reach (sys : System S A) (G : S → A → Prop) : S → Prop
  | init {s : S} : sys.init s → Reach sys G s
  | step {s s' : S} {a : A} : Reach sys G s → G s a → sys.step s a = some s' → Reach sys G s'

/-- What holds initially and is preserved by every guarded step holds of every
state that guarded runs reach. -/
theorem Reach.invariant {P : S → Prop} (hinit : ∀ s, sys.init s → P s)
    (hstep : ∀ s a s', P s → G s a → sys.step s a = some s' → P s') (h : Reach sys G s) : P s := by
  induction h with
  | init h0 => exact hinit _ h0
  | step _ hg hs ih => exact hstep _ _ _ ih hg hs

/-- The system started in `s0`: its runs are the continuations of the runs that have
come to `s0`. -/
def System.startedAt (sys : System S A) (s0 : S) : System S A := { sys with init := fun s => s = s0 }

/-- What holds at `s0` and is preserved by every guarded step holds after every
continuation. -/
theorem Reach.after {P : S → Prop} {s0 : S} (h0 : P s0)
    (hstep : ∀ s a s', P s → G s a → sys.step s a = some s' → P s')
    (h : Reach (sys.startedAt s0) G s) : P s := by
  induction h with
  | init heq => cases heq; exact h0
  | step _ hg hs ih => exact hstep _ _ _ ih hg hs

/-- A continuation of a continuation. -/
theorem Reach.trans {s0 : S} (h : Reach (sys.startedAt s0) G s)
    (h' : Reach (sys.startedAt s) G s') : Reach (sys.startedAt s0) G s' := by
  induction h' with
  | init heq => cases heq; exact h
  | step _ hg hs ih => exact .step ih hg hs

/-- A continuation of a run is a run. -/
theorem Reach.continues {s0 : S} (h0 : Reach sys G s0) (h : Reach (sys.startedAt s0) G s) :
    Reach sys G s :=
  h.after h0 fun _ _ _ hs hg hstep => .step hs hg hstep

/-- If some run is always possible that keeps `P` and lowers `rank`, until `Q` holds, then
`Q` can be reached. -/
theorem Reach.progress {P Q : S → Prop} (rank : S → Nat)
    (hrun : ∀ s, P s → ¬Q s → ∃ s', Reach (sys.startedAt s) G s' ∧ P s' ∧ rank s' < rank s)
    (h : P s) : ∃ s', Reach (sys.startedAt s) G s' ∧ P s' ∧ Q s' := by
  induction hk : rank s using Nat.strongRecOn generalizing s with
  | ind k ih =>
    by_cases hq : Q s
    · exact ⟨s, .init rfl, h, hq⟩
    · obtain ⟨s1, hfirst, hp, hlt⟩ := hrun s h hq
      obtain ⟨s', hreach, hp', hq'⟩ := ih (rank s1) (hk ▸ hlt) hp rfl
      exact ⟨s', hfirst.trans hreach, hp', hq'⟩

/-- A run that keeps to a guard keeps to every guard that its invariant `P`
makes weaker. -/
theorem Reach.strengthen {P : S → Prop} (hinit : ∀ s, sys.init s → P s)
    (hstep : ∀ s a s', P s → G s a → sys.step s a = some s' → P s')
    (himp : ∀ s a, P s → G s a → G' s a) (h : Reach sys G s) : Reach sys G' s := by
  induction h with
  | init h0 => exact .init h0
  | step h hg hs ih => exact .step ih (himp _ _ (h.invariant hinit hstep) hg) hs

/-- When a step keeps `F` exactly if it satisfies `g`, the runs all of whose steps
satisfy `g` are those that end in `F`. -/
theorem Reach.exact {P F : S → Prop} {g : S → A → Prop} (hinit : ∀ s, sys.init s → P s ∧ F s)
    (hP : ∀ s a s', P s → G s a → sys.step s a = some s' → P s')
    (hF : ∀ s a s', P s → G s a → sys.step s a = some s' → (F s' ↔ F s ∧ g s a)) :
    Reach sys (fun s a => G s a ∧ g s a) s ↔ Reach sys G s ∧ F s := by
  have hall {s : S} (h : Reach sys G s) : P s := h.invariant (fun s h0 => (hinit s h0).1) hP
  constructor
  · intro h
    induction h with
    | init h0 => exact ⟨.init h0, (hinit _ h0).2⟩
    | step _ hg hs ih =>
      refine ⟨.step ih.1 hg.1 hs, ?_⟩
      exact (hF _ _ _ (hall ih.1) hg.1 hs).mpr ⟨ih.2, hg.2⟩
  · rintro ⟨h, hf⟩
    induction h with
    | init h0 => exact .init h0
    | step h hg hs ih =>
      obtain ⟨hf', hstep⟩ := (hF _ _ _ (hall h) hg hs).mp hf
      exact .step (ih hf') ⟨hg, hstep⟩ hs

/-- The runs of `high` are those of `low`, seen through `view`: both start alike, and take the same
actions to the same end. -/
structure Views {T : Type} (low : System T A) (high : System S A) (view : T → S) : Prop where
  init : ∀ s, high.init s ↔ ∃ t, low.init t ∧ view t = s
  step : ∀ t a, (low.step t a).map view = high.step (view t) a

theorem Views.reach_iff {T : Type} {low : System T A} {view : T → S} (h : Views low sys view) :
    Reach sys G s ↔ ∃ t, view t = s ∧ Reach low (fun t a => G (view t) a) t := by
  constructor
  · intro hs
    induction hs with
    | init h0 =>
      obtain ⟨t, ht, hview⟩ := (h.init _).mp h0
      exact ⟨t, hview, .init ht⟩
    | step _ hg hstep ih =>
      obtain ⟨t, rfl, ht⟩ := ih
      rw [← h.step] at hstep
      obtain ⟨t', hlow, hview⟩ := Option.map_eq_some_iff.mp hstep
      exact ⟨t', hview, .step ht hg hlow⟩
  · rintro ⟨t, rfl, ht⟩
    induction ht with
    | init h0 => exact .init ((h.init _).mpr ⟨_, h0, rfl⟩)
    | step _ hg hlow ih =>
      refine .step ih hg ?_
      rw [← h.step, hlow]
      rfl

/-- What a run does, seen through a `view` in which some of its steps do nothing and the others are
steps of the system itself. -/
theorem Reach.erase {view : S → S} (hinit : ∀ s, sys.init s → sys.init (view s))
    (hstep : ∀ s a s', G s a → sys.step s a = some s' →
      view s' = view s ∨ G' (view s) a ∧ sys.step (view s) a = some (view s'))
    (h : Reach sys G s) : Reach sys G' (view s) := by
  induction h with
  | init h0 => exact .init (hinit _ h0)
  | step _ hg hs ih =>
    rcases hstep _ _ _ hg hs with hsame | ⟨hg', hs'⟩
    · rw [hsame]
      exact ih
    · exact .step ih hg' hs'

/-- Execute the actions in order, checking the guard `g` before each of them. -/
def replay (sys : System S A) (g : S → A → Bool) : S → List A → Option S
  | s, [] => some s
  | s, a :: as => if g s a then (sys.step s a).bind fun s' => replay sys g s' as else none

/-- The actions of a schedule, which says how often each is taken in a row. -/
def schedule (l : List (Nat × A)) : List A := l.flatMap fun p => List.replicate p.1 p.2

theorem replay_cons {g : S → A → Bool} {a : A} {as : List A} (hg : g s a = true)
    (hs : sys.step s a = some s') : replay sys g s (a :: as) = replay sys g s' as := by
  simp [replay, hg, hs]

/-- A weaker guard lets the same execution pass. -/
theorem replay_mono {g g' : S → A → Bool} (himp : ∀ s a, g s a = true → g' s a = true)
    {as : List A} (hr : replay sys g s as = some s') : replay sys g' s as = some s' := by
  induction as generalizing s with
  | nil => exact hr
  | cons a as ih =>
    simp only [replay] at hr
    split at hr
    · next hg =>
      obtain ⟨s1, hs, hr'⟩ := Option.bind_eq_some_iff.mp hr
      rw [replay_cons (himp s a hg) hs]
      exact ih hr'
    · cases hr

/-- A successful execution stays within the guarded runs. -/
theorem replay_reach {g : S → A → Bool} (hG : ∀ s a, g s a = true → G s a) {as : List A}
    (h : Reach sys G s) (hr : replay sys g s as = some s') : Reach sys G s' := by
  induction as generalizing s with
  | nil => cases hr; exact h
  | cons a as ih =>
    simp only [replay] at hr
    split at hr
    · next hg =>
      obtain ⟨s1, hs, hr'⟩ := Option.bind_eq_some_iff.mp hr
      exact ih (.step h (hG s a hg) hs) hr'
    · cases hr

/-! ## Tables of threads

A state that keeps its threads in a list only ever replaces one of them or
appends a new one. -/

section Table

variable {α : Type} {l : List α} {i j : Nat} {a b x : α}

/-- A thread of the table after thread `i` has moved on to `x`. -/
theorem getElem?_set_cases (ha : l[i]? = some a) (hb : (l.set i x)[j]? = some b) :
    (j = i ∧ b = x) ∨ (j ≠ i ∧ l[j]? = some b) := by
  have hi := (List.getElem?_eq_some_iff.mp ha).1
  rw [List.getElem?_set] at hb
  by_cases hij : i = j
  · rw [if_pos hij, if_pos (hij ▸ hi)] at hb
    exact .inl ⟨hij.symm, (Option.some.inj hb).symm⟩
  · rw [if_neg hij] at hb
    exact .inr ⟨fun h => hij h.symm, hb⟩

theorem getElem?_set_of_ne (hij : j ≠ i) (hb : l[j]? = some b) : (l.set i x)[j]? = some b := by
  rw [List.getElem?_set_ne (Ne.symm hij)]
  exact hb

theorem getElem?_set_self_of (ha : l[i]? = some a) : (l.set i x)[i]? = some x := by
  rw [List.getElem?_set_self (List.getElem?_eq_some_iff.mp ha).1]

/-- A thread of the table after `x` has been appended. -/
theorem getElem?_concat_cases (hb : (l ++ [x])[j]? = some b) :
    l[j]? = some b ∨ (j = l.length ∧ b = x) := by
  rcases Nat.lt_trichotomy j l.length with hj | hj | hj
  · rw [List.getElem?_append_left hj] at hb
    exact .inl hb
  · subst hj
    rw [List.getElem?_concat_length] at hb
    exact .inr ⟨rfl, (Option.some.inj hb).symm⟩
  · have hlen : (l ++ [x]).length ≤ j := by
      rw [List.length_append, List.length_singleton]
      omega
    rw [List.getElem?_eq_none hlen] at hb
    cases hb

/-- What depends on a thread, and does not change when thread `i` moves on to `x`,
does not change for any thread. -/
theorem getElem?_set_congr {β : Type} (f : Option α → β) (ha : l[i]? = some a)
    (hf : f (some x) = f (some a)) : f (l.set i x)[j]? = f l[j]? := by
  rcases Nat.decEq j i with hji | rfl
  · rw [List.getElem?_set_ne (Ne.symm hji)]
  · rw [getElem?_set_self_of ha, ha, hf]

theorem getElem?_concat_congr {β : Type} (f : Option α → β) (hf : f (some x) = f none) :
    f (l ++ [x])[j]? = f l[j]? := by
  rcases Nat.lt_trichotomy j l.length with hj | rfl | hj
  · rw [List.getElem?_append_left hj]
  · rw [List.getElem?_concat_length, hf, List.getElem?_eq_none (Nat.le_refl _)]
  · rw [List.getElem?_eq_none (Nat.le_of_lt hj), List.getElem?_eq_none]
    rw [List.length_append, List.length_singleton]
    exact hj

/-- All threads but the last one satisfy `p`: what is left when each thread is
started only after the ones before it have come to satisfy it. -/
def AllButLast (p : α → Prop) (l : List α) : Prop :=
  ∀ (i : Nat) (a : α), l[i]? = some a → i + 1 < l.length → p a

variable {p : α → Prop}

theorem allButLast_nil : AllButLast p [] := by
  intro i a ha
  cases ha

theorem allButLast_concat (h : ∀ a ∈ l, p a) (x : α) : AllButLast p (l ++ [x]) := by
  intro i a ha hi
  rcases getElem?_concat_cases ha with ha | ⟨rfl, _⟩
  · exact h a (List.mem_of_getElem? ha)
  · rw [List.length_append, List.length_singleton] at hi
    exact absurd hi (Nat.lt_irrefl _)

/-- A thread that does not satisfy `p` is the last one. -/
theorem AllButLast.last (h : AllButLast p l) (ha : l[i]? = some a) (hp : ¬p a) :
    i + 1 = l.length := by
  have hlt := (List.getElem?_eq_some_iff.mp ha).1
  rcases Nat.lt_or_ge (i + 1) l.length with hl | hl
  · exact absurd (h i a ha hl) hp
  · exact Nat.le_antisymm hlt hl

/-- Beside a thread that does not satisfy `p` all others do. -/
theorem AllButLast.others (h : AllButLast p l) (ha : l[i]? = some a) (hp : ¬p a)
    (hb : l[j]? = some b) (hji : j ≠ i) : p b := by
  have hlast := h.last ha hp
  have hlt := (List.getElem?_eq_some_iff.mp hb).1
  exact h j b hb (by omega)

theorem AllButLast.unique (h : AllButLast p l) (ha : l[i]? = some a) (hp : ¬p a)
    (hb : l[j]? = some b) (hq : ¬p b) : j = i := by
  rcases Nat.decEq j i with hji | hji
  · exact absurd (h.others ha hp hb hji) hq
  · exact hji

/-- Such a thread may move on. -/
theorem AllButLast.set (h : AllButLast p l) (ha : l[i]? = some a) (hp : ¬p a) (x : α) :
    AllButLast p (l.set i x) := by
  intro j b hb hj
  rw [List.length_set] at hj
  rcases getElem?_set_cases ha hb with ⟨rfl, _⟩ | ⟨_, hb⟩
  · have hlast := h.last ha hp
    omega
  · exact h j b hb hj

end Table

end Transition
