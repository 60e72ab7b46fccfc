/-!
# Stores into a block of memory

A block is a list that is only overwritten in place. `writes` performs a sequence of
stores; a range holds what the last store to it has written, provided that the later
ones do not touch it (`read_writes`).
-/

namespace Block

variable {α : Type}

/-- The `n` cells from `off` on, or as many as there are. -/
def read (l : List α) (off n : Nat) : List α := (l.drop off).take n

/-- Store `bs` at `off`. -/
def write (l : List α) (off : Nat) (bs : List α) : List α :=
  l.take off ++ bs ++ l.drop (off + bs.length)

/-- Store after store. -/
def writes (l : List α) (ws : List (Nat × List α)) : List α :=
  ws.foldl (fun l w => write l w.1 w.2) l

/-- The store lies inside a block of `n` cells. -/
def Inside (n : Nat) (w : Nat × List α) : Prop := w.1 + w.2.length ≤ n

/-- The store touches none of the `n` cells from `off` on. -/
def Misses (off n : Nat) (w : Nat × List α) : Prop :=
  off + n ≤ w.1 ∨ w.1 + w.2.length ≤ off

instance (n : Nat) (w : Nat × List α) : Decidable (Inside n w) :=
  inferInstanceAs (Decidable (_ ≤ _))

instance (off n : Nat) (w : Nat × List α) : Decidable (Misses off n w) :=
  inferInstanceAs (Decidable (_ ∨ _))

variable {l bs : List α} {off n : Nat} {ws : List (Nat × List α)}

theorem length_write (h : Inside l.length (off, bs)) : (write l off bs).length = l.length := by
  unfold Inside at h
  simp only [write, List.length_append, List.length_take, List.length_drop] at h ⊢
  omega

theorem read_write_self (h : Inside l.length (off, bs)) : read (write l off bs) off bs.length = bs := by
  simp only [Inside] at h
  have hlen : (l.take off).length = off := List.length_take_of_le (by omega)
  have hdrop : (write l off bs).drop off = bs ++ l.drop (off + bs.length) := by
    rw [write, List.append_assoc]
    exact List.drop_left' hlen
  rw [read, hdrop]
  exact List.take_left

theorem read_write_of_misses (h : Inside l.length (off, bs)) {o : Nat} (hm : Misses o n (off, bs)) :
    read (write l off bs) o n = read l o n := by
  simp only [Inside] at h
  simp only [Misses] at hm
  have hlen : (l.take off).length = off := List.length_take_of_le (by omega)
  refine List.ext_getElem? fun i => ?_
  simp only [read, write, List.getElem?_take, List.getElem?_drop, List.append_assoc,
    List.getElem?_append, hlen]
  rcases Nat.lt_or_ge i n with hi | hi
  · rw [if_pos hi, if_pos hi]
    rcases hm with hm | hm
    · rw [if_pos (by omega), if_pos (by omega)]
    · rw [if_neg (by omega), if_neg (by omega)]
      congr 1
      omega
  · rw [if_neg (Nat.not_lt.mpr hi), if_neg (Nat.not_lt.mpr hi)]

/-- A range inside what has been stored. -/
theorem read_write_within (h : Inside l.length (off, bs)) {k : Nat} (hk : k + n ≤ bs.length) :
    read (write l off bs) (off + k) n = read bs k n := by
  simp only [Inside] at h
  have hlen : (l.take off).length = off := List.length_take_of_le (by omega)
  have hdrop : (write l off bs).drop off = bs ++ l.drop (off + bs.length) := by
    rw [write, List.append_assoc]
    exact List.drop_left' hlen
  rw [read, ← List.drop_drop, hdrop, List.drop_append_of_le_length (by omega),
    List.take_append_of_le_length]
  · rfl
  · rw [List.length_drop]
    omega

theorem length_writes (h : ∀ w ∈ ws, Inside l.length w) : (writes l ws).length = l.length := by
  induction ws generalizing l with
  | nil => rfl
  | cons w ws ih =>
    have hw := length_write (h w List.mem_cons_self)
    refine (ih ?_).trans hw
    intro v hv
    rw [hw]
    exact h v (List.mem_cons_of_mem w hv)

theorem read_writes_of_misses (h : ∀ w ∈ ws, Inside l.length w) {o : Nat}
    (hm : ∀ w ∈ ws, Misses o n w) : read (writes l ws) o n = read l o n := by
  induction ws generalizing l with
  | nil => rfl
  | cons w ws ih =>
    have hw := length_write (h w List.mem_cons_self)
    have hrest : ∀ v ∈ ws, Inside (write l w.1 w.2).length v := by
      intro v hv
      rw [hw]
      exact h v (List.mem_cons_of_mem w hv)
    refine (ih hrest fun v hv => hm v (List.mem_cons_of_mem w hv)).trans ?_
    exact read_write_of_misses (h w List.mem_cons_self) (hm w List.mem_cons_self)

/-- A range holds what was stored to it last. -/
theorem read_writes (before later : List (Nat × List α))
    (h : ∀ w ∈ before ++ (off, bs) :: later, Inside l.length w)
    (hm : ∀ w ∈ later, Misses off bs.length w) :
    read (writes l (before ++ (off, bs) :: later)) off bs.length = bs := by
  have hbefore : (writes l before).length = l.length :=
    length_writes fun w hw => h w (List.mem_append_left _ hw)
  have hself : Inside (writes l before).length (off, bs) := by
    rw [hbefore]
    exact h _ (List.mem_append_right _ List.mem_cons_self)
  have hlater : ∀ w ∈ later, Inside (write (writes l before) off bs).length w := by
    intro w hw
    rw [length_write hself, hbefore]
    exact h w (List.mem_append_right _ (List.mem_cons_of_mem _ hw))
  rw [writes, List.foldl_append, List.foldl_cons]
  exact (read_writes_of_misses hlater hm).trans (read_write_self hself)

theorem read_replicate {m : Nat} (a : α) (h : off + n ≤ m) :
    read (List.replicate m a) off n = List.replicate n a := by
  rw [read, List.drop_replicate, List.take_replicate, Nat.min_eq_left (Nat.le_sub_of_add_le' h)]

/-- Adjacent ranges. -/
theorem read_add (l : List α) (off m n : Nat) :
    read l off (m + n) = read l off m ++ read l (off + m) n := by
  rw [read, read, read, List.take_add, List.drop_drop]

end Block
