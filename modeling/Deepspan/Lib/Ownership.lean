import Mathlib.Data.List.Nodup
import Mathlib.Logic.Function.Basic

/-!
# Exclusive ownership

A table of holders, each of which holds at most one key, beside a mark on every key.
`Exclusive` says that a key is marked exactly when one holder has it, and no key has
two. It is kept when a holder takes an unmarked key and marks it, gives its key back,
or passes it on; the number of holders that have a key is then the number of marks.
-/

namespace Ownership

open Function (update)

variable {K : Type} [DecidableEq K] {marked : K → Bool} {held : List (Option K)} {i j : Nat} {k : K}

def Exclusive (marked : K → Bool) (held : List (Option K)) : Prop :=
  ∀ k, held.count (some k) = (marked k).toNat

/-- Nobody holds anything. -/
theorem exclusive_of_forall_none (hheld : ∀ x ∈ held, x = none) (hmarked : ∀ k, marked k = false) :
    Exclusive marked held := by
  intro k
  rw [hmarked k]
  refine List.count_eq_zero.mpr ?_
  intro hk
  cases hheld _ hk

/-! ## What it says -/

theorem Exclusive.marked_of_holds (h : Exclusive marked held) (hi : held[i]? = some (some k)) :
    marked k = true := by
  have hpos := List.count_pos_iff.mpr (List.mem_of_getElem? hi)
  rw [h k] at hpos
  cases hk : marked k with
  | true => rfl
  | false =>
    rw [hk] at hpos
    cases hpos

theorem Exclusive.exists_holds (h : Exclusive marked held) (hk : marked k = true) :
    ∃ i : Nat, held[i]? = some (some k) := by
  have hcount := h k
  rw [hk] at hcount
  have hpos : 0 < held.count (some k) := by
    rw [hcount]
    exact Nat.zero_lt_one
  exact List.mem_iff_getElem?.mp (List.count_pos_iff.mp hpos)

theorem count_set_of {x y : Option K} (hi : held[i]? = some x) (k : K) :
    (held.set i y).count (some k) + (if x = some k then 1 else 0) =
      held.count (some k) + (if y = some k then 1 else 0) := by
  obtain ⟨hlt, heq⟩ := List.getElem?_eq_some_iff.mp hi
  have hpos : x = some k → 0 < held.count (some k) := by
    rintro rfl
    exact List.count_pos_iff.mpr (List.mem_of_getElem? hi)
  rw [List.count_set hlt, heq]
  simp only [beq_iff_eq]
  split
  · next hx =>
    have := hpos hx
    omega
  · omega

/-- No two holders have the same key. -/
theorem Exclusive.unique (h : Exclusive marked held) (hi : held[i]? = some (some k))
    (hj : held[j]? = some (some k)) : i = j := by
  by_contra hij
  have hset := count_set_of (y := none) hi k
  have hrest : (held.set i none)[j]? = some (some k) := by
    rw [List.getElem?_set_ne hij]
    exact hj
  have hpos := List.count_pos_iff.mpr (List.mem_of_getElem? hrest)
  have hle : held.count (some k) ≤ 1 := by
    rw [h k]
    exact Bool.toNat_le _
  rw [if_pos rfl, if_neg (by intro h; cases h)] at hset
  omega

/-- A key is marked when exactly one holder has it. -/
theorem Exclusive.marked_iff (h : Exclusive marked held) :
    marked k = true ↔ ∃! i : Nat, held[i]? = some (some k) := by
  constructor
  · intro hk
    obtain ⟨i, hi⟩ := h.exists_holds hk
    exact ⟨i, hi, fun j hj => h.unique hj hi⟩
  · rintro ⟨i, hi, _⟩
    exact h.marked_of_holds hi

/-- The holders that have a key are as many as the marked keys. -/
theorem Exclusive.countP_isSome (h : Exclusive marked held) {keys : List K} (hnodup : keys.Nodup)
    (hkeys : ∀ k, marked k = true → k ∈ keys) :
    held.countP Option.isSome = keys.countP marked := by
  have hcount : ∀ k, (held.filterMap id).count k = held.count (some k) :=
    fun _ => List.count_filterMap
  have hheld : (held.filterMap id).Nodup := by
    refine List.nodup_iff_count_le_one.mpr fun k => ?_
    rw [hcount k, h k]
    exact Bool.toNat_le _
  have hperm : (held.filterMap id).Perm (keys.filter marked) := by
    refine (List.perm_ext_iff_of_nodup hheld (hnodup.filter marked)).mpr fun k => ?_
    rw [List.mem_filter, ← List.count_pos_iff, hcount k, List.count_pos_iff, List.mem_iff_getElem?]
    constructor
    · rintro ⟨i, hi⟩
      exact ⟨hkeys k (h.marked_of_holds hi), h.marked_of_holds hi⟩
    · rintro ⟨_, hk⟩
      exact h.exists_holds hk
  calc held.countP Option.isSome
      = (held.filterMap id).length := List.length_filterMap_eq_countP.symm
    _ = (keys.filter marked).length := hperm.length_eq
    _ = keys.countP marked := List.countP_eq_length_filter.symm

/-- The marks of a table of records that carry them. -/
theorem countP_range {α : Type} (l : List α) (p : α → Bool) :
    (List.range l.length).countP (fun k => l[k]?.any p) = l.countP p := by
  have hmap : (List.range l.length).map (fun k => l[k]?.any p) = l.map p := by
    refine List.ext_getElem ?_ ?_
    · rw [List.length_map, List.length_range, List.length_map]
    · intro k hk hk'
      rw [List.length_map] at hk'
      rw [List.getElem_map, List.getElem_range, List.getElem_map, List.getElem?_eq_getElem hk']
      rfl
  calc (List.range l.length).countP (fun k => l[k]?.any p)
      = ((List.range l.length).map (fun k => l[k]?.any p)).countP id := by
        rw [List.countP_map]
        rfl
    _ = (l.map p).countP id := by rw [hmap]
    _ = l.countP p := by
        rw [List.countP_map]
        rfl

/-! ## How it is kept -/

theorem Exclusive.concat_none (h : Exclusive marked held) : Exclusive marked (held ++ [none]) := by
  intro k
  rw [List.count_append, h k]
  rfl

/-- A new holder takes an unmarked key. -/
theorem Exclusive.concat_take (h : Exclusive marked held) (hk : marked k = false) :
    Exclusive (update marked k true) (held ++ [some k]) := by
  intro k'
  rw [List.count_append, h k', List.count_singleton]
  rcases Decidable.em (k' = k) with rfl | hne
  · rw [Function.update_self, hk]
    simp
  · rw [Function.update_of_ne hne]
    simp [Ne.symm hne]

/-- A holder that has nothing takes an unmarked key. -/
theorem Exclusive.take (h : Exclusive marked held) (hi : held[i]? = some none)
    (hk : marked k = false) : Exclusive (update marked k true) (held.set i (some k)) := by
  intro k'
  have hset := count_set_of (y := some k) hi k'
  have hcount := h k'
  rcases Decidable.em (k' = k) with rfl | hne
  · rw [hk] at hcount
    rw [Function.update_self]
    simp at hset hcount ⊢
    omega
  · rw [Function.update_of_ne hne]
    simp [Ne.symm hne] at hset
    omega

/-- A holder gives its key back. -/
theorem Exclusive.give_back (h : Exclusive marked held) (hi : held[i]? = some (some k)) :
    Exclusive (update marked k false) (held.set i none) := by
  intro k'
  have hset := count_set_of (y := none) hi k'
  have hcount := h k'
  rcases Decidable.em (k' = k) with rfl | hne
  · rw [h.marked_of_holds hi] at hcount
    rw [Function.update_self]
    simp at hset hcount ⊢
    omega
  · rw [Function.update_of_ne hne]
    simp [Ne.symm hne] at hset
    omega

/-- A holder that keeps what it has. -/
theorem Exclusive.set_same {x : Option K} (h : Exclusive marked held) (hi : held[i]? = some x) :
    Exclusive marked (held.set i x) := by
  intro k
  have hset := count_set_of (y := x) hi k
  rw [← h k]
  omega

/-- A new holder takes over what another one has. -/
theorem Exclusive.concat_pass {x : Option K} (h : Exclusive marked held) (hj : held[j]? = some x) :
    Exclusive marked (held.set j none ++ [x]) := by
  intro k
  have hset := count_set_of (y := none) hj k
  rw [← h k, List.count_append, List.count_singleton]
  simp only [reduceCtorEq, if_false, beq_iff_eq] at hset ⊢
  omega

/-- A holder that has nothing takes over what another one has. -/
theorem Exclusive.pass {x : Option K} (h : Exclusive marked held) (hi : held[i]? = some none)
    (hj : held[j]? = some x) (hij : i ≠ j) : Exclusive marked ((held.set i x).set j none) := by
  intro k
  have hj' : (held.set i x)[j]? = some x := by
    rw [List.getElem?_set_ne hij]
    exact hj
  have hfirst := count_set_of (y := x) hi k
  have hsecond := count_set_of (y := none) hj' k
  rw [← h k]
  simp at hfirst hsecond
  omega

end Ownership
