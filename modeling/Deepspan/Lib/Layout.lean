import Deepspan.Lib.Block
import Mathlib.Logic.Function.Basic

/-!
# Structs in a block of memory

Two levels of one thing. Below, a block of cells and the offsets at which a C compiler puts the
members of a struct: each at the next multiple of its alignment (`place`). Above, a value for
every field, and a store that replaces one of them.

* `place_apart`: the members of a struct do not overlap;
* `Fields.view_write`: where fields do not overlap, a store to one of them is
  `Function.update` on their values;
* `Fields.view_write_of_misses`: a store that touches no field changes no value;
* `Fields.exists_view`: any values can be stored.
-/

namespace Layout

/-! ## Offsets -/

/-- A member of a struct: `count` elements of `size` bytes, aligned to their size. -/
structure Member (ι : Type) where
  name : ι
  size : Nat
  count : Nat
deriving DecidableEq, Repr

variable {ι : Type}

def Member.bytes (m : Member ι) : Nat := m.size * m.count

/-- The first multiple of `a` from `n` on. -/
def alignUp (n a : Nat) : Nat := (n + (a - 1)) / a * a

/-- The members, each with its offset, from `off` on. -/
def place : Nat → List (Member ι) → List (Member ι × Nat)
  | _, [] => []
  | off, m :: ms => (m, alignUp off m.size) :: place (alignUp off m.size + m.bytes) ms

/-- Where the last member ends. -/
def stop : Nat → List (Member ι) → Nat
  | off, [] => off
  | off, m :: ms => stop (alignUp off m.size + m.bytes) ms

/-- `sizeof`: the end of the last member, rounded up to the largest alignment. -/
def sizeof (ms : List (Member ι)) : Nat := alignUp (stop 0 ms) ((ms.map Member.size).foldl max 1)

/-- The member of this name, and its offset. -/
def find? [DecidableEq ι] (ms : List (Member ι)) (x : ι) : Option (Member ι × Nat) :=
  (place 0 ms).find? fun p => p.1.name == x

/-- `offsetof` -/
def offsetof? [DecidableEq ι] (ms : List (Member ι)) (x : ι) : Option Nat := (find? ms x).map (·.2)

theorem le_alignUp (n : Nat) {a : Nat} (h : 0 < a) : n ≤ alignUp n a := by
  have hround : n + (a - 1) < alignUp n a + a := Nat.lt_div_mul_add h
  omega

section Place

variable {ms : List (Member ι)} {off : Nat} {p : Member ι × Nat}

theorem le_stop (hpos : ∀ m ∈ ms, 0 < m.size) : off ≤ stop off ms := by
  induction ms generalizing off with
  | nil => exact Nat.le_refl off
  | cons m ms ih =>
    have hm := le_alignUp off (hpos m List.mem_cons_self)
    refine Nat.le_trans ?_ (ih fun m hm => hpos m (List.mem_cons_of_mem _ hm))
    exact Nat.le_add_right_of_le hm

/-- Every member lies between the start and the end. -/
theorem place_bounds (hpos : ∀ m ∈ ms, 0 < m.size) (h : p ∈ place off ms) :
    off ≤ p.2 ∧ p.2 + p.1.bytes ≤ stop off ms := by
  induction ms generalizing off with
  | nil => cases h
  | cons m ms ih =>
    have hm := le_alignUp off (hpos m List.mem_cons_self)
    have hrest : ∀ m ∈ ms, 0 < m.size := fun m hm => hpos m (List.mem_cons_of_mem _ hm)
    rcases List.mem_cons.mp h with rfl | h
    · exact ⟨hm, le_stop hrest⟩
    · obtain ⟨hlow, hhigh⟩ := ih hrest h
      exact ⟨Nat.le_trans (Nat.le_add_right_of_le hm) hlow, hhigh⟩

/-- Each member ends before the ones behind it start. -/
theorem place_apart (hpos : ∀ m ∈ ms, 0 < m.size) :
    (place off ms).Pairwise fun p q => p.2 + p.1.bytes ≤ q.2 := by
  induction ms generalizing off with
  | nil => exact .nil
  | cons m ms ih =>
    have hrest : ∀ m ∈ ms, 0 < m.size := fun m hm => hpos m (List.mem_cons_of_mem _ hm)
    exact .cons (fun q hq => (place_bounds hrest hq).1) (ih hrest)

variable [DecidableEq ι] {x y : ι} {m m' : Member ι} {o o' : Nat}

theorem find?_bounds (hpos : ∀ m ∈ ms, 0 < m.size) (h : find? ms x = some (m, o)) :
    o + m.bytes ≤ stop 0 ms :=
  (place_bounds hpos (List.mem_of_find?_eq_some h)).2

theorem find?_name (h : find? ms x = some (m, o)) : m.name = x := by
  have hname := List.find?_some h
  exact beq_iff_eq.mp hname

/-- Members of different names do not overlap. -/
theorem find?_apart (hpos : ∀ m ∈ ms, 0 < m.size) (hx : find? ms x = some (m, o))
    (hy : find? ms y = some (m', o')) (hne : x ≠ y) : o + m.bytes ≤ o' ∨ o' + m'.bytes ≤ o := by
  have hpair := (List.pairwise_iff_getElem.mp (@place_apart _ ms 0 hpos))
  obtain ⟨i, hi, hxi⟩ := List.getElem_of_mem (List.mem_of_find?_eq_some hx)
  obtain ⟨j, hj, hyj⟩ := List.getElem_of_mem (List.mem_of_find?_eq_some hy)
  rcases Nat.lt_trichotomy i j with hlt | rfl | hlt
  · left
    have h := hpair i j hi hj hlt
    rw [hxi, hyj] at h
    exact h
  · rw [hxi] at hyj
    cases hyj
    exact absurd ((find?_name hx).symm.trans (find?_name hy)) hne
  · right
    have h := hpair j i hj hi hlt
    rw [hxi, hyj] at h
    exact h

end Place

/-! ## Values -/

/-- The cells that values of `V` are stored in. -/
structure Codec (α V : Type) where
  size : Nat
  enc : V → List α
  dec : List α → V
  length_enc : ∀ v, (enc v).length = size
  dec_enc : ∀ v, dec (enc v) = v

/-- Fields at fixed places of a block of `n` cells, none of which overlap. -/
structure Fields (α ι : Type) (V : ι → Type) (n : Nat) where
  codec : ∀ i, Codec α (V i)
  offset : ι → Nat
  inside : ∀ i, offset i + (codec i).size ≤ n
  apart : ∀ i j, i ≠ j →
    offset i + (codec i).size ≤ offset j ∨ offset j + (codec j).size ≤ offset i

namespace Fields

variable {α : Type} {V : ι → Type} {n : Nat} (F : Fields α ι V n)

/-- The value of every field. -/
def view (l : List α) (i : ι) : V i := (F.codec i).dec (Block.read l (F.offset i) (F.codec i).size)

variable {F} {l : List α}

/-- A store that touches no field. -/
theorem view_write_of_misses {off : Nat} {bs : List α} (hin : Block.Inside l.length (off, bs))
    {i : ι} (hmiss : Block.Misses (F.offset i) (F.codec i).size (off, bs)) :
    F.view (Block.write l off bs) i = F.view l i := by
  rw [view, Block.read_write_of_misses hin hmiss]
  rfl

theorem enc_inside (hlen : l.length = n) (i : ι) (v : V i) :
    Block.Inside l.length (F.offset i, (F.codec i).enc v) := by
  rw [Block.Inside, (F.codec i).length_enc, hlen]
  exact F.inside i

/-- A store to a field replaces its value and no other. -/
theorem view_write [DecidableEq ι] (hlen : l.length = n) (i : ι) (v : V i) :
    F.view (Block.write l (F.offset i) ((F.codec i).enc v)) = Function.update (F.view l) i v := by
  have hin := F.enc_inside hlen i v
  funext j
  by_cases hji : j = i
  · subst hji
    have hread := Block.read_write_self hin
    rw [(F.codec j).length_enc] at hread
    rw [Function.update_self, view, hread, (F.codec j).dec_enc]
  · rw [Function.update_of_ne hji]
    refine view_write_of_misses hin ?_
    rw [Block.Misses, (F.codec i).length_enc]
    exact F.apart j i hji

/-- Any values of finitely many fields are those of some block. -/
theorem exists_view [Inhabited α] {fields : List ι} (hall : ∀ i, i ∈ fields) (f : ∀ i, V i) :
    ∃ l : List α, l.length = n ∧ F.view l = f := by
  classical
  have hsome (some : List ι) : ∃ l : List α, l.length = n ∧ ∀ i ∈ some, F.view l i = f i := by
    induction some with
    | nil => exact ⟨List.replicate n default, List.length_replicate, fun i hi => by cases hi⟩
    | cons i some ih =>
      obtain ⟨l, hlen, hl⟩ := ih
      refine ⟨_, (Block.length_write (F.enc_inside hlen i (f i))).trans hlen, ?_⟩
      intro j hj
      rw [view_write hlen]
      by_cases hji : j = i
      · subst hji
        exact Function.update_self j (f j) _
      · rw [Function.update_of_ne hji]
        exact hl j ((List.mem_cons.mp hj).resolve_left hji)
  obtain ⟨l, hlen, hl⟩ := hsome fields
  exact ⟨l, hlen, funext fun i => hl i (hall i)⟩

end Fields

end Layout
