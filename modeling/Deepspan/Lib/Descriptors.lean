import Mathlib.Data.List.Nodup
import Deepspan.Lib.Ownership
import Deepspan.Lib.Transition

/-!
# Descriptors and the objects that own them

A table of descriptors: small numbers, each of which stands for a resource while it is open
and for another one when it has been used again. `account` is the conservation law of the
table: whatever has been issued is open, or it has been released once.

Over it objects that own at most one descriptor each, written with hand-made special members
(`Members`): a move constructor, a move assignment and a destructor, with what each of them
releases. `Members` carries the laws that make them right, and `reach_singleOwner` says what
then holds in every run: a descriptor has one owner until it is released, and what other code
has opened under a number that was used before is never hit.
-/

namespace Descriptors

open Function (update)
open Transition Ownership

/-! ## The table -/

/-- An open descriptor: its number, and the resource that it stands for. -/
structure Slot where
  num : Nat
  id : Nat
deriving DecidableEq, Repr

/-- The open descriptors, the resources that have been issued (known by their index), those
that have been released and the numbers that were closed without being open. -/
structure Table (κ : Type) where
  slots : List Slot
  issued : List κ
  released : List Nat := []
  stray : List Nat := []
  nums : (slots.map Slot.num).Nodup
  account : (slots.map Slot.id ++ released).Perm (List.range issued.length)

namespace Table

variable {κ : Type} {t : Table κ} {n m k : Nat} {kind : κ} {s : Slot}

def empty : Table κ where
  slots := []
  issued := []
  nums := .nil
  account := .refl _

/-- A new resource under a number that is not in use. -/
def issue (t : Table κ) (n : Nat) (kind : κ) (h : n ∉ t.slots.map Slot.num) : Table κ where
  slots := ⟨n, t.issued.length⟩ :: t.slots
  issued := t.issued ++ [kind]
  released := t.released
  stray := t.stray
  nums := List.nodup_cons.mpr ⟨h, t.nums⟩
  account := by
    rw [List.length_append, List.length_singleton, List.range_succ]
    exact (t.account.cons _).trans (List.perm_append_singleton _ _).symm

/-- What `n` stands for is released. -/
def close (t : Table κ) (n : Nat) : Table κ where
  slots := t.slots.filter (·.num != n)
  issued := t.issued
  released := t.released ++ (t.slots.filter (·.num == n)).map Slot.id
  stray := if n ∈ t.slots.map Slot.num then t.stray else t.stray ++ [n]
  nums := t.nums.sublist (List.filter_sublist.map _)
  account := by
    refine List.Perm.trans ?_ t.account
    have hsplit : ((t.slots.filter (·.num == n)) ++ t.slots.filter (·.num != n)).Perm t.slots :=
      List.filter_append_perm _ _
    have hids := (hsplit.map Slot.id).append_right t.released
    rw [List.map_append] at hids
    refine List.Perm.trans List.perm_append_comm ?_
    rw [List.append_assoc]
    exact List.perm_append_comm.trans hids

theorem id_lt (hs : s ∈ t.slots) : s.id < t.issued.length :=
  List.mem_range.mp (t.account.subset (List.mem_append_left _ (List.mem_map_of_mem hs)))

theorem released_lt (hk : k ∈ t.released) : k < t.issued.length :=
  List.mem_range.mp (t.account.subset (List.mem_append_right _ hk))

/-- Two open descriptors that stand for the same resource, or have the same number, are the
same. -/
theorem slot_eq_of_num {s s' : Slot} (hs : s ∈ t.slots) (hs' : s' ∈ t.slots)
    (h : s.num = s'.num) : s = s' :=
  List.inj_on_of_nodup_map t.nums hs hs' h

theorem nodup_account (t : Table κ) : (t.slots.map Slot.id ++ t.released).Nodup :=
  t.account.nodup_iff.mpr List.nodup_range

theorem slot_eq_of_id {s s' : Slot} (hs : s ∈ t.slots) (hs' : s' ∈ t.slots)
    (h : s.id = s'.id) : s = s' :=
  List.inj_on_of_nodup_map (List.nodup_append.mp t.nodup_account).1 hs hs' h

/-- Every resource is open and unreleased, or released once and not open. -/
theorem open_or_released (hk : k < t.issued.length) :
    (∃ n, ⟨n, k⟩ ∈ t.slots) ∧ t.released.count k = 0 ∨
      (∀ n, ⟨n, k⟩ ∉ t.slots) ∧ t.released.count k = 1 := by
  have hone : (t.slots.map Slot.id ++ t.released).count k = 1 := by
    refine List.count_eq_one_of_mem t.nodup_account ?_
    exact t.account.mem_iff.mpr (List.mem_range.mpr hk)
  rw [List.count_append] at hone
  by_cases hopen : ∃ n, ⟨n, k⟩ ∈ t.slots
  · obtain ⟨n, hn⟩ := hopen
    have hpos : 0 < (t.slots.map Slot.id).count k :=
      List.count_pos_iff.mpr (List.mem_map_of_mem hn)
    exact .inl ⟨⟨n, hn⟩, by omega⟩
  · have hzero : (t.slots.map Slot.id).count k = 0 := by
      refine List.count_eq_zero.mpr fun hmem => ?_
      obtain ⟨⟨n, _⟩, hs, rfl⟩ := List.mem_map.mp hmem
      exact hopen ⟨n, hs⟩
    exact .inr ⟨fun n hn => hopen ⟨n, hn⟩, by omega⟩

/-- Closing a descriptor that is open. -/
theorem close_of_perm {rest : List Slot} (h : t.slots.Perm (s :: rest)) :
    (t.close s.num).slots.Perm rest ∧ (t.close s.num).released = t.released ++ [s.id] ∧
      (t.close s.num).stray = t.stray := by
  have hnodup : (s.num :: rest.map Slot.num).Nodup := (h.map Slot.num).nodup_iff.mp t.nums
  have hrest : ∀ x ∈ rest, x.num ≠ s.num := fun x hx heq =>
    (List.nodup_cons.mp hnodup).1 (heq ▸ List.mem_map_of_mem hx)
  refine ⟨?_, ?_, ?_⟩
  · have hfilter := h.filter (·.num != s.num)
    rw [List.filter_cons_of_neg (by simp)] at hfilter
    rwa [List.filter_eq_self.mpr fun x hx => bne_iff_ne.mpr (hrest x hx)] at hfilter
  · have hfilter := h.filter (·.num == s.num)
    rw [List.filter_cons_of_pos (by simp)] at hfilter
    have hnil : rest.filter (·.num == s.num) = [] :=
      List.filter_eq_nil_iff.mpr fun x hx => by simpa using hrest x hx
    rw [hnil] at hfilter
    simp only [close, List.perm_singleton.mp hfilter, List.map_singleton]
  · have hmem : s.num ∈ t.slots.map Slot.num :=
      List.mem_map_of_mem (h.mem_iff.mpr (List.mem_cons_self ..))
    simp only [close, if_pos hmem]

variable [DecidableEq κ] {kind' : κ}

/-- `n` stands for a resource of this kind. -/
def numbered (t : Table κ) (kind : κ) (n : Nat) : Bool :=
  t.slots.any fun s => s.num == n && t.issued[s.id]? == some kind

theorem numbered_iff :
    t.numbered kind n = true ↔ ∃ k, ⟨n, k⟩ ∈ t.slots ∧ t.issued[k]? = some kind := by
  simp only [numbered, List.any_eq_true, Bool.and_eq_true, beq_iff_eq]
  constructor
  · rintro ⟨⟨_, k⟩, hs, rfl, hp⟩
    exact ⟨k, hs, hp⟩
  · rintro ⟨k, hs, hp⟩
    exact ⟨_, hs, rfl, hp⟩

theorem not_numbered (h : n ∉ t.slots.map Slot.num) : t.numbered kind n = false := by
  refine Bool.eq_false_iff.mpr fun hn => ?_
  obtain ⟨k, hs, _⟩ := numbered_iff.mp hn
  exact h (List.mem_map_of_mem hs)

theorem numbered_issue (h : n ∉ t.slots.map Slot.num) :
    (t.issue n kind' h).numbered kind = update (t.numbered kind) n (kind' == kind) := by
  funext m
  rw [Bool.eq_iff_iff, numbered_iff]
  simp only [issue, List.mem_cons, Slot.mk.injEq]
  rcases Nat.decEq m n with hne | rfl
  · rw [Function.update_of_ne hne, numbered_iff]
    constructor
    · rintro ⟨k, ⟨hmn, _⟩ | hs, hp⟩
      · exact absurd hmn hne
      · rw [List.getElem?_append_left (id_lt hs)] at hp
        exact ⟨k, hs, hp⟩
    · rintro ⟨k, hs, hp⟩
      refine ⟨k, .inr hs, ?_⟩
      rwa [List.getElem?_append_left (id_lt hs)]
  · rw [Function.update_self]
    constructor
    · rintro ⟨k, ⟨_, rfl⟩ | hs, hp⟩
      · rw [List.getElem?_concat_length] at hp
        exact beq_iff_eq.mpr (Option.some.inj hp)
      · exact absurd (List.mem_map_of_mem hs) h
    · intro hp
      refine ⟨t.issued.length, .inl ⟨rfl, rfl⟩, ?_⟩
      rw [List.getElem?_concat_length, beq_iff_eq.mp hp]

theorem numbered_close :
    (t.close n).numbered kind = update (t.numbered kind) n false := by
  funext m
  rw [Bool.eq_iff_iff, numbered_iff]
  simp only [close, List.mem_filter, bne_iff_ne, ne_eq]
  rcases Nat.decEq m n with hne | rfl
  · rw [Function.update_of_ne hne, numbered_iff]
    constructor
    · rintro ⟨k, ⟨hs, _⟩, hp⟩
      exact ⟨k, hs, hp⟩
    · rintro ⟨k, hs, hp⟩
      exact ⟨k, ⟨hs, hne⟩, hp⟩
  · rw [Function.update_self]
    constructor
    · rintro ⟨k, ⟨_, hne⟩, _⟩
      exact absurd rfl hne
    · intro h
      cases h

def release (t : Table κ) : Option Nat → Table κ
  | none => t
  | some n => t.close n

end Table

/-- How numbers are chosen: any that is not in use, at any time. -/
structure Numbering where
  pick : Nat → List Nat → Nat
  unused : ∀ time used, pick time used ∉ used

namespace Table

variable {κ : Type} {t t' t'' : Table κ} {rest rest' : List Slot} {ids ids' : List Nat} {s : Slot}

/-- The number that the next descriptor gets. -/
def next (t : Table κ) (numbering : Numbering) : Nat :=
  numbering.pick t.issued.length (t.slots.map Slot.num)

def issueNext (t : Table κ) (numbering : Numbering) (kind : κ) : Table κ :=
  t.issue (t.next numbering) kind (numbering.unused _ _)

/-- From `t` to `t'` the resources `ids` have been released in this order, and `rest` is what
is open then. -/
structure Closes (t t' : Table κ) (ids : List Nat) (rest : List Slot) : Prop where
  slots : t'.slots.Perm rest
  issued : t'.issued = t.issued
  released : t'.released = t.released ++ ids
  stray : t'.stray = t.stray

theorem closes_one (h : t.slots.Perm (s :: rest)) : Closes t (t.close s.num) [s.id] rest := by
  obtain ⟨hslots, hreleased, hstray⟩ := close_of_perm h
  exact ⟨hslots, rfl, hreleased, hstray⟩

/-- Closing what has just been opened. -/
theorem closes_issueNext (t : Table κ) (numbering : Numbering) (kind : κ) :
    (t.issueNext numbering kind).Closes ((t.issueNext numbering kind).close (t.next numbering))
      [t.issued.length] t.slots :=
  closes_one (s := ⟨t.next numbering, t.issued.length⟩) (.refl _)

theorem Closes.trans (h : Closes t t' ids rest) (h' : Closes t' t'' ids' rest') :
    Closes t t'' (ids ++ ids') rest' where
  slots := h'.slots
  issued := h'.issued.trans h.issued
  released := by rw [h'.released, h.released, List.append_assoc]
  stray := h'.stray.trans h.stray

/-- When no more is open than before, whatever has been issued in between has been released
once. -/
theorem released_since {k : Nat} (hslots : t'.slots.Perm t.slots) (hk : t.issued.length ≤ k)
    (hlt : k < t'.issued.length) : t'.released.count k = 1 := by
  rcases open_or_released hlt with ⟨⟨n, hopen⟩, _⟩ | ⟨_, hcount⟩
  · have hold : k < t.issued.length := id_lt (hslots.mem_iff.mp hopen)
    exact absurd hold (Nat.not_lt.mpr hk)
  · exact hcount

end Table

/-! ## Objects that own descriptors -/

/-- The special members of a class whose objects own at most one descriptor each: `handle`.
A constructor gets the number of a descriptor that has just been opened, and more arguments.
The moves return the objects as they leave them, the new one or `*this` first; the move
assignment is told whether `*this` and `other` are the same object. It and the destructor
return what they release. -/
structure Members (O P : Type) where
  handle : O → Option Nat
  construct : Nat → P → O
  moveConstruct : O → O × O
  moveAssign : Bool → O → O → Option Nat × O × O
  destroy : O → Option Nat
  construct_handle : ∀ n p, handle (construct n p) = some n
  moveConstruct_new : ∀ o, handle (moveConstruct o).1 = handle o
  moveConstruct_other : ∀ o, handle (moveConstruct o).2 = none
  moveAssign_releases : ∀ this other, (moveAssign false this other).1 = handle this
  moveAssign_this : ∀ this other, handle (moveAssign false this other).2.1 = handle other
  moveAssign_other : ∀ this other, handle (moveAssign false this other).2.2 = none
  moveAssign_self : ∀ o, moveAssign true o o = (none, o, o)
  destroy_releases : ∀ o, destroy o = handle o

/-- For whom a descriptor has been opened: for one of the objects, or by other code. -/
inductive Origin where
  | object
  | other
deriving DecidableEq, Repr

/-- The table, the objects (`none` once destroyed) and, as history, the resources that other
code has released. -/
structure Objects (O : Type) where
  table : Table Origin
  objects : List (Option O) := []
  others : List Nat := []

inductive Act (P : Type) where
  | construct (n : Nat) (p : P)
  | moveConstruct (src : Nat)
  | moveAssign (dst src : Nat)
  | destroy (i : Nat)
  | otherOpens (n : Nat)
  | otherCloses (n : Nat)
deriving DecidableEq, Repr

variable {O P : Type}

/-- Other code closes only what other code has opened. -/
def objectStep (M : Members O P) (s : Objects O) : Act P → Option (Objects O)
  | .construct n p =>
    if h : n ∈ s.table.slots.map Slot.num then none
    else some { s with
      table := s.table.issue n .object h
      objects := s.objects ++ [some (M.construct n p)] }
  | .moveConstruct src =>
    match s.objects[src]? with
    | some (some other) =>
      let r := M.moveConstruct other
      some { s with objects := s.objects.set src (some r.2) ++ [some r.1] }
    | some none | none => none
  | .moveAssign dst src =>
    match s.objects[dst]?, s.objects[src]? with
    | some (some this), some (some other) =>
      let r := M.moveAssign (dst == src) this other
      some { s with
        table := s.table.release r.1
        objects := (s.objects.set dst (some r.2.1)).set src (some r.2.2) }
    | _, _ => none
  | .destroy i =>
    match s.objects[i]? with
    | some (some o) => some { s with
        table := s.table.release (M.destroy o)
        objects := s.objects.set i none }
    | some none | none => none
  | .otherOpens n =>
    if h : n ∈ s.table.slots.map Slot.num then none
    else some { s with table := s.table.issue n .other h }
  | .otherCloses n =>
    if s.table.numbered .other n then
      some { s with
        table := s.table.close n
        others := s.others ++ (s.table.slots.filter (·.num == n)).map Slot.id }
    else none

def objectSystem (M : Members O P) : System (Objects O) (Act P) where
  init s := s = { table := .empty }
  step := objectStep M

/-! ## One owner -/

/-- What every object owns. -/
def Objects.held (M : Members O P) (s : Objects O) : List (Option Nat) :=
  s.objects.map (·.bind M.handle)

structure Sound (M : Members O P) (s : Objects O) : Prop where
  owned : Exclusive (s.table.numbered .object) (s.held M)
  stray : s.table.stray = []
  others : ∀ k ∈ s.table.released, s.table.issued[k]? = some .other → k ∈ s.others

variable {M : Members O P} {s s' : Objects O} {i j k n : Nat} {o : O}

theorem held_of (h : s.objects[i]? = some (some o)) : (s.held M)[i]? = some (M.handle o) := by
  rw [Objects.held, List.getElem?_map, h]
  rfl

/-- Closing what an object owns. -/
theorem close_object {t : Table Origin} (h : t.numbered .object n = true) :
    (t.close n).stray = t.stray ∧ ∃ k, t.issued[k]? = some .object ∧
      (t.close n).released = t.released ++ [k] := by
  obtain ⟨k, hs, hk⟩ := Table.numbered_iff.mp h
  obtain ⟨_, hreleased, hstray⟩ := Table.close_of_perm (List.perm_cons_erase hs)
  exact ⟨hstray, k, hk, hreleased⟩

/-- An object that releases what it owns, and owns nothing any more. -/
theorem Sound.release {x : Option Nat} (h : Sound M s) (hi : (s.held M)[i]? = some x) :
    Exclusive ((s.table.release x).numbered .object) ((s.held M).set i none) ∧
    (s.table.release x).stray = [] ∧
    ∀ k ∈ (s.table.release x).released,
      (s.table.release x).issued[k]? = some .other → k ∈ s.others := by
  cases x with
  | none => exact ⟨h.owned.set_same hi, h.stray, h.others⟩
  | some n =>
    obtain ⟨hstray, k, hk, hreleased⟩ := close_object (h.owned.marked_of_holds hi)
    refine ⟨?_, hstray.trans h.stray, fun k' hk' hother => ?_⟩
    · rw [Table.release, Table.numbered_close]
      exact h.owned.give_back hi
    · rw [Table.release, hreleased, List.mem_append, List.mem_singleton] at hk'
      rcases hk' with hk' | rfl
      · exact h.others k' hk' hother
      · cases hk.symm.trans hother

/-- A descriptor that is opened leaves the history alone. -/
theorem Sound.issue (h : Sound M s) (hn : n ∉ s.table.slots.map Slot.num) (kind : Origin) :
    ∀ k ∈ (s.table.issue n kind hn).released,
      (s.table.issue n kind hn).issued[k]? = some .other → k ∈ s.others := by
  intro k hk hother
  have hlt : k < s.table.issued.length := Table.released_lt (t := s.table) hk
  refine h.others k hk ?_
  rw [← hother]
  exact (List.getElem?_append_left hlt).symm

theorem Sound.construct (h : Sound M s) (hn : n ∉ s.table.slots.map Slot.num) (p : P) :
    Sound M { s with
      table := s.table.issue n .object hn
      objects := s.objects ++ [some (M.construct n p)] } where
  owned := by
    simp only [Objects.held, List.map_append, List.map_singleton, Option.bind_some,
      M.construct_handle, Table.numbered_issue]
    exact h.owned.concat_take (Table.not_numbered hn)
  stray := h.stray
  others := h.issue hn .object

theorem Sound.moveConstruct (h : Sound M s) (hi : s.objects[i]? = some (some o)) :
    Sound M { s with
      objects := s.objects.set i (some (M.moveConstruct o).2) ++ [some (M.moveConstruct o).1] } where
  owned := by
    simp only [Objects.held, List.map_append, List.map_set, List.map_singleton, Option.bind_some,
      M.moveConstruct_new, M.moveConstruct_other]
    exact h.owned.concat_pass (held_of hi)
  stray := h.stray
  others := h.others

theorem Sound.moveAssign (h : Sound M s) {this other : O} (hij : i ≠ j)
    (hi : s.objects[i]? = some (some this)) (hj : s.objects[j]? = some (some other)) :
    Sound M { s with
      table := s.table.release (M.moveAssign false this other).1
      objects := (s.objects.set i (some (M.moveAssign false this other).2.1)).set j
        (some (M.moveAssign false this other).2.2) } := by
  rw [M.moveAssign_releases]
  obtain ⟨howned, hstray, hothers⟩ := h.release (held_of (M := M) hi)
  refine ⟨?_, hstray, hothers⟩
  have hi' : ((s.held M).set i none)[i]? = some none := getElem?_set_self_of (held_of hi)
  have hj' : ((s.held M).set i none)[j]? = some (M.handle other) :=
    getElem?_set_of_ne (Ne.symm hij) (held_of hj)
  have hpass := howned.pass hi' hj' hij
  rw [List.set_set] at hpass
  simpa only [Objects.held, List.map_set, Option.bind_some, M.moveAssign_this,
    M.moveAssign_other] using hpass

theorem Sound.destroy (h : Sound M s) (hi : s.objects[i]? = some (some o)) :
    Sound M { s with
      table := s.table.release (M.destroy o)
      objects := s.objects.set i none } := by
  rw [M.destroy_releases]
  obtain ⟨howned, hstray, hothers⟩ := h.release (held_of (M := M) hi)
  refine ⟨?_, hstray, hothers⟩
  simpa only [Objects.held, List.map_set, Option.bind_none] using howned

theorem Sound.otherOpens (h : Sound M s) (hn : n ∉ s.table.slots.map Slot.num) :
    Sound M { s with table := s.table.issue n .other hn } where
  owned := by
    have hsame : update (s.table.numbered .object) n (Origin.other == .object) =
        s.table.numbered .object := by
      rw [show (Origin.other == .object) = s.table.numbered .object n from
        (Table.not_numbered hn).symm]
      exact Function.update_eq_self n _
    rw [Table.numbered_issue, hsame]
    exact h.owned
  stray := h.stray
  others := h.issue hn .other

theorem Sound.otherCloses (h : Sound M s) (hn : s.table.numbered .other n = true) :
    Sound M { s with
      table := s.table.close n
      others := s.others ++ (s.table.slots.filter (·.num == n)).map Slot.id } where
  owned := by
    obtain ⟨k, hs, hk⟩ := Table.numbered_iff.mp hn
    have hfalse : s.table.numbered .object n = false := by
      refine Bool.eq_false_iff.mpr fun hobj => ?_
      obtain ⟨k', hs', hk'⟩ := Table.numbered_iff.mp hobj
      cases Table.slot_eq_of_num hs hs' rfl
      cases hk.symm.trans hk'
    rw [Table.numbered_close, ← hfalse, Function.update_eq_self]
    exact h.owned
  stray := by
    obtain ⟨k, hs, _⟩ := Table.numbered_iff.mp hn
    exact (Table.close_of_perm (List.perm_cons_erase hs)).2.2.trans h.stray
  others := by
    intro k hk hother
    rcases List.mem_append.mp hk with hk | hk
    · exact List.mem_append_left _ (h.others k hk hother)
    · exact List.mem_append_right _ hk

theorem Sound.step {a : Act P} (h : Sound M s) (hs : objectStep M s a = some s') : Sound M s' := by
  cases a with
  | construct n p =>
    simp only [objectStep] at hs
    split at hs
    · cases hs
    · next hn =>
      cases hs
      exact h.construct hn p
  | moveConstruct src =>
    simp only [objectStep] at hs
    split at hs
    · next hsrc =>
      cases hs
      exact h.moveConstruct hsrc
    · cases hs
    · cases hs
  | moveAssign dst src =>
    simp only [objectStep] at hs
    split at hs
    · next this other hdst hsrc =>
      cases hs
      rcases Nat.decEq dst src with hne | rfl
      · rw [beq_eq_false_iff_ne.mpr hne]
        exact h.moveAssign hne hdst hsrc
      · -- the object is assigned to itself
        cases hdst.symm.trans hsrc
        have hself : (s.objects.set dst (some this)).set dst (some this) = s.objects := by
          obtain ⟨hlt, hget⟩ := List.getElem?_eq_some_iff.mp hdst
          rw [List.set_set, ← hget, List.set_getElem_self]
        simp only [beq_self_eq_true, M.moveAssign_self, Table.release, hself]
        exact h
    · cases hs
  | destroy i =>
    simp only [objectStep] at hs
    split at hs
    · next hi =>
      cases hs
      exact h.destroy hi
    · cases hs
    · cases hs
  | otherOpens n =>
    simp only [objectStep] at hs
    split at hs
    · cases hs
    · next hn =>
      cases hs
      exact h.otherOpens hn
  | otherCloses n =>
    simp only [objectStep] at hs
    split at hs
    · next hn =>
      cases hs
      exact h.otherCloses hn
    · cases hs

theorem sound_init : Sound M { table := .empty } where
  owned := exclusive_of_forall_none (fun _ hx => by cases hx) fun _ => rfl
  stray := rfl
  others := fun _ hk => by cases hk

theorem reach_sound (h : Reach (objectSystem M) (fun _ _ => True) s) : Sound M s :=
  h.invariant (fun _ h0 => Eq.subst (Eq.symm h0) sound_init) fun _ _ _ hs _ hstep => hs.step hstep

/-! ## What it says -/

/-- Object `i` is alive and its descriptor stands for resource `k`. -/
def Owns (M : Members O P) (s : Objects O) (i k : Nat) : Prop :=
  ∃ o n, s.objects[i]? = some (some o) ∧ M.handle o = some n ∧ ⟨n, k⟩ ∈ s.table.slots

/-- Every resource that has been opened for an object has one owner and is unreleased, or
has none and has been released once; nothing is closed that is not open, and nothing that
other code has opened. -/
structure SingleOwner (M : Members O P) (s : Objects O) : Prop where
  /-- The descriptor of a live object is open, and it has been opened for an object. -/
  valid : ∀ i o n, s.objects[i]? = some (some o) → M.handle o = some n →
    ∃ k, Owns M s i k ∧ s.table.issued[k]? = some .object
  unique : ∀ i j k, Owns M s i k → Owns M s j k → i = j
  once : ∀ k, s.table.issued[k]? = some .object →
    (∃ i, Owns M s i k) ∧ s.table.released.count k = 0 ∨
      (∀ i, ¬Owns M s i k) ∧ s.table.released.count k = 1
  stray : s.table.stray = []
  others : ∀ k, s.table.issued[k]? = some .other → k ∈ s.table.released → k ∈ s.others

theorem Sound.singleOwner (h : Sound M s) : SingleOwner M s where
  valid := by
    intro i o n hi ho
    have hnum := h.owned.marked_of_holds (ho ▸ held_of (M := M) hi)
    obtain ⟨k, hs, hk⟩ := Table.numbered_iff.mp hnum
    exact ⟨k, ⟨o, n, hi, ho, hs⟩, hk⟩
  unique := by
    rintro i j k ⟨o, n, hi, ho, hs⟩ ⟨o', n', hj, ho', hs'⟩
    cases Table.slot_eq_of_id hs hs' rfl
    exact h.owned.unique (ho ▸ held_of hi) (ho' ▸ held_of hj)
  once := by
    intro k hk
    rcases s.table.open_or_released (List.getElem?_eq_some_iff.mp hk).1 with ⟨⟨n, hs⟩, hcount⟩ |
      ⟨hclosed, hcount⟩
    · obtain ⟨i, hi⟩ := h.owned.exists_holds (Table.numbered_iff.mpr ⟨k, hs, hk⟩)
      rw [Objects.held, List.getElem?_map] at hi
      obtain ⟨x, hx, hbind⟩ := Option.map_eq_some_iff.mp hi
      obtain ⟨o, rfl, ho⟩ := Option.bind_eq_some_iff.mp hbind
      exact .inl ⟨⟨i, o, n, hx, ho, hs⟩, hcount⟩
    · refine .inr ⟨?_, hcount⟩
      rintro i ⟨_, n, _, _, hs⟩
      exact hclosed n hs
  stray := h.stray
  others := fun k hother hk => h.others k hk hother

theorem reach_singleOwner (h : Reach (objectSystem M) (fun _ _ => True) s) : SingleOwner M s :=
  (reach_sound h).singleOwner

end Descriptors
