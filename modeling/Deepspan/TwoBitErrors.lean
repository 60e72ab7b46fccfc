import Mathlib.Tactic.NormNum.Prime
import Deepspan.Checksum
import Deepspan.Lib.CrcPeriod

/-!
# Two-bit errors

`burst_detected` says that the checksum of the CRC-32 engine tells apart messages that differ
inside a short window. Two single bits may be further apart. The polynomial of `compute_crc32`
is primitive: a one comes back to where it was after `2 ^ 32 - 1` clocks and no earlier
(`shifts_poly_iff`). So two wrong bits go unnoticed exactly when they are a multiple of
`2 ^ 32 - 1` bits apart (`two_bit_errors_iff`), which only messages of half a gigabyte and more
have room for.
-/

namespace Deepspan

theorem prime_factors_two_pow {p : Nat} (hp : p.Prime) (h : p ∣ 2 ^ 32 - 1) :
    p = 3 ∨ p = 5 ∨ p = 17 ∨ p = 257 ∨ p = 65537 := by
  have hfactors : 2 ^ 32 - 1 = 3 * 5 * 17 * 257 * 65537 := by decide
  rw [hfactors, hp.dvd_mul, hp.dvd_mul, hp.dvd_mul, hp.dvd_mul] at h
  rw [Nat.prime_dvd_prime_iff_eq hp (by norm_num), Nat.prime_dvd_prime_iff_eq hp (by norm_num),
    Nat.prime_dvd_prime_iff_eq hp (by norm_num), Nat.prime_dvd_prime_iff_eq hp (by norm_num),
    Nat.prime_dvd_prime_iff_eq hp (by norm_num)] at h
  simpa only [or_assoc] using h

/-- A one in the register of `compute_crc32` comes back every `2 ^ 32 - 1` clocks. -/
theorem shifts_poly_iff (n : Nat) :
    Crc.shifts 0xEDB88320#32 n 1#32 = 1#32 ↔ 2 ^ 32 - 1 ∣ n := by
  refine Crc.shifts_eq_iff (k := 32) (by decide) (by decide) (by decide +kernel) ?_ n
  intro p hp hdvd
  rcases prime_factors_two_pow hp hdvd with rfl | rfl | rfl | rfl | rfl <;> decide +kernel

/-- The first place where two lists of bits of one length differ. -/
theorem split_first {x y : List Bool} (hlen : x.length = y.length) {i : Nat}
    (hi : x[i]? ≠ y[i]?) (hbefore : ∀ k, k < i → x[k]? = y[k]?) :
    ∃ before u rest rest', x = before ++ u :: rest ∧ y = before ++ (!u) :: rest' ∧
      before.length = i ∧ rest.length = rest'.length := by
  induction i generalizing x y with
  | zero =>
    cases x with
    | nil =>
      cases y with
      | nil => exact absurd rfl hi
      | cons b y => cases hlen
    | cons a x =>
      cases y with
      | nil => cases hlen
      | cons b y =>
        have hab : b = !a := by
          cases a <;> cases b <;> simp at hi ⊢
        exact ⟨[], a, x, y, rfl, by rw [hab]; rfl, rfl, Nat.succ.inj hlen⟩
  | succ i ih =>
    cases x with
    | nil =>
      cases y with
      | nil => exact absurd rfl hi
      | cons b y => cases hlen
    | cons a x =>
      cases y with
      | nil => cases hlen
      | cons b y =>
        have hab : a = b := Option.some.inj (hbefore 0 (Nat.succ_pos i))
        obtain ⟨before, u, rest, rest', hx, hy, hb, hr⟩ := ih (Nat.succ.inj hlen) hi
          fun k hk => hbefore (k + 1) (Nat.succ_lt_succ hk)
        refine ⟨a :: before, u, rest, rest', ?_, ?_, ?_, hr⟩
        · rw [hx, List.cons_append]
        · rw [hy, List.cons_append, hab]
        · rw [List.length_cons, hb]

/-- Two lists of bits that differ in two places only. -/
theorem split_two {x y : List Bool} (hlen : x.length = y.length) {i j : Nat} (hij : i < j)
    (h : ∀ k, x[k]? ≠ y[k]? ↔ k = i ∨ k = j) :
    ∃ before u mid v after, x = before ++ u :: (mid ++ v :: after) ∧
      y = before ++ (!u) :: (mid ++ (!v) :: after) ∧ mid.length + 1 = j - i := by
  have hsame {k : Nat} (hki : k ≠ i) (hkj : k ≠ j) : x[k]? = y[k]? := by
    by_contra hne
    rcases (h k).mp hne with hk | hk
    · exact hki hk
    · exact hkj hk
  obtain ⟨before, u, rest, rest', hx, hy, hb, hrest⟩ := split_first hlen ((h i).mpr (.inl rfl))
    fun k hk => hsame (Nat.ne_of_lt hk) (Nat.ne_of_lt (Nat.lt_trans hk hij))
  have hrx (k : Nat) : x[i + 1 + k]? = rest[k]? := by
    rw [hx, List.getElem?_append_right (by omega), hb,
      show i + 1 + k - i = k + 1 by omega, List.getElem?_cons_succ]
  have hry (k : Nat) : y[i + 1 + k]? = rest'[k]? := by
    rw [hy, List.getElem?_append_right (by omega), hb,
      show i + 1 + k - i = k + 1 by omega, List.getElem?_cons_succ]
  obtain ⟨mid, v, after, after', hm, hm', hmid, hafter⟩ := split_first (i := j - i - 1) hrest
    (by
      rw [← hrx, ← hry]
      exact (h _).mpr (.inr (by omega)))
    fun k hk => by
      rw [← hrx, ← hry]
      exact hsame (by omega) (by omega)
  have htail : after = after' := by
    refine List.ext_getElem? fun k => ?_
    have hax : rest[mid.length + 1 + k]? = after[k]? := by
      rw [hm, List.getElem?_append_right (by omega),
        show mid.length + 1 + k - mid.length = k + 1 by omega, List.getElem?_cons_succ]
    have hay : rest'[mid.length + 1 + k]? = after'[k]? := by
      rw [hm', List.getElem?_append_right (by omega),
        show mid.length + 1 + k - mid.length = k + 1 by omega, List.getElem?_cons_succ]
    rw [← hax, ← hay, ← hrx, ← hry]
    exact hsame (by omega) (by omega)
  refine ⟨before, u, mid, v, after, ?_, ?_, by omega⟩
  · rw [hx, hm]
  · rw [hy, hm', htail]

/-- Two messages of one length that differ in the bits `i` and `j` only have the same checksum
exactly when `2 ^ 32 - 1` divides the distance of the two. -/
theorem two_bit_errors_iff {len : UInt32} {a b : Vector UInt8 len.toNat} {i j : Nat} (hij : i < j)
    (hdiff : ∀ k, (messageBits a.toList)[k]? ≠ (messageBits b.toList)[k]? ↔ k = i ∨ k = j) :
    computeCrc32 (fun i => a[i]?) len = computeCrc32 (fun i => b[i]?) len ↔
      2 ^ 32 - 1 ∣ j - i := by
  have hbits : (messageBits a.toList).length = (messageBits b.toList).length := by
    rw [messageBits_length, messageBits_length, Vector.length_toList, Vector.length_toList]
  obtain ⟨before, u, mid, v, after, ha, hb, hmid⟩ := split_two hbits hij hdiff
  have htwo := @Crc.feed_two_iff 32 0xEDB88320#32 (by decide) (BitVec.allOnes 32) before mid after
    u v
  rw [← ha, ← hb, hmid, shifts_poly_iff] at htwo
  rw [computeCrc32_vector, computeCrc32_vector, Option.some.injEq, ← htwo]
  constructor
  · exact fun h => BitVec.not_inj.mp (congrArg UInt32.toBitVec h)
  · exact fun h => congrArg UInt32.ofBitVec (BitVec.not_inj.mpr h)

/-- The first and the last bit of two bytes, flipped. -/
theorem two_bit_errors_iff_bytes :
    computeCrc32 (fun i => #v[0x5A, 0x00][i]?) 2 ≠
      computeCrc32 (fun i => #v[0x5B, 0x80][i]?) 2 := by
  refine (@two_bit_errors_iff 2 #v[0x5A, 0x00] #v[0x5B, 0x80] 0 15 (by decide) ?_).not.mpr
    (by decide)
  intro k
  rcases Nat.lt_or_ge k 16 with hk | hk
  · exact (by decide : ∀ k, k < 16 →
      ((messageBits [0x5A, 0x00])[k]? ≠ (messageBits [0x5B, 0x80])[k]? ↔ k = 0 ∨ k = 15)) k hk
  · have hnone (bytes : Vector UInt8 2) : (messageBits bytes.toList)[k]? = none := by
      rw [List.getElem?_eq_none_iff, messageBits_length, Vector.length_toList]
      exact hk
    constructor
    · intro h
      exact absurd ((hnone _).trans (hnone _).symm) h
    · omega

end Deepspan
