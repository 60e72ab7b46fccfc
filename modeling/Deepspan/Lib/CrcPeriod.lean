import Mathlib.Data.Nat.Prime.Basic
import Mathlib.Dynamics.PeriodicPts.Defs
import Deepspan.Lib.Crc

/-!
# The period of the shift register, and two-bit errors

Without message bits the register of a reflected CRC runs through a cycle. Two messages that
differ in two bits leave the same register exactly when a single one comes back to where it
was between the two (`feed_two_iff`), so what decides about two-bit errors is the period.

The registers are the polynomials modulo the one of the CRC, with the coefficient of `x ^ 0`
at the top, and a clock is the multiplication by `x`. `mulFrom` multiplies two of them and
`power` computes powers of `x` by squaring, so that `shifts_eq_iff` reads the period off a few
evaluations: one for the period itself, and one for each of its prime factors.
-/

namespace Crc

variable {w : Nat} {poly : BitVec w}

/-! ## Differences -/

theorem shifts_shift (poly : BitVec w) (n : Nat) (c : BitVec w) :
    shifts poly n (shift poly c) = shifts poly (n + 1) c := by
  induction n with
  | zero => rfl
  | succ n ih => rw [shifts, ih, ← shifts]

theorem shifts_add (poly : BitVec w) (m n : Nat) (c : BitVec w) :
    shifts poly m (shifts poly n c) = shifts poly (m + n) c := by
  induction m with
  | zero => rw [Nat.zero_add]; rfl
  | succ m ih => rw [shifts, ih, Nat.succ_add, ← shifts]

theorem shifts_eq_iterate (poly : BitVec w) (n : Nat) (c : BitVec w) :
    shifts poly n c = (shift poly)^[n] c := by
  induction n with
  | zero => rfl
  | succ n ih => rw [shifts, ih, Function.iterate_succ_apply']

/-- What the register differs by goes through the same shifts, whatever is fed. -/
theorem feed_xor (hw : 0 < w) (c d : BitVec w) (bits : List Bool) :
    feed poly (c ^^^ d) bits = feed poly c bits ^^^ shifts poly bits.length d := by
  induction bits generalizing c d with
  | nil => rfl
  | cons b bits ih =>
    have hclock : clock poly (c ^^^ d) b = clock poly c b ^^^ shift poly d := by
      rw [clock_eq_shift _ _ _ hw, clock_eq_shift _ _ _ hw, ← shift_xor]
      congr 1
      ac_rfl
    show feed poly (clock poly (c ^^^ d) b) bits = feed poly (clock poly c b) bits ^^^ _
    rw [hclock, ih, shifts_shift]
    rfl

/-- A flipped bit adds a one at the low end. -/
theorem clock_not (hw : 0 < w) (c : BitVec w) (b : Bool) :
    clock poly c (!b) = clock poly (c ^^^ 1#w) b := by
  have htrue : (BitVec.ofBool true).setWidth w = 1#w := by
    rw [BitVec.ofBool_true]
    exact BitVec.setWidth_ofNat_one_eq_ofNat_one_of_lt Nat.one_pos
  have hfalse : (BitVec.ofBool false).setWidth w = 0#w := BitVec.setWidth_zero ..
  rw [clock_eq_shift _ _ _ hw, clock_eq_shift _ _ _ hw]
  cases b with
  | false => rw [Bool.not_false, htrue, hfalse, BitVec.xor_zero]
  | true =>
    rw [Bool.not_true, htrue, hfalse, BitVec.xor_zero, BitVec.xor_assoc, BitVec.xor_self,
      BitVec.xor_zero]

section Two

variable (htop : poly.getLsbD (w - 1) = true)
include htop

/-- Two flipped bits cancel exactly when the one that the first has left comes back to the low
end as the second is fed. -/
theorem feed_two_iff (c : BitVec w) (before mid after : List Bool) (u v : Bool) :
    feed poly c (before ++ u :: (mid ++ v :: after)) =
      feed poly c (before ++ (!u) :: (mid ++ (!v) :: after)) ↔
    shifts poly (mid.length + 1) 1#w = 1#w := by
  have hw := pos_of_top htop
  generalize hstart : clock poly (feed poly c before) u = start
  have hflip : clock poly (feed poly c before) (!u) = start ^^^ shift poly 1#w := by
    rw [clock_not hw, clock_eq_shift _ _ _ hw, ← hstart, clock_eq_shift _ _ _ hw, ← shift_xor]
    congr 1
    ac_rfl
  generalize hmid : feed poly start mid = reg
  have hleft : feed poly c (before ++ u :: (mid ++ v :: after)) =
      feed poly (clock poly reg v) after := by
    rw [feed_append, ← hmid, ← hstart]
    exact feed_append poly _ mid (v :: after)
  have hright : feed poly c (before ++ (!u) :: (mid ++ (!v) :: after)) =
      feed poly (clock poly (reg ^^^ shifts poly (mid.length + 1) 1#w ^^^ 1#w) v) after := by
    rw [feed_append, ← clock_not hw, ← shifts_shift, ← hmid, ← feed_xor hw, ← hflip]
    exact feed_append poly _ mid ((!v) :: after)
  rw [hleft, hright]
  constructor
  · intro h
    have hreg := @feed_inj _ _ htop (v :: after) _ _ h
    rw [BitVec.xor_assoc] at hreg
    have hzero := (BitVec.xor_right_inj reg).mp ((BitVec.xor_zero).trans hreg)
    exact BitVec.xor_eq_zero_iff.mp hzero.symm
  · intro h
    rw [h, BitVec.xor_assoc, BitVec.xor_self, BitVec.xor_zero]

end Two

/-! ## Polynomials -/

/-- The polynomial 1. -/
def one (w : Nat) : BitVec w := BitVec.twoPow w (w - 1)

/-- `b` times the polynomial of the lowest `k` bits of `a`, the highest of which is the
constant coefficient. -/
def mulFrom (poly : BitVec w) : Nat → BitVec w → BitVec w → BitVec w
  | 0, _, _ => 0
  | k + 1, a, b => (if a.getLsbD k then b else 0) ^^^ mulFrom poly k a (shift poly b)

/-- `x ^ n` for an `n` of `k` binary digits. -/
def power (poly : BitVec w) : Nat → Nat → BitVec w
  | 0, _ => one w
  | k + 1, n =>
    let root := power poly k (n / 2)
    let square := mulFrom poly w root root
    if n % 2 = 1 then shift poly square else square

theorem mulFrom_shifts (k m : Nat) (a b : BitVec w) :
    mulFrom poly k a (shifts poly m b) = shifts poly m (mulFrom poly k a b) := by
  have hzero : shifts poly m 0 = 0 := by
    have hself := shifts_xor poly m 0 0
    rw [BitVec.xor_self, BitVec.xor_self] at hself
    exact hself
  induction k generalizing b with
  | zero => exact hzero.symm
  | succ k ih =>
    rw [mulFrom, mulFrom, shifts_xor, ← ih, shifts_shift, ← shifts]
    split
    · rfl
    · rw [hzero]

/-- `a` times 1, for the lowest `k` bits of `a`. -/
theorem mulFrom_twoPow {k : Nat} (hk : k < w) (a : BitVec w) (i : Nat) :
    (mulFrom poly (k + 1) a (BitVec.twoPow w k)).getLsbD i =
      (decide (i < k + 1) && a.getLsbD i) := by
  have htwo (j : Nat) (hj : j < w) :
      ((if a.getLsbD j then BitVec.twoPow w j else 0) : BitVec w).getLsbD i =
        (decide (i = j) && a.getLsbD i) := by
    by_cases hij : i = j
    · subst hij
      cases a.getLsbD i <;> simp [hj]
    · cases hbit : a.getLsbD j <;> simp [BitVec.getLsbD_twoPow, hij, Ne.symm hij]
  induction k with
  | zero =>
    rw [mulFrom, mulFrom, BitVec.getLsbD_xor, htwo 0 hk]
    simp
  | succ k ih =>
    have hdown : shift poly (BitVec.twoPow w (k + 1)) = BitVec.twoPow w k := by
      rw [shift_of_even (by simp)]
      apply BitVec.eq_of_getLsbD_eq
      intro j hj
      rw [BitVec.getLsbD_ushiftRight, BitVec.getLsbD_twoPow, BitVec.getLsbD_twoPow]
      simp only [hk, Nat.lt_of_succ_lt hk, decide_true, Bool.true_and, Nat.add_comm 1 j,
        Nat.add_right_cancel_iff]
    rw [mulFrom, hdown, BitVec.getLsbD_xor, htwo (k + 1) hk, ih (Nat.lt_of_succ_lt hk)]
    rcases Nat.lt_trichotomy i (k + 1) with hi | rfl | hi
    · simp [hi, Nat.ne_of_lt hi, Nat.lt_succ_of_lt hi]
    · simp
    · simp [Nat.ne_of_gt hi, Nat.not_lt_of_gt hi, Nat.not_lt.mpr (Nat.succ_le_of_lt hi)]

/-- A power of `x` moves the other factor through as many clocks. -/
theorem mulFrom_shifts_one (hw : 0 < w) (m : Nat) (a : BitVec w) :
    mulFrom poly w a (shifts poly m (one w)) = shifts poly m a := by
  obtain ⟨k, rfl⟩ : ∃ k, w = k + 1 := ⟨w - 1, (Nat.sub_add_cancel hw).symm⟩
  rw [mulFrom_shifts]
  congr 1
  apply BitVec.eq_of_getLsbD_eq
  intro i hi
  have hbit := @mulFrom_twoPow _ poly k (Nat.lt_succ_self k) a i
  rw [decide_eq_true hi, Bool.true_and] at hbit
  exact hbit

theorem power_eq (hw : 0 < w) {k n : Nat} (hn : n < 2 ^ k) :
    power poly k n = shifts poly n (one w) := by
  induction k generalizing n with
  | zero =>
    rw [Nat.pow_zero, Nat.lt_one_iff] at hn
    rw [hn]
    rfl
  | succ k ih =>
    have hhalf := ih (n := n / 2) (by omega)
    simp only [power, hhalf, mulFrom_shifts_one hw, shifts_add]
    split
    · rw [← shifts]
      congr 1
      omega
    · congr 1
      omega

/-! ## The period -/

section Period

variable (htop : poly.getLsbD (w - 1) = true)
include htop

/-- A one at the low end and a one at the top come back together. -/
theorem shifts_one_iff (n : Nat) : shifts poly n 1#w = 1#w ↔ shifts poly n (one w) = one w := by
  have hw := pos_of_top htop
  have hlow : shifts poly (w - 1) (one w) = 1#w := by
    rw [one, shifts_of_low_zero]
    · apply BitVec.eq_of_getLsbD_eq
      intro i hi
      rw [BitVec.getLsbD_ushiftRight, BitVec.getLsbD_twoPow, BitVec.getLsbD_one]
      simp [hw, Nat.sub_lt hw]
    · intro i hi
      simp [BitVec.getLsbD_twoPow, Nat.ne_of_gt hi]
  rw [← hlow, shifts_add, Nat.add_comm, ← shifts_add]
  exact ⟨fun h => shifts_inj htop h, fun h => by rw [h]⟩

/-- The multiples of `N` are the numbers of clocks that bring a one back, when `N` is and no
`N / p` is, for the prime factors `p` of `N`. -/
theorem shifts_eq_iff {k N : Nat} (hk : N < 2 ^ k) (hback : power poly k N = one w)
    (haway : ∀ p, p.Prime → p ∣ N → power poly k (N / p) ≠ one w) (n : Nat) :
    shifts poly n 1#w = 1#w ↔ N ∣ n := by
  have hw := pos_of_top htop
  have hpower {m : Nat} (hm : m ≤ N) :
      power poly k m = one w ↔ Function.minimalPeriod (shift poly) (one w) ∣ m := by
    rw [power_eq hw (Nat.lt_of_le_of_lt hm hk), shifts_eq_iterate]
    exact Function.isPeriodicPt_iff_minimalPeriod_dvd
  have hperiod : Function.minimalPeriod (shift poly) (one w) = N := by
    obtain ⟨q, hq⟩ := (hpower (Nat.le_refl N)).mp hback
    rcases Nat.decEq q 1 with hq1 | rfl
    · -- a prime factor of the quotient could be divided out
      have hdvd : q.minFac ∣ q := Nat.minFac_dvd q
      have hN' : N / q.minFac = Function.minimalPeriod (shift poly) (one w) * (q / q.minFac) := by
        rw [hq, Nat.mul_div_assoc _ hdvd]
      refine absurd ?_ (haway q.minFac (Nat.minFac_prime hq1) (hq ▸ hdvd.mul_left _))
      exact (hpower (Nat.div_le_self _ _)).mpr ⟨_, hN'⟩
    · rw [hq, Nat.mul_one]
  rw [shifts_one_iff htop, shifts_eq_iterate, ← hperiod]
  exact Function.isPeriodicPt_iff_minimalPeriod_dvd

end Period

end Crc
