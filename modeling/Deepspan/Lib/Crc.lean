/-!
# Reflected CRCs

A reflected CRC of width `w` is a shift register: each message bit, least
significant bit of each byte first, is added to the low end and the register is
shifted down, with the polynomial added whenever a one drops out (`clock`). The
register starts with all ones and is read complemented (`checksum`).

Implementations go byte by byte through a table. The register is linear
(`shift_xor`), which gives the two facts such an implementation rests on:

* `feed_byte`: the eight bits of a byte can be added to the register first and
  shifted through afterwards;
* `shifts_split`: shifting `n` times is the shifts of the low `n` bits, a table
  lookup, plus the rest moved down.

When the polynomial has its highest coefficient, no clock loses information
(`shift_inj`), so that two messages which differ inside one window of at most `w`
bits leave different registers (`feed_burst_ne`).
-/

namespace Crc

variable {w : Nat}

/-- One clock of the shift register with message bit `b`. -/
def clock (poly c : BitVec w) (b : Bool) : BitVec w :=
  if (c.getLsbD 0 ^^ b) then c >>> 1 ^^^ poly else c >>> 1

/-- The register after a list of message bits. -/
def feed (poly c : BitVec w) (bits : List Bool) : BitVec w := bits.foldl (clock poly) c

/-- The lowest `n` bits, least significant first. -/
def lowBits {v : Nat} (n : Nat) (x : BitVec v) : List Bool := (List.range n).map x.getLsbD

/-- The CRC of a message of bytes. -/
def checksum (poly : BitVec w) (msg : List (BitVec 8)) : BitVec w :=
  ~~~feed poly (BitVec.allOnes w) (msg.flatMap (lowBits 8))

/-- A clock without a message bit. -/
def shift (poly c : BitVec w) : BitVec w := clock poly c false

def shifts (poly : BitVec w) : Nat → BitVec w → BitVec w
  | 0, c => c
  | n + 1, c => shift poly (shifts poly n c)

/-! ## Linearity -/

theorem shift_xor (poly a b : BitVec w) : shift poly (a ^^^ b) = shift poly a ^^^ shift poly b := by
  have hcancel : ∀ x y p : BitVec w, x ^^^ p ^^^ (y ^^^ p) = x ^^^ y := by
    intro x y p
    calc x ^^^ p ^^^ (y ^^^ p) = x ^^^ y ^^^ (p ^^^ p) := by ac_rfl
      _ = x ^^^ y := by rw [BitVec.xor_self, BitVec.xor_zero]
  simp only [shift, clock, Bool.xor_false, BitVec.getLsbD_xor, BitVec.ushiftRight_xor_distrib]
  cases a.getLsbD 0 <;> cases b.getLsbD 0
  · rfl
  · exact BitVec.xor_assoc ..
  · show a >>> 1 ^^^ b >>> 1 ^^^ poly = a >>> 1 ^^^ poly ^^^ b >>> 1
    ac_rfl
  · exact (hcancel ..).symm

theorem shifts_xor (poly : BitVec w) (n : Nat) (a b : BitVec w) :
    shifts poly n (a ^^^ b) = shifts poly n a ^^^ shifts poly n b := by
  induction n with
  | zero => rfl
  | succ n ih => rw [shifts, ih, shift_xor, shifts, shifts]

theorem shift_of_even {poly c : BitVec w} (h : c.getLsbD 0 = false) : shift poly c = c >>> 1 := by
  rw [shift, clock, h]
  rfl

/-- While only zeros drop out, the register just moves down. -/
theorem shifts_of_low_zero {poly c : BitVec w} {n : Nat} (h : ∀ i, i < n → c.getLsbD i = false) :
    shifts poly n c = c >>> n := by
  induction n with
  | zero => rfl
  | succ n ih =>
    have hn : (c >>> n).getLsbD 0 = false := by
      rw [BitVec.getLsbD_ushiftRight]
      exact h n (Nat.lt_succ_self n)
    rw [shifts, ih fun i hi => h i (Nat.lt_succ_of_lt hi), shift_of_even hn,
      BitVec.shiftRight_add]

/-- `n` shifts are the shifts of the low `n` bits and the rest moved down. -/
theorem shifts_split {poly mask : BitVec w} {n : Nat}
    (hmask : ∀ i, mask.getLsbD i = decide (i < n ∧ i < w)) (c : BitVec w) :
    shifts poly n c = shifts poly n (c &&& mask) ^^^ c >>> n := by
  have hsplit : c = (c &&& mask) ^^^ (c &&& ~~~mask) := by
    apply BitVec.eq_of_getLsbD_eq
    intro i hi
    rw [BitVec.getLsbD_xor, BitVec.getLsbD_and, BitVec.getLsbD_and, BitVec.getLsbD_not]
    cases c.getLsbD i <;> cases mask.getLsbD i <;> simp [hi]
  have hlow : ∀ i, i < n → (c &&& ~~~mask).getLsbD i = false := by
    intro i hi
    rw [BitVec.getLsbD_and, BitVec.getLsbD_not, hmask i]
    by_cases hw : i < w <;> simp [hi, hw]
  have hhigh : (c &&& ~~~mask) >>> n = c >>> n := by
    apply BitVec.eq_of_getLsbD_eq
    intro i hi
    rw [BitVec.getLsbD_ushiftRight, BitVec.getLsbD_ushiftRight, BitVec.getLsbD_and,
      BitVec.getLsbD_not, hmask (n + i)]
    by_cases hw : n + i < w
    · simp [hw]
    · simp [BitVec.getLsbD_of_ge c (n + i) (by omega)]
  calc shifts poly n c = shifts poly n ((c &&& mask) ^^^ (c &&& ~~~mask)) := by rw [← hsplit]
    _ = shifts poly n (c &&& mask) ^^^ (c &&& ~~~mask) >>> n := by
      rw [shifts_xor, shifts_of_low_zero hlow]
    _ = shifts poly n (c &&& mask) ^^^ c >>> n := by rw [hhigh]

/-! ## Bytes -/

theorem feed_append (poly c : BitVec w) (l l' : List Bool) :
    feed poly c (l ++ l') = feed poly (feed poly c l) l' := List.foldl_append

theorem lowBits_succ {v : Nat} (n : Nat) (x : BitVec v) :
    lowBits (n + 1) x = lowBits n x ++ [x.getLsbD n] := by
  rw [lowBits, List.range_succ, List.map_append]
  rfl

/-- A message bit is added to the low end of the register. -/
theorem clock_eq_shift (poly c : BitVec w) (b : Bool) (hw : 0 < w) :
    clock poly c b = shift poly (c ^^^ (BitVec.ofBool b).setWidth w) := by
  have hlow : ((BitVec.ofBool b).setWidth w).getLsbD 0 = b := by
    simp [hw]
  have hdown : ((BitVec.ofBool b).setWidth w) >>> 1 = 0 := by
    apply BitVec.eq_of_getLsbD_eq
    intro i hi
    simp [BitVec.getLsbD_ushiftRight, BitVec.getLsbD_setWidth]
  rw [shift, clock, clock, BitVec.getLsbD_xor, hlow, Bool.xor_false,
    BitVec.ushiftRight_xor_distrib, hdown]
  simp

/-- After `n` bits of `d` the register holds what `n` shifts make of `c` with `d`
added to it, except for the bits of `d` that have not been fed yet. -/
theorem feed_lowBits (poly c d : BitVec w) (hw : 0 < w) (n : Nat) :
    feed poly c (lowBits n d) = shifts poly n (c ^^^ d) ^^^ d >>> n := by
  induction n with
  | zero =>
    show c = c ^^^ d ^^^ d
    rw [BitVec.xor_assoc, BitVec.xor_self, BitVec.xor_zero]
  | succ n ih =>
    have heven : (d >>> n ^^^ (BitVec.ofBool (d.getLsbD n)).setWidth w).getLsbD 0 = false := by
      simp [hw]
    have hdown : (d >>> n ^^^ (BitVec.ofBool (d.getLsbD n)).setWidth w) >>> 1 = d >>> (n + 1) := by
      apply BitVec.eq_of_getLsbD_eq
      intro i hi
      simp [BitVec.getLsbD_ushiftRight, BitVec.getLsbD_setWidth, Nat.add_assoc]
    calc feed poly c (lowBits (n + 1) d)
        = clock poly (shifts poly n (c ^^^ d) ^^^ d >>> n) (d.getLsbD n) := by
          rw [lowBits_succ, feed_append, ih]
          rfl
      _ = shift poly (shifts poly n (c ^^^ d) ^^^
            (d >>> n ^^^ (BitVec.ofBool (d.getLsbD n)).setWidth w)) := by
          rw [clock_eq_shift _ _ _ hw, BitVec.xor_assoc]
      _ = shifts poly (n + 1) (c ^^^ d) ^^^ d >>> (n + 1) := by
          rw [shift_xor, shift_of_even heven, hdown]
          rfl

/-- A byte can be added to the register at once and shifted through afterwards. -/
theorem feed_byte (poly c : BitVec w) (hw : 8 ≤ w) (byte : BitVec 8) :
    feed poly c (lowBits 8 byte) = shifts poly 8 (c ^^^ byte.setWidth w) := by
  have hbits : lowBits 8 byte = lowBits 8 (byte.setWidth w) := by
    apply List.map_congr_left
    intro i hi
    have hi8 : i < w := Nat.lt_of_lt_of_le (List.mem_range.mp hi) hw
    rw [BitVec.getLsbD_setWidth]
    simp [hi8]
  have hout : (byte.setWidth w) >>> 8 = 0 := by
    apply BitVec.eq_of_getLsbD_eq
    intro i hi
    rw [BitVec.getLsbD_ushiftRight, BitVec.getLsbD_setWidth,
      BitVec.getLsbD_of_ge byte (8 + i) (by omega)]
    simp
  rw [hbits, feed_lowBits _ _ _ (by omega), hout, BitVec.ofNat_eq_ofNat, BitVec.xor_zero]

/-! ## Bursts -/

/-- The register with the given low bits. -/
def ofBits (bits : List Bool) : BitVec w := (BitVec.ofBoolListLE bits).setWidth w

theorem lowBits_ofBits {bits : List Bool} (h : bits.length ≤ w) :
    lowBits bits.length (ofBits bits : BitVec w) = bits := by
  refine List.ext_getElem (by simp [lowBits]) fun i _ hi => ?_
  have hbit : (ofBits bits : BitVec w).getLsbD i = bits.getD i false := by
    rw [ofBits, BitVec.getLsbD_setWidth, BitVec.getLsbD_ofBoolListLE]
    simp [Nat.lt_of_lt_of_le hi h]
  simp [lowBits, hbit, hi]

theorem ofBits_ushiftRight (bits : List Bool) : (ofBits bits : BitVec w) >>> bits.length = 0 := by
  apply BitVec.eq_of_getLsbD_eq
  intro i hi
  simp [ofBits, BitVec.getLsbD_ushiftRight, BitVec.getLsbD_setWidth]

/-- Up to `w` bits can be added to the register at once and shifted through afterwards. -/
theorem feed_eq_shifts {poly c : BitVec w} (hw : 0 < w) {bits : List Bool} (h : bits.length ≤ w) :
    feed poly c bits = shifts poly bits.length (c ^^^ ofBits bits) := by
  have hlow := feed_lowBits poly c (ofBits bits) hw bits.length
  rw [lowBits_ofBits h, ofBits_ushiftRight] at hlow
  rw [hlow]
  exact BitVec.xor_zero

section Burst

variable {poly : BitVec w} (htop : poly.getLsbD (w - 1) = true)
include htop

theorem pos_of_top : 0 < w := by
  rcases Nat.eq_zero_or_pos w with rfl | hw
  · simp at htop
  · exact hw

/-- Only the register of zeros shifts to zeros: a one that drops out comes back at the
top. -/
theorem eq_zero_of_shift {c : BitVec w} (h : shift poly c = 0) : c = 0 := by
  have hw := pos_of_top htop
  have hlow : c.getLsbD 0 = false := by
    cases hbit : c.getLsbD 0 with
    | false => rfl
    | true =>
      have hhigh := congrArg (fun x => x.getLsbD (w - 1)) h
      simp only [shift, clock, hbit, Bool.xor_false, if_true, BitVec.getLsbD_xor, htop,
        BitVec.getLsbD_ushiftRight] at hhigh
      rw [BitVec.getLsbD_of_ge c (1 + (w - 1)) (by omega)] at hhigh
      simp at hhigh
  rw [shift_of_even hlow] at h
  apply BitVec.eq_of_getLsbD_eq
  intro i hi
  cases i with
  | zero => simpa using hlow
  | succ i =>
    have hbit := congrArg (fun x => x.getLsbD i) h
    rw [BitVec.getLsbD_ushiftRight, Nat.add_comm] at hbit
    simpa using hbit

theorem shift_inj {a b : BitVec w} (h : shift poly a = shift poly b) : a = b := by
  refine BitVec.xor_eq_zero_iff.mp (eq_zero_of_shift htop ?_)
  rw [shift_xor, h, BitVec.xor_self]
  rfl

theorem shifts_inj {n : Nat} {a b : BitVec w} (h : shifts poly n a = shifts poly n b) : a = b := by
  induction n with
  | zero => exact h
  | succ n ih => exact ih (shift_inj htop h)

/-- Equal bits lead different registers to different registers. -/
theorem feed_inj {bits : List Bool} {a b : BitVec w} (h : feed poly a bits = feed poly b bits) :
    a = b := by
  induction bits generalizing a b with
  | nil => exact h
  | cons bit bits ih =>
    have hclock : clock poly a bit = clock poly b bit := ih h
    rw [clock_eq_shift _ _ _ (pos_of_top htop), clock_eq_shift _ _ _ (pos_of_top htop)] at hclock
    exact (BitVec.xor_left_inj _).mp (shift_inj htop hclock)

/-- At most `w` bits can be read back from what they make of a register. -/
theorem feed_bits_inj {c : BitVec w} {x y : List Bool} (hlen : x.length = y.length)
    (hle : x.length ≤ w) (h : feed poly c x = feed poly c y) : x = y := by
  have hw := pos_of_top htop
  rw [feed_eq_shifts hw hle, feed_eq_shifts hw (hlen ▸ hle), hlen] at h
  have hwords : (ofBits x : BitVec w) = ofBits y := (BitVec.xor_right_inj c).mp (shifts_inj htop h)
  rw [← lowBits_ofBits hle, ← lowBits_ofBits (hlen ▸ hle : y.length ≤ w), hwords, hlen]

/-- A burst of at most `w` bits changes the register, wherever it stands. -/
theorem feed_burst_ne {before x y after : List Bool} (hlen : x.length = y.length)
    (hle : x.length ≤ w) (hne : x ≠ y) (c : BitVec w) :
    feed poly c (before ++ (x ++ after)) ≠ feed poly c (before ++ (y ++ after)) := by
  intro h
  rw [feed_append, feed_append, feed_append, feed_append] at h
  exact hne (feed_bits_inj htop hlen hle (feed_inj htop h))

end Burst

end Crc
