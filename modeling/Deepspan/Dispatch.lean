import Deepspan.Lib.Crc
import Deepspan.HwModel

/-!
# The opcode dispatchers of the HWIPs

`deepspan_crc32_dispatch` (`crc32_hw_model.cpp`) and `deepspan_accel_dispatch`
(`accel_hw_model.cpp`), and the command handlers that the end-to-end tests wrap
around them. `g_shm_base` is either null or the base of the segment that is
being served.

`computeCrc32_eq` says what the table-driven loop computes: the CRC-32 of
IEEE 802.3 (`crc32Ieee`), which is the reflected CRC with the polynomial
`0xEDB88320`.
-/

namespace Deepspan

/-! ## CRC-32 -/

/-- The CRC-32 of IEEE 802.3, bit by bit. -/
def crc32Ieee (bytes : List UInt8) : UInt32 :=
  ⟨Crc.checksum 0xEDB88320#32 (bytes.map UInt8.toBitVec)⟩

/-- One round of the inner loop that fills the table. -/
def tableRound (c : UInt32) : UInt32 :=
  if c &&& 1 != 0 then (0xEDB88320 : UInt32) ^^^ (c >>> 1) else c >>> 1

/-- `table[i]`: eight rounds, from `c = i`. -/
def tableEntry (i : UInt32) : UInt32 := Nat.repeat tableRound 8 i

/-- `table[256]`. -/
def crcTable : Vector UInt32 256 := Vector.ofFn fun i => tableEntry (UInt32.ofNat i.val)

theorem and_255_lt (x : UInt32) : (x &&& 0xFF).toNat < 256 := by
  rw [UInt32.toNat_and]
  exact Nat.lt_of_le_of_lt Nat.and_le_right (by decide)

/-- `table[(crc ^ data[i]) & 0xFF] ^ (crc >> 8)`. -/
def crcUpdate (crc : UInt32) (byte : UInt8) : UInt32 :=
  crcTable.get ⟨((crc ^^^ byte.toUInt32) &&& 0xFF).toNat, and_255_lt _⟩ ^^^ (crc >>> 8)

/-- The loop of `compute_crc32` over `data[i .. i + n)`. Reading behind the
mapped page faults. -/
def computeCrc32Loop (data : Nat → Option UInt8) : Nat → Nat → UInt32 → Option UInt32
  | 0, _, crc => some crc
  | n + 1, i, crc => (data i).bind fun byte => computeCrc32Loop data n (i + 1) (crcUpdate crc byte)

/-- `compute_crc32`. -/
def computeCrc32 (data : Nat → Option UInt8) (len : UInt32) : Option UInt32 :=
  (computeCrc32Loop data len.toNat 0 0xFFFFFFFF).map fun crc => crc ^^^ 0xFFFFFFFF

theorem tableRound_toBitVec (c : UInt32) :
    (tableRound c).toBitVec = Crc.shift 0xEDB88320#32 c.toBitVec := by
  have hand : (c &&& 1).toNat = c.toNat % 2 := by
    rw [UInt32.toNat_and]
    exact Nat.and_one_is_mod c.toNat
  have hlow : (c &&& 1 != 0) = c.toBitVec.getLsbD 0 := by
    rw [show c.toBitVec.getLsbD 0 = decide (c.toNat % 2 = 1) from Nat.testBit_zero c.toNat]
    rcases Nat.mod_two_eq_zero_or_one c.toNat with h0 | h1
    · rw [UInt32.toNat_inj.mp (hand.trans h0 : _ = (0 : UInt32).toNat), h0]
      rfl
    · rw [UInt32.toNat_inj.mp (hand.trans h1 : _ = (1 : UInt32).toNat), h1]
      rfl
  rw [tableRound, Crc.shift, Crc.clock, hlow, Bool.xor_false]
  cases c.toBitVec.getLsbD 0 with
  | false => rfl
  | true => exact BitVec.xor_comm ..

theorem tableEntry_toBitVec (i : UInt32) :
    (tableEntry i).toBitVec = Crc.shifts 0xEDB88320#32 8 i.toBitVec := by
  have hrounds : ∀ n c, (Nat.repeat tableRound n c).toBitVec =
      Crc.shifts 0xEDB88320#32 n c.toBitVec := by
    intro n c
    induction n with
    | zero => rfl
    | succ n ih => rw [Nat.repeat, tableRound_toBitVec, ih, Crc.shifts]
  exact hrounds 8 i

theorem crcTable_get (x : UInt32) :
    crcTable.get ⟨(x &&& 0xFF).toNat, and_255_lt x⟩ = tableEntry (x &&& 0xFF) := by
  have hlt := and_255_lt x
  show crcTable[(x &&& 0xFF).toNat] = tableEntry (x &&& 0xFF)
  rw [crcTable, Vector.getElem_ofFn, UInt32.ofNat_toNat]

theorem crcUpdate_eq (crc : UInt32) (byte : UInt8) :
    crcUpdate crc byte = tableEntry ((crc ^^^ byte.toUInt32) &&& 0xFF) ^^^ (crc >>> 8) := by
  rw [crcUpdate, crcTable_get]

/-- One step of the loop feeds the eight bits of one byte. -/
theorem crcUpdate_toBitVec (crc : UInt32) (byte : UInt8) :
    (crcUpdate crc byte).toBitVec =
      Crc.feed 0xEDB88320#32 crc.toBitVec (Crc.lowBits 8 byte.toBitVec) := by
  have hmask : ∀ i, (255#32).getLsbD i = decide (i < 8 ∧ i < 32) := by
    intro i
    by_cases hi : i < 32
    · have hall : ∀ j : Fin 32, (255#32).getLsbD j.val = decide (j.val < 8 ∧ j.val < 32) := by
        decide
      exact hall ⟨i, hi⟩
    · rw [BitVec.getLsbD_of_ge _ _ (by omega)]
      simp only [hi, and_false, decide_false]
  have hbyte : (byte.toBitVec.setWidth 32) >>> 8 = 0#32 := by
    apply BitVec.eq_of_getLsbD_eq
    intro i hi
    rw [BitVec.getLsbD_ushiftRight, BitVec.getLsbD_setWidth,
      BitVec.getLsbD_of_ge byte.toBitVec (8 + i) (by omega)]
    simp
  have hdown : (crc.toBitVec ^^^ byte.toBitVec.setWidth 32) >>> 8 = crc.toBitVec >>> 8 := by
    rw [BitVec.ushiftRight_xor_distrib, hbyte, BitVec.xor_zero]
  have hcode : (crcUpdate crc byte).toBitVec =
      Crc.shifts 0xEDB88320#32 8 ((crc.toBitVec ^^^ byte.toBitVec.setWidth 32) &&& 255#32) ^^^
        crc.toBitVec >>> 8 := by
    rw [crcUpdate_eq, UInt32.toBitVec_xor, tableEntry_toBitVec]
    rfl
  rw [Crc.feed_byte _ _ (by decide), Crc.shifts_split hmask, hdown, hcode]

/-- The loop reads exactly the bytes it is told to, in order. -/
theorem computeCrc32Loop_eq {data : Nat → Option UInt8} (bytes : List UInt8) {i : Nat}
    (h : ∀ j (hj : j < bytes.length), data (i + j) = some bytes[j]) (crc : UInt32) :
    computeCrc32Loop data bytes.length i crc = some (bytes.foldl crcUpdate crc) := by
  induction bytes generalizing i crc with
  | nil => rfl
  | cons byte bytes ih =>
    have hhead : data i = some byte := h 0 (Nat.zero_lt_succ _)
    rw [List.length_cons, computeCrc32Loop, hhead, Option.bind_some, List.foldl_cons]
    refine ih ?_ _
    intro j hj
    have htail := h (j + 1) (Nat.succ_lt_succ hj)
    rwa [List.getElem_cons_succ, ← Nat.add_assoc, Nat.add_right_comm] at htail

theorem foldl_crcUpdate (bytes : List UInt8) (crc : UInt32) :
    (bytes.foldl crcUpdate crc).toBitVec = Crc.feed 0xEDB88320#32 crc.toBitVec
      ((bytes.map UInt8.toBitVec).flatMap (Crc.lowBits 8)) := by
  induction bytes generalizing crc with
  | nil => rfl
  | cons byte bytes ih =>
    rw [List.foldl_cons, ih, crcUpdate_toBitVec, List.map_cons, List.flatMap_cons,
      Crc.feed_append]

/-- The CRC-32 through the table. -/
theorem crc32Ieee_eq_foldl (bytes : List UInt8) :
    crc32Ieee bytes = bytes.foldl crcUpdate 0xFFFFFFFF ^^^ 0xFFFFFFFF := by
  apply UInt32.toBitVec_inj.mp
  rw [UInt32.toBitVec_xor, foldl_crcUpdate]
  exact BitVec.xor_allOnes.symm

/-- `compute_crc32` of mapped bytes is their CRC-32. -/
theorem computeCrc32_eq {data : Nat → Option UInt8} {bytes : List UInt8} {len : UInt32}
    (hlen : len.toNat = bytes.length)
    (h : ∀ j (hj : j < bytes.length), data j = some bytes[j]) :
    computeCrc32 data len = some (crc32Ieee bytes) := by
  have hdata : ∀ j (hj : j < bytes.length), data (0 + j) = some bytes[j] := by
    intro j hj
    rw [Nat.zero_add]
    exact h j hj
  rw [computeCrc32, hlen, computeCrc32Loop_eq bytes hdata, Option.map_some, crc32Ieee_eq_foldl]

/-- `0xFFFFFFFF ^ 0xFFFFFFFF`. -/
theorem crc32Ieee_nil : crc32Ieee [] = 0 := by decide

/-- A register of zeros stays so while zeros come in. -/
theorem foldl_crcUpdate_zeros (n : Nat) : (List.replicate n (0 : UInt8)).foldl crcUpdate 0 = 0 := by
  have hzero : crcUpdate 0 0 = 0 := by
    rw [crcUpdate_eq]
    decide
  induction n with
  | zero => rfl
  | succ n ih => rw [List.replicate_succ, List.foldl_cons, hzero, ih]

/-! ## Dispatch -/

namespace AccelOp
def echo : UInt32 := 0x0001
def process : UInt32 := 0x0002
def status : UInt32 := 0x0003
end AccelOp

namespace Crc32Op
def compute : UInt32 := 0x0001
def getPoly : UInt32 := 0x0002
end Crc32Op

/-- The return code of a dispatcher, and `*r0`, `*r1`. -/
structure Dispatched where
  rc : Int
  r0 : UInt32
  r1 : UInt32
deriving DecidableEq, Repr

/-- `deepspan_crc32_dispatch`; `shmBase` is what `g_shm_base` points to. -/
def deepspanCrc32Dispatch (shmBase : Option Segment) (opcode arg0 _arg1 : UInt32) :
    Option Dispatched :=
  if opcode = Crc32Op.compute then
    match shmBase with
    | none => some ⟨-1, 0, 0⟩
    | some seg =>
      let len := arg0
      if len = 0 then some ⟨0, 0, 0⟩
      else (computeCrc32 seg.dmaRead? len).map fun crc => ⟨0, crc, 0⟩
  else if opcode = Crc32Op.getPoly then some ⟨0, 0xEDB88320, 0⟩
  else some ⟨-1, 0, 0⟩

/-- `deepspan_accel_dispatch`. -/
def deepspanAccelDispatch (opcode arg0 arg1 : UInt32) : Dispatched :=
  if opcode = AccelOp.echo then ⟨0, arg0, arg1⟩
  else if opcode = AccelOp.status then ⟨0, 0x1, 0⟩
  else if opcode = AccelOp.process then ⟨0, 0, 0⟩
  else ⟨-1, 0, 0⟩

/-- The handler of `Crc32E2ETest`; `baseSet` says whether
`deepspan_crc32_set_shm_base` has been called with the base of the segment. -/
def crc32Handler (baseSet : Bool) : CmdHandler := fun _ opcode arg0 arg1 seg =>
  (deepspanCrc32Dispatch (if baseSet then some seg else none) opcode arg0 arg1).map fun d =>
    ⟨if d.rc = 0 then 0 else 1, d.r0, d.r1⟩

/-- `deepspan_accel_dispatch` as a handler: the `int` is converted to the
handler's `uint32_t`. -/
def accelHandler : CmdHandler := fun _ opcode arg0 arg1 _ =>
  let d := deepspanAccelDispatch opcode arg0 arg1
  some ⟨UInt32.ofInt d.rc, d.r0, d.r1⟩

/-- COMPUTE answers the CRC-32 of the bytes in the window, the empty string
included. -/
theorem crc32Handler_compute {log : List Invocation} {bytes : List UInt8} {len arg1 : UInt32}
    {seg : Segment} (hlen : len.toNat = bytes.length) (h : seg.HoldsDma bytes) :
    crc32Handler true log Crc32Op.compute len arg1 seg = some ⟨0, crc32Ieee bytes, 0⟩ := by
  simp only [crc32Handler, deepspanCrc32Dispatch, if_true]
  by_cases hzero : len = 0
  · have hnil : bytes = [] := by
      apply List.eq_nil_of_length_eq_zero
      rw [← hlen, hzero]
      rfl
    rw [if_pos hzero, hnil, crc32Ieee_nil]
    rfl
  · rw [if_neg hzero, computeCrc32_eq hlen h]
    rfl

/-- The opcodes that the handler answers with status 0. -/
def crc32Serves (baseSet : Bool) (opcode : UInt32) : Bool :=
  opcode == Crc32Op.getPoly || opcode == Crc32Op.compute && baseSet

def accelServes (opcode : UInt32) : Bool :=
  opcode == AccelOp.echo || opcode == AccelOp.process || opcode == AccelOp.status

theorem deepspanCrc32Dispatch_rc {baseSet : Bool} {opcode arg0 arg1 : UInt32} {seg : Segment}
    {d : Dispatched}
    (h : deepspanCrc32Dispatch (if baseSet then some seg else none) opcode arg0 arg1 = some d) :
    d.rc = if crc32Serves baseSet opcode then 0 else -1 := by
  unfold deepspanCrc32Dispatch at h
  by_cases hcompute : opcode = Crc32Op.compute
  · subst hcompute
    rw [if_pos rfl] at h
    cases baseSet with
    | false =>
      cases h
      rfl
    | true =>
      simp only [if_true] at h
      split at h
      · cases h
        rfl
      · obtain ⟨crc, _, rfl⟩ := Option.map_eq_some_iff.mp h
        rfl
  · rw [if_neg hcompute] at h
    by_cases hpoly : opcode = Crc32Op.getPoly
    · subst hpoly
      cases h
      simp [crc32Serves]
    · rw [if_neg hpoly] at h
      cases h
      simp [crc32Serves, hcompute, hpoly]

theorem deepspanAccelDispatch_rc (opcode arg0 arg1 : UInt32) :
    (deepspanAccelDispatch opcode arg0 arg1).rc = if accelServes opcode then 0 else -1 := by
  unfold deepspanAccelDispatch
  split
  · next h => simp [accelServes, h]
  · split
    · next h => simp [accelServes, h]
    · split
      · next h => simp [accelServes, h]
      · next hecho hstatus hprocess => simp [accelServes, hecho, hstatus, hprocess]

theorem crc32Handler_status {baseSet : Bool} (log : List Invocation) {opcode arg0 arg1 : UInt32}
    (seg : Segment) {reply : Reply}
    (h : crc32Handler baseSet log opcode arg0 arg1 seg = some reply) :
    reply.status = 0 ↔ crc32Serves baseSet opcode = true := by
  obtain ⟨d, hd, rfl⟩ := Option.map_eq_some_iff.mp h
  show (if d.rc = 0 then (0 : UInt32) else 1) = 0 ↔ _
  rw [deepspanCrc32Dispatch_rc hd]
  cases crc32Serves baseSet opcode <;> decide

theorem accelHandler_status (log : List Invocation) {opcode arg0 arg1 : UInt32} (seg : Segment)
    {reply : Reply} (h : accelHandler log opcode arg0 arg1 seg = some reply) :
    reply.status = 0 ↔ accelServes opcode = true := by
  cases h
  show UInt32.ofInt (deepspanAccelDispatch opcode arg0 arg1).rc = 0 ↔ _
  rw [deepspanAccelDispatch_rc]
  cases accelServes opcode <;> decide

end Deepspan
