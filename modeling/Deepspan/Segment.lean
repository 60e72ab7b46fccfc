import Mathlib.Algebra.Group.Nat.Defs

/-!
# The shared-memory segment of one device

`reg_map.hpp`: a 4 KiB page that the hw-model, the server's plugins and the
Zephyr `native_sim` driver all map. It holds the register map (`0x000`), the
statistics area (`0x200`) and the DMA window (`0x300`), which
`crc32_plugin.hpp`, `crc32_hw_model.cpp` and `deepspan_hwip_sim.c` all place at
the same offset.

Registers are 32-bit words and every access to one of them is a single load,
store, OR or AND. Words cross the segment's byte interfaces in little-endian
order (`le32`, `readLe32`).
-/

namespace Deepspan

/-! ## Little-endian words -/

/-- The four bytes `memcpy` takes from a `uint32_t` on a little-endian host. -/
def le32 (v : UInt32) : List UInt8 :=
  [UInt8.ofNat v.toNat, UInt8.ofNat (v.toNat / 2 ^ 8), UInt8.ofNat (v.toNat / 2 ^ 16),
    UInt8.ofNat (v.toNat / 2 ^ 24)]

/-- The `uint32_t` that `memcpy` reads from the first four bytes; `none` when
there are fewer. -/
def readLe32 : List UInt8 → Option UInt32
  | b0 :: b1 :: b2 :: b3 :: _ =>
    some (UInt32.ofNat
      (b0.toNat + 2 ^ 8 * b1.toNat + 2 ^ 16 * b2.toNat + 2 ^ 24 * b3.toNat))
  | _ => none

@[simp] theorem le32_length (v : UInt32) : (le32 v).length = 4 := rfl

@[simp] theorem readLe32_le32_append (v : UInt32) (rest : List UInt8) :
    readLe32 (le32 v ++ rest) = some v := by
  have hlt := v.toNat_lt
  have hsum : v.toNat % 2 ^ 8 + 2 ^ 8 * (v.toNat / 2 ^ 8 % 2 ^ 8) +
      2 ^ 16 * (v.toNat / 2 ^ 16 % 2 ^ 8) + 2 ^ 24 * (v.toNat / 2 ^ 24 % 2 ^ 8) = v.toNat := by
    omega
  simp only [le32, List.cons_append, readLe32, UInt8.toNat_ofNat', hsum, UInt32.ofNat_toNat]

theorem le32_inj {x y : UInt32} (h : le32 x = le32 y) : x = y := by
  have hx := readLe32_le32_append x []
  rw [h, readLe32_le32_append y []] at hx
  exact (Option.some.inj hx).symm

/-! ## Register map -/

/-- `RegMap`: the named registers. The reserved words are never accessed. -/
structure RegMap where
  ctrl : UInt32
  status : UInt32
  irqStatus : UInt32
  irqEnable : UInt32
  version : UInt32
  capabilities : UInt32
  cmdOpcode : UInt32
  cmdArg0 : UInt32
  cmdArg1 : UInt32
  cmdFlags : UInt32
  resultStatus : UInt32
  resultData0 : UInt32
  resultData1 : UInt32
deriving DecidableEq, Repr

/-- `std::memset(reg, 0, sizeof(RegMap))`. -/
def RegMap.zero : RegMap := ⟨0, 0, 0, 0, 0, 0, 0, 0, 0, 0, 0, 0, 0⟩

namespace CtrlBits
def reset : UInt32 := (1 : UInt32) <<< 0
def start : UInt32 := (1 : UInt32) <<< 1
end CtrlBits

namespace StatusBits
def ready : UInt32 := (1 : UInt32) <<< 0
end StatusBits

/-- `IRQ_DONE`, the only interrupt bit. -/
def irqDone : UInt32 := (1 : UInt32) <<< 0

def hwVersion : UInt32 := 0x00010000
def hwCapsDma : UInt32 := (1 : UInt32) <<< 0
def hwCapsIrq : UInt32 := (1 : UInt32) <<< 1
def hwCapsMulti : UInt32 := (1 : UInt32) <<< 2

/-- `ctrl & START`, as every party tests it. -/
def RegMap.started (r : RegMap) : Bool := r.ctrl &&& CtrlBits.start != 0

/-- `irq_status & IRQ_DONE`, as the Zephyr driver tests it. -/
def RegMap.irqPending (r : RegMap) : Bool := r.irqStatus &&& irqDone != 0

/-! ### Bit lemmas

The START bit after an OR or an AND is decided without knowing the other bits
of the register. -/

theorem or_and_mask (c m : UInt32) : (c ||| m) &&& m = m := by
  apply UInt32.toBitVec_inj.1
  apply BitVec.eq_of_getLsbD_eq
  intro i _
  simp only [UInt32.toBitVec_and, UInt32.toBitVec_or, BitVec.getLsbD_and, BitVec.getLsbD_or]
  cases c.toBitVec.getLsbD i <;> cases m.toBitVec.getLsbD i <;> rfl

theorem or_and_distrib (c r m : UInt32) : (c ||| r) &&& m = (c &&& m) ||| (r &&& m) := by
  apply UInt32.toBitVec_inj.1
  apply BitVec.eq_of_getLsbD_eq
  intro i _
  simp only [UInt32.toBitVec_and, UInt32.toBitVec_or, BitVec.getLsbD_and, BitVec.getLsbD_or]
  cases c.toBitVec.getLsbD i <;> cases m.toBitVec.getLsbD i <;> cases r.toBitVec.getLsbD i <;> rfl

theorem and_not_mask (c m : UInt32) : (c &&& ~~~m) &&& m = 0 := by
  rw [UInt32.and_assoc, UInt32.not_and_self, UInt32.and_zero]

/-- `__atomic_or_fetch(ctrl, START)` sets the bit. -/
@[simp] theorem started_or_start (r : RegMap) (c : UInt32) :
    { r with ctrl := c ||| CtrlBits.start }.started = true := by
  simp only [RegMap.started, or_and_mask]
  decide

/-- `__atomic_and_fetch(ctrl, ~START)` clears it. -/
@[simp] theorem started_and_not_start (r : RegMap) (c : UInt32) :
    { r with ctrl := c &&& ~~~CtrlBits.start }.started = false := by
  simp only [RegMap.started, and_not_mask]
  decide

/-- `__atomic_or_fetch(ctrl, RESET)` leaves it alone. -/
@[simp] theorem started_or_reset (r : RegMap) :
    { r with ctrl := r.ctrl ||| CtrlBits.reset }.started = r.started := by
  simp only [RegMap.started, or_and_distrib,
    show CtrlBits.reset &&& CtrlBits.start = 0 from rfl, UInt32.or_zero]

/-! ## Statistics, DMA window, segment -/

/-- `ShmStats`, at `SHM_STATS_OFFSET`. -/
structure ShmStats where
  cmdCount : UInt64
  startTimeSec : UInt64
  lastOpcode : UInt32
  lastResultStatus : UInt32
  fwCmdCount : UInt64
deriving DecidableEq, Repr

def ShmStats.zero : ShmStats := ⟨0, 0, 0, 0, 0⟩

/-- `kShmDmaMaxLen` / `SHM_DMA_MAX_LEN`: the DMA window is `[0x300, 0xF00)`. -/
def shmDmaMaxLen : Nat := 0xC00

/-- The rest of the page behind the DMA window, `[0xF00, 0x1000)`. -/
def shmTailLen : Nat := 0x100

/-- One mapped segment. `dma i` is the byte at `0x300 + i`, `tail i` the byte at
`0xF00 + i`. -/
structure Segment where
  reg : RegMap
  stats : ShmStats
  dma : Fin shmDmaMaxLen → UInt8
  tail : Fin shmTailLen → UInt8

/-- A segment just created by `shm_open(O_CREAT)` and `ftruncate`. -/
def Segment.zero : Segment := ⟨.zero, .zero, fun _ => 0, fun _ => 0⟩

/-- The byte at `base + kShmDmaOffset + i`; `none` behind the end of the page. -/
def Segment.dmaRead? (seg : Segment) (i : Nat) : Option UInt8 :=
  if h : i < shmDmaMaxLen then some (seg.dma ⟨i, h⟩)
  else if h : i - shmDmaMaxLen < shmTailLen then some (seg.tail ⟨i - shmDmaMaxLen, h⟩)
  else none

/-- `memcpy(base + kShmDmaOffset, bytes, len)` for a `len` within the window. -/
def Segment.copyDma (seg : Segment) (bytes : List UInt8) : Segment :=
  { seg with dma := fun i => bytes.getD i.val (seg.dma i) }

/-- The DMA window starts with `bytes`. -/
def Segment.HoldsDma (seg : Segment) (bytes : List UInt8) : Prop :=
  ∀ i (h : i < bytes.length), seg.dmaRead? i = some bytes[i]

theorem holdsDma_copyDma (seg : Segment) {bytes : List UInt8} (h : bytes.length ≤ shmDmaMaxLen) :
    (seg.copyDma bytes).HoldsDma bytes := by
  intro i hi
  have hlt : i < shmDmaMaxLen := Nat.lt_of_lt_of_le hi h
  simp [Segment.dmaRead?, Segment.copyDma, hlt, hi]

theorem holdsDma_nil (seg : Segment) : seg.HoldsDma [] := by
  intro i hi
  exact absurd hi (Nat.not_lt_zero i)

/-- Only the window matters: two segments with the same one hold the same bytes. -/
theorem Segment.HoldsDma.congr {seg seg' : Segment} {bytes : List UInt8} (h : seg.HoldsDma bytes)
    (hd : seg'.dma = seg.dma) (ht : seg'.tail = seg.tail) : seg'.HoldsDma bytes := by
  intro i hi
  rw [← h i hi]
  simp only [Segment.dmaRead?, hd, ht]

end Deepspan
