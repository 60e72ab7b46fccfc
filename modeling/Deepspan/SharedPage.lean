import Deepspan.DmaBounds
import Deepspan.Lib.Layout
import Deepspan.Userlib.Sqe

/-!
# The bytes behind a segment

`Segment` gives the registers and the statistics names. The programs that share a segment have
no names in common: the hw-model lays two C structs over the page, and every other program adds
offsets of its own to the address at which it has mapped it. This module has the page with the
accesses they make (aligned words, and copies), the layout of the two structs as the compiler
computes it from their declarations, and the segment that the bytes of a page stand for
(`Page.view`).

`load32_reg`, `update32_reg`, `store32_stat`, `store64_stat`, `copy_dma` and `clearRegs_view` say what an
access at the address of a field is on the segment.
-/

namespace Deepspan

/-! ## The two structs -/

/-- The registers of `RegMap`. -/
inductive RegName where
  | ctrl
  | status
  | irqStatus
  | irqEnable
  | version
  | capabilities
  | cmdOpcode
  | cmdArg0
  | cmdArg1
  | cmdFlags
  | resultStatus
  | resultData0
  | resultData1
deriving DecidableEq, Repr

/-- The members of `ShmStats`. -/
inductive StatName where
  | cmdCount
  | startTimeSec
  | lastOpcode
  | lastResultStatus
  | fwCmdCount
deriving DecidableEq, Repr

/-- `struct RegMap`; `none` are `_reserved0` and `_reserved1`. -/
def regMapDecl : List (Layout.Member (Option RegName)) :=
  [⟨some .ctrl, 4, 1⟩, ⟨some .status, 4, 1⟩, ⟨some .irqStatus, 4, 1⟩, ⟨some .irqEnable, 4, 1⟩,
    ⟨some .version, 4, 1⟩, ⟨some .capabilities, 4, 1⟩, ⟨none, 4, 58⟩,
    ⟨some .cmdOpcode, 4, 1⟩, ⟨some .cmdArg0, 4, 1⟩, ⟨some .cmdArg1, 4, 1⟩, ⟨some .cmdFlags, 4, 1⟩,
    ⟨some .resultStatus, 4, 1⟩, ⟨some .resultData0, 4, 1⟩, ⟨some .resultData1, 4, 1⟩,
    ⟨none, 4, 57⟩]

/-- `struct ShmStats`, and `ShmStatsView` of the two services. -/
def shmStatsDecl : List (Layout.Member StatName) :=
  [⟨.cmdCount, 8, 1⟩, ⟨.startTimeSec, 8, 1⟩, ⟨.lastOpcode, 4, 1⟩, ⟨.lastResultStatus, 4, 1⟩,
    ⟨.fwCmdCount, 8, 1⟩]

/-- `SHM_STATS_OFFSET`: the statistics follow the registers. -/
def shmStatsOffset : Nat := Layout.sizeof regMapDecl

/-- `&reg->r`, from the start of the page. -/
def RegName.offset (r : RegName) : Nat := (Layout.offsetof? regMapDecl (some r)).getD 0

/-- `&stats->s`, from the start of the statistics. -/
def StatName.offset (s : StatName) : Nat := (Layout.offsetof? shmStatsDecl s).getD 0

/-- How many bytes a member of `ShmStats` has. -/
def StatName.size : StatName → Nat
  | .lastOpcode | .lastResultStatus => 4
  | .cmdCount | .startTimeSec | .fwCmdCount => 8

theorem regMap_find? (r : RegName) :
    Layout.find? regMapDecl (some r) = some (⟨some r, 4, 1⟩, r.offset) := by
  cases r <;> decide

theorem shmStats_find? (s : StatName) :
    Layout.find? shmStatsDecl s = some (⟨s, s.size, 1⟩, s.offset) := by
  cases s <;> decide

/-- The assertions that `reg_map.hpp` makes about the two structs. -/
theorem layout_asserts : RegName.offset .cmdOpcode = 0x100 ∧ Layout.sizeof regMapDecl = 0x200 ∧
    StatName.offset .cmdCount = 0 ∧ StatName.offset .startTimeSec = 8 ∧
    StatName.offset .lastOpcode = 16 ∧ StatName.offset .lastResultStatus = 20 ∧
    StatName.offset .fwCmdCount = 24 ∧ shmStatsOffset + Layout.sizeof shmStatsDecl ≤ 0x1000 := by
  decide

/-- Both structs end before the DMA window. -/
theorem RegName.offset_le (r : RegName) : r.offset + 4 ≤ shmStatsOffset :=
  Nat.le_trans (Layout.find?_bounds (by decide) (regMap_find? r)) (by decide)

theorem StatName.offset_le (s : StatName) : shmStatsOffset + s.offset + s.size ≤ kShmDmaOffset := by
  have hbound := Layout.find?_bounds (by decide) (shmStats_find? s)
  have hstop : shmStatsOffset + Layout.stop 0 shmStatsDecl ≤ kShmDmaOffset := by decide
  rw [Layout.Member.bytes, Nat.mul_one] at hbound
  rw [Nat.add_assoc]
  exact Nat.le_trans (Nat.add_le_add_left hbound _) hstop

theorem RegName.offset_aligned (r : RegName) : r.offset % 4 = 0 := by
  cases r <;> decide

theorem StatName.offset_aligned (s : StatName) : (shmStatsOffset + s.offset) % s.size = 0 := by
  cases s <;> decide

/-! ## The fields of the page -/

/-- What a segment gives a name to. The reserved words, and what lies between the statistics and
the DMA window, are left out. -/
inductive Cell where
  | reg (r : RegName)
  | stat (s : StatName)
  | dma (i : Fin shmDmaMaxLen)
  | tail (i : Fin shmTailLen)
deriving DecidableEq

def StatName.Word : StatName → Type
  | .lastOpcode | .lastResultStatus => UInt32
  | .cmdCount | .startTimeSec | .fwCmdCount => UInt64

def Cell.Word : Cell → Type
  | .reg _ => UInt32
  | .stat s => s.Word
  | .dma _ | .tail _ => UInt8

def codec8 : Layout.Codec UInt8 UInt8 where
  size := 1
  enc v := [v]
  dec b := b.headD 0
  length_enc _ := rfl
  dec_enc _ := rfl

def codec32 : Layout.Codec UInt8 UInt32 where
  size := 4
  enc := le32
  dec b := (readLe32 b).getD 0
  length_enc := le32_length
  dec_enc v := by
    have hread := readLe32_le32_append v []
    rw [List.append_nil] at hread
    rw [hread]
    rfl

/-- The `uint64_t` in the first eight bytes. -/
def readLe64 (b : List UInt8) : Option UInt64 := do
  let lo ← readLe32 b
  let hi ← readLe32 (b.drop 4)
  some (UInt64.ofNat (lo.toNat + 2 ^ 32 * hi.toNat))

theorem readLe64_le64 (v : UInt64) : readLe64 (le64 v) = some v := by
  have hlo : UInt32.toNat (UInt32.ofNat (v.toNat % 2 ^ 32)) = v.toNat % 2 ^ 32 :=
    Nat.mod_eq_of_lt (Nat.mod_lt _ (by decide))
  have hhi : UInt32.toNat (UInt32.ofNat (v.toNat / 2 ^ 32)) = v.toNat / 2 ^ 32 :=
    Nat.mod_eq_of_lt (Nat.div_lt_of_lt_mul v.toNat_lt)
  have hdrop : (le64 v).drop 4 = le32 (UInt32.ofNat (v.toNat / 2 ^ 32)) ++ [] := rfl
  rw [readLe64, hdrop, le64, readLe32_le32_append, readLe32_le32_append]
  simp only [Option.bind_eq_bind, Option.bind_some, hlo, hhi, Nat.mod_add_div, UInt64.ofNat_toNat]

def codec64 : Layout.Codec UInt8 UInt64 where
  size := 8
  enc := le64
  dec b := (readLe64 b).getD 0
  length_enc _ := rfl
  dec_enc v := by
    rw [readLe64_le64]
    rfl

def Cell.codec : (c : Cell) → Layout.Codec UInt8 c.Word
  | .reg _ => codec32
  | .stat .lastOpcode | .stat .lastResultStatus => codec32
  | .stat .cmdCount | .stat .startTimeSec | .stat .fwCmdCount => codec64
  | .dma _ | .tail _ => codec8

def Cell.offset : Cell → Nat
  | .reg r => r.offset
  | .stat s => shmStatsOffset + s.offset
  | .dma i => kShmDmaOffset + i.val
  | .tail i => kShmDmaOffset + (shmDmaMaxLen + i.val)

theorem Cell.codec_stat_size (s : StatName) : (Cell.stat s).codec.size = s.size := by
  cases s <;> rfl

/-- The registers come first, then the statistics, the window and the rest of the page. -/
def Cell.area : Cell → Nat × Nat
  | .reg _ => (0, shmStatsOffset)
  | .stat _ => (shmStatsOffset, kShmDmaOffset)
  | .dma _ => (kShmDmaOffset, kShmDmaOffset + shmDmaMaxLen)
  | .tail _ => (kShmDmaOffset + shmDmaMaxLen, 0x1000)

theorem Cell.within (c : Cell) :
    c.area.1 ≤ c.offset ∧ c.offset + c.codec.size ≤ c.area.2 ∧ c.area.2 ≤ 0x1000 := by
  cases c with
  | reg r => exact ⟨Nat.zero_le _, r.offset_le, Nat.le_of_ble_eq_true rfl⟩
  | stat s =>
    rw [Cell.codec_stat_size]
    exact ⟨Nat.le_add_right _ _, s.offset_le, Nat.le_of_ble_eq_true rfl⟩
  | dma i => exact ⟨Nat.le_add_right _ _, Nat.add_le_add_left i.isLt _, Nat.le_of_ble_eq_true rfl⟩
  | tail i =>
    refine ⟨Nat.add_le_add_left (Nat.le_add_right _ _) _, ?_, Nat.le_refl _⟩
    exact Nat.add_le_add_left (Nat.add_le_add_left i.isLt shmDmaMaxLen) kShmDmaOffset

/-- Two bytes of a window. -/
theorem bytes_apart {base i j : Nat} (h : i ≠ j) :
    base + i + 1 ≤ base + j ∨ base + j + 1 ≤ base + i := by
  omega

theorem Cell.apart {c d : Cell} (h : c ≠ d) :
    c.offset + c.codec.size ≤ d.offset ∨ d.offset + d.codec.size ≤ c.offset := by
  obtain ⟨hc, hc', _⟩ := c.within
  obtain ⟨hd, hd', _⟩ := d.within
  -- fields of different areas are kept apart by the areas
  have hbefore (hle : c.area.2 ≤ d.area.1) : c.offset + c.codec.size ≤ d.offset :=
    Nat.le_trans (Nat.le_trans hc' hle) hd
  have hbehind (hle : d.area.2 ≤ c.area.1) : d.offset + d.codec.size ≤ c.offset :=
    Nat.le_trans (Nat.le_trans hd' hle) hc
  cases c with
  | reg r =>
    cases d with
    | reg r' =>
      refine Layout.find?_apart (by decide) (regMap_find? r) (regMap_find? r') ?_
      exact fun heq => h (congrArg Cell.reg (Option.some.inj heq))
    | stat | dma | tail => exact .inl (hbefore (Nat.le_of_ble_eq_true rfl))
  | stat s =>
    cases d with
    | reg => exact .inr (hbehind (Nat.le_of_ble_eq_true rfl))
    | stat s' =>
      rw [Cell.codec_stat_size, Cell.codec_stat_size]
      have happart := Layout.find?_apart (by decide) (shmStats_find? s) (shmStats_find? s')
        fun heq => h (congrArg Cell.stat heq)
      simp only [Layout.Member.bytes, Nat.mul_one] at happart
      simp only [Cell.offset, Nat.add_assoc, Nat.add_le_add_iff_left]
      exact happart
    | dma | tail => exact .inl (hbefore (Nat.le_of_ble_eq_true rfl))
  | dma i =>
    cases d with
    | reg | stat => exact .inr (hbehind (Nat.le_of_ble_eq_true rfl))
    | dma j => exact bytes_apart fun heq => h (congrArg Cell.dma (Fin.ext heq))
    | tail => exact .inl (hbefore (Nat.le_of_ble_eq_true rfl))
  | tail i =>
    cases d with
    | reg | stat | dma => exact .inr (hbehind (Nat.le_of_ble_eq_true rfl))
    | tail j =>
      refine bytes_apart fun heq => h (congrArg Cell.tail (Fin.ext ?_))
      exact Nat.add_left_cancel heq

def pageFields : Layout.Fields UInt8 Cell Cell.Word 0x1000 where
  codec := Cell.codec
  offset := Cell.offset
  inside c := Nat.le_trans c.within.2.1 c.within.2.2
  apart _ _ h := Cell.apart h

/-! ## The segment that a page stands for -/

/-- The segment with these fields. -/
def Segment.ofCells (f : (c : Cell) → c.Word) : Segment where
  reg := ⟨f (.reg .ctrl), f (.reg .status), f (.reg .irqStatus), f (.reg .irqEnable),
    f (.reg .version), f (.reg .capabilities), f (.reg .cmdOpcode), f (.reg .cmdArg0),
    f (.reg .cmdArg1), f (.reg .cmdFlags), f (.reg .resultStatus), f (.reg .resultData0),
    f (.reg .resultData1)⟩
  stats := ⟨f (.stat .cmdCount), f (.stat .startTimeSec), f (.stat .lastOpcode),
    f (.stat .lastResultStatus), f (.stat .fwCmdCount)⟩
  dma i := f (.dma i)
  tail i := f (.tail i)

def Page.view (page : Page) : Segment := .ofCells (pageFields.view page.toList)

def RegMap.get (m : RegMap) : RegName → UInt32
  | .ctrl => m.ctrl
  | .status => m.status
  | .irqStatus => m.irqStatus
  | .irqEnable => m.irqEnable
  | .version => m.version
  | .capabilities => m.capabilities
  | .cmdOpcode => m.cmdOpcode
  | .cmdArg0 => m.cmdArg0
  | .cmdArg1 => m.cmdArg1
  | .cmdFlags => m.cmdFlags
  | .resultStatus => m.resultStatus
  | .resultData0 => m.resultData0
  | .resultData1 => m.resultData1

def RegMap.set (m : RegMap) : RegName → UInt32 → RegMap
  | .ctrl, v => { m with ctrl := v }
  | .status, v => { m with status := v }
  | .irqStatus, v => { m with irqStatus := v }
  | .irqEnable, v => { m with irqEnable := v }
  | .version, v => { m with version := v }
  | .capabilities, v => { m with capabilities := v }
  | .cmdOpcode, v => { m with cmdOpcode := v }
  | .cmdArg0, v => { m with cmdArg0 := v }
  | .cmdArg1, v => { m with cmdArg1 := v }
  | .cmdFlags, v => { m with cmdFlags := v }
  | .resultStatus, v => { m with resultStatus := v }
  | .resultData0, v => { m with resultData0 := v }
  | .resultData1, v => { m with resultData1 := v }

def ShmStats.get (st : ShmStats) : (s : StatName) → s.Word
  | .cmdCount => st.cmdCount
  | .startTimeSec => st.startTimeSec
  | .lastOpcode => st.lastOpcode
  | .lastResultStatus => st.lastResultStatus
  | .fwCmdCount => st.fwCmdCount

def ShmStats.set (st : ShmStats) : (s : StatName) → s.Word → ShmStats
  | .cmdCount, v => { st with cmdCount := v }
  | .startTimeSec, v => { st with startTimeSec := v }
  | .lastOpcode, v => { st with lastOpcode := v }
  | .lastResultStatus, v => { st with lastResultStatus := v }
  | .fwCmdCount, v => { st with fwCmdCount := v }

theorem Page.view_get (page : Page) (r : RegName) :
    page.view.reg.get r = pageFields.view page.toList (.reg r) := by
  cases r <;> rfl

theorem Page.view_stat (page : Page) (s : StatName) :
    page.view.stats.get s = pageFields.view page.toList (.stat s) := by
  cases s <;> rfl

theorem ofCells_update_reg (f : (c : Cell) → c.Word) (r : RegName) (v : UInt32) :
    Segment.ofCells (Function.update f (.reg r) v) =
      (Segment.ofCells f).withReg fun m => m.set r v := by
  cases r <;> rfl

theorem ofCells_update_stat (f : (c : Cell) → c.Word) (s : StatName) (v : s.Word) :
    Segment.ofCells (Function.update f (.stat s) v) =
      (Segment.ofCells f).withStats fun st => st.set s v := by
  cases s <;> rfl

/-! ## Accesses -/

/-- A load of a word of `n` bytes, which faults unless it is aligned and inside the page. -/
def Page.loadWord (page : Page) (off n : Nat) : Option (List UInt8) :=
  if off % n = 0 ∧ off + n ≤ 0x1000 then some (Block.read page.toList off n) else none

theorem Page.copy_size {page : Page} {off : Nat} {bs : List UInt8} (h : off + bs.length ≤ 0x1000) :
    (Block.write page.toList off bs).toArray.size = 0x1000 := by
  rw [List.size_toArray, Block.length_write, Vector.length_toList]
  rw [Vector.length_toList]
  exact h

/-- `memcpy` or `memset` to the bytes from `off` on. -/
def Page.copy (page : Page) (off : Nat) (bs : List UInt8) : Option Page :=
  if h : off + bs.length ≤ 0x1000 then
    some ⟨(Block.write page.toList off bs).toArray, Page.copy_size h⟩
  else none

def Page.load32 (page : Page) (off : Nat) : Option UInt32 := (page.loadWord off 4).bind readLe32

def Page.store32 (page : Page) (off : Nat) (v : UInt32) : Option Page :=
  if off % 4 = 0 then page.copy off (le32 v) else none

/-- An atomic read-modify-write. -/
def Page.update32 (page : Page) (off : Nat) (f : UInt32 → UInt32) : Option Page :=
  (page.load32 off).bind fun v => page.store32 off (f v)

/-- A load of `stats->s`, for statistics that start at `base`. -/
def Page.loadStat (page : Page) (base : Nat) (s : StatName) : Option s.Word :=
  (page.loadWord (base + s.offset) s.size).map (Cell.stat s).codec.dec

/-- A store to `stats->s`. -/
def Page.storeStat (page : Page) (base : Nat) (s : StatName) (v : s.Word) : Option Page :=
  if (base + s.offset) % s.size = 0 then page.copy (base + s.offset) ((Cell.stat s).codec.enc v)
  else none

/-! ## What an access is on the segment -/

theorem readLe32_eq_some {b : List UInt8} (h : b.length = 4) :
    readLe32 b = some ((readLe32 b).getD 0) := by
  match b, h with
  | [_, _, _, _], _ => rfl

section Accesses

variable (page : Page)

theorem loadWord_eq {off n : Nat} (halign : off % n = 0) (hin : off + n ≤ 0x1000) :
    page.loadWord off n = some (Block.read page.toList off n) :=
  if_pos ⟨halign, hin⟩

theorem copy_eq {off : Nat} {bs : List UInt8} (h : off + bs.length ≤ 0x1000) :
    ∃ page', page.copy off bs = some page' ∧ page'.toList = Block.write page.toList off bs :=
  ⟨_, dif_pos h, rfl⟩

theorem copy_inside {off : Nat} {bs : List UInt8} (h : off + bs.length ≤ 0x1000) :
    Block.Inside page.toList.length (off, bs) := by
  rw [Block.Inside, Vector.length_toList]
  exact h

/-- Writing a field. -/
theorem copy_cell (c : Cell) (v : c.Word) :
    ∃ page', page.copy c.offset (c.codec.enc v) = some page' ∧
      page'.view = .ofCells (Function.update (pageFields.view page.toList) c v) := by
  have hin : c.offset + (c.codec.enc v).length ≤ 0x1000 := by
    rw [c.codec.length_enc]
    exact pageFields.inside c
  obtain ⟨page', hcopy, hbytes⟩ := copy_eq page hin
  refine ⟨page', hcopy, ?_⟩
  rw [Page.view, hbytes]
  exact congrArg _ (Layout.Fields.view_write page.length_toList c v)

theorem load32_reg (r : RegName) : page.load32 r.offset = some (page.view.reg.get r) := by
  have hin : r.offset + 4 ≤ 0x1000 := pageFields.inside (.reg r)
  rw [Page.load32, loadWord_eq page r.offset_aligned hin, Option.bind_some, Page.view_get]
  refine readLe32_eq_some ?_
  rw [Block.read, List.length_take_of_le]
  rw [List.length_drop, Vector.length_toList]
  omega

theorem store32_reg (r : RegName) (v : UInt32) : ∃ page', page.store32 r.offset v = some page' ∧
    page'.view = page.view.withReg fun m => m.set r v := by
  obtain ⟨page', hcopy, hview⟩ := copy_cell page (.reg r) v
  exact ⟨page', (if_pos r.offset_aligned).trans hcopy, hview.trans (ofCells_update_reg _ r v)⟩

theorem update32_reg (r : RegName) (f : UInt32 → UInt32) :
    ∃ page', page.update32 r.offset f = some page' ∧
      page'.view = page.view.withReg fun m => m.set r (f (m.get r)) := by
  obtain ⟨page', hstore, hview⟩ := store32_reg page r (f (page.view.reg.get r))
  refine ⟨page', ?_, hview⟩
  rw [Page.update32, load32_reg, Option.bind_some]
  exact hstore

theorem loadStat_view (s : StatName) :
    page.loadStat shmStatsOffset s = some (page.view.stats.get s) := by
  have hin := pageFields.inside (.stat s)
  have hsize := Cell.codec_stat_size s
  rw [Page.view_stat, Page.loadStat, loadWord_eq page s.offset_aligned (hsize ▸ hin)]
  rw [← hsize]
  rfl

theorem storeStat_view (s : StatName) (v : s.Word) :
    ∃ page', page.storeStat shmStatsOffset s v = some page' ∧
      page'.view = page.view.withStats fun st => st.set s v := by
  obtain ⟨page', hcopy, hview⟩ := copy_cell page (.stat s) v
  exact ⟨page', (if_pos s.offset_aligned).trans hcopy, hview.trans (ofCells_update_stat _ s v)⟩

/-- What lies outside the bytes of a copy is as before. -/
theorem view_copy_of_misses {page page' : Page} {off : Nat} {bs : List UInt8}
    (hin : off + bs.length ≤ 0x1000) (h : page'.toList = Block.write page.toList off bs) {c : Cell}
    (hmiss : off + bs.length ≤ c.area.1 ∨ c.area.2 ≤ off) :
    pageFields.view page'.toList c = pageFields.view page.toList c := by
  obtain ⟨hlow, hhigh, _⟩ := c.within
  rw [h]
  refine Layout.Fields.view_write_of_misses (copy_inside page hin) ?_
  rcases hmiss with hmiss | hmiss
  · exact .inr (Nat.le_trans hmiss hlow)
  · exact .inl (Nat.le_trans hhigh hmiss)

/-- A copy to the DMA window. -/
theorem copy_dma {bytes : List UInt8} (h : bytes.length ≤ shmDmaMaxLen) :
    ∃ page', page.copy kShmDmaOffset bytes = some page' ∧
      page'.view = page.view.copyDma bytes := by
  have hend : kShmDmaOffset + bytes.length ≤ kShmDmaOffset + shmDmaMaxLen :=
    Nat.add_le_add_left h _
  have hin : kShmDmaOffset + bytes.length ≤ 0x1000 := Nat.le_trans hend (by decide)
  obtain ⟨page', hcopy, hbytes⟩ := copy_eq page hin
  refine ⟨page', hcopy, ?_⟩
  have hother (c : Cell) (hc : kShmDmaOffset + shmDmaMaxLen ≤ c.area.1 ∨ c.area.2 ≤ kShmDmaOffset) :
      pageFields.view page'.toList c = pageFields.view page.toList c :=
    view_copy_of_misses hin hbytes (hc.imp_left (Nat.le_trans hend))
  have hreg (r : RegName) := hother (.reg r) (.inr (Nat.le_of_ble_eq_true rfl))
  have hstat (s : StatName) := hother (.stat s) (.inr (Nat.le_refl _))
  have htail (i : Fin shmTailLen) : page'.view.tail i = page.view.tail i :=
    hother (.tail i) (.inl (Nat.le_refl _))
  have hdma (i : Fin shmDmaMaxLen) : page'.view.dma i = bytes.getD i.val (page.view.dma i) := by
    have hinside := copy_inside page hin
    rw [List.getD_eq_getElem?_getD]
    by_cases hi : i.val < bytes.length
    · have hread : Block.read page'.toList (kShmDmaOffset + i.val) 1 = [bytes[i.val]] := by
        rw [hbytes, Block.read_write_within hinside hi, Block.read, List.drop_eq_getElem_cons hi]
        rfl
      rw [List.getElem?_eq_getElem hi]
      exact congrArg codec8.dec hread
    · rw [List.getElem?_eq_none (Nat.not_lt.mp hi)]
      have hsame : pageFields.view (Block.write page.toList kShmDmaOffset bytes) (.dma i) =
          pageFields.view page.toList (.dma i) :=
        Layout.Fields.view_write_of_misses hinside
          (.inr (Nat.add_le_add_left (Nat.not_lt.mp hi) _))
      rw [← hbytes] at hsame
      exact hsame
  have hregs : page'.view.reg = page.view.reg := by
    simp only [Page.view, Segment.ofCells, hreg]
  have hstats : page'.view.stats = page.view.stats := by
    simp only [Page.view, Segment.ofCells, hstat]
  calc page'.view
      = ⟨page'.view.reg, page'.view.stats, page'.view.dma, page'.view.tail⟩ := rfl
    _ = page.view.copyDma bytes := by
      rw [hregs, hstats, funext hdma, funext htail]
      rfl

/-- `std::memset(reg, 0, sizeof(RegMap))` -/
theorem copy_zeros : ∃ page', page.copy 0 (List.replicate (Layout.sizeof regMapDecl) 0) = some page' ∧
    page'.view = page.view.withReg fun _ => RegMap.zero := by
  have hlen : 0 + (List.replicate (Layout.sizeof regMapDecl) (0 : UInt8)).length = shmStatsOffset := by
    rw [Nat.zero_add, List.length_replicate]
    rfl
  have hin : 0 + (List.replicate (Layout.sizeof regMapDecl) (0 : UInt8)).length ≤ 0x1000 := by
    rw [hlen]
    decide
  obtain ⟨page', hcopy, hbytes⟩ := copy_eq page hin
  refine ⟨page', hcopy, ?_⟩
  have hother (c : Cell) (hc : shmStatsOffset ≤ c.area.1) :
      pageFields.view page'.toList c = pageFields.view page.toList c :=
    view_copy_of_misses hin hbytes (.inl (hlen ▸ hc))
  have hstat (s : StatName) := hother (.stat s) (Nat.le_refl _)
  have hdma (i : Fin shmDmaMaxLen) := hother (.dma i) (Nat.le_of_ble_eq_true rfl)
  have htail (i : Fin shmTailLen) := hother (.tail i) (Nat.le_of_ble_eq_true rfl)
  have hreg (r : RegName) : pageFields.view page'.toList (.reg r) = (0 : UInt32) := by
    have hread : Block.read page'.toList r.offset 4 = le32 0 := by
      have hwithin := Block.read_write_within (copy_inside page hin) (n := 4) (k := r.offset)
        (by rw [List.length_replicate]; exact r.offset_le)
      rw [Nat.zero_add] at hwithin
      rw [hbytes, hwithin]
      exact Block.read_replicate 0 r.offset_le
    have hdec : codec32.dec (le32 0) = 0 := codec32.dec_enc 0
    exact (congrArg codec32.dec hread).trans hdec
  simp only [Page.view, Segment.ofCells, Segment.withReg, RegMap.zero, hreg, hstat, htail, hdma]

end Accesses

/-- The page of a segment just created. -/
def Page.zero : Page := Vector.replicate 0x1000 0

theorem view_zero : Page.zero.view = Segment.zero := by
  have hbytes : Page.zero.toList = List.replicate 0x1000 0 := Vector.toList_replicate
  have hcell (c : Cell) : pageFields.view Page.zero.toList c =
      c.codec.dec (List.replicate c.codec.size 0) := by
    rw [Layout.Fields.view, hbytes]
    exact congrArg c.codec.dec (Block.read_replicate 0 (pageFields.inside c))
  simp only [Page.view, Segment.ofCells, hcell]
  rfl

/-- Every segment is that of some page. -/
theorem exists_page (seg : Segment) : ∃ page : Page, page.view = seg := by
  let cells : (c : Cell) → c.Word := fun
    | .reg r => seg.reg.get r
    | .stat s => seg.stats.get s
    | .dma i => seg.dma i
    | .tail i => seg.tail i
  have hall (c : Cell) : c ∈
      [RegName.ctrl, .status, .irqStatus, .irqEnable, .version, .capabilities, .cmdOpcode, .cmdArg0,
        .cmdArg1, .cmdFlags, .resultStatus, .resultData0, .resultData1].map Cell.reg ++
      [StatName.cmdCount, .startTimeSec, .lastOpcode, .lastResultStatus, .fwCmdCount].map Cell.stat ++
      (List.finRange shmDmaMaxLen).map Cell.dma ++ (List.finRange shmTailLen).map Cell.tail := by
    cases c with
    | reg r => cases r <;> simp
    | stat s => cases s <;> simp
    | dma i => simp
    | tail i => simp
  obtain ⟨bytes, hlen, hview⟩ := pageFields.exists_view hall cells
  exact ⟨⟨bytes.toArray, hlen⟩, congrArg Segment.ofCells hview⟩

end Deepspan
