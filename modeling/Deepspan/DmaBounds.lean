import Deepspan.Submit.Plugin
import Deepspan.Zephyr.Driver

/-!
# Which bytes of the page the CRC-32 engine reads

The segment is a page of 4096 bytes, and a load from it is checked (`Page.load`): it is
recorded, and outside the page it yields nothing. `Page.crc32Dispatch` is
`deepspan_crc32_dispatch` with its loads recorded; apart from the record it is the dispatcher of
`Dispatch.lean` (`crc32Dispatch_value`).

The length of a COMPUTE comes from a register that three clients fill. `Crc32Plugin::submit`
clamps it to the window, `AccelPlugin::submit`, for which opcode 1 is ECHO, passes on what the
payload says, and so does `deepspan_hwip_submit_cmd`; the bound in `deepspan_hwip_set_dma` is
on another call. The dispatcher takes it as it is, so that its loads stay inside the window
exactly if the client saw to that (`dispatch_bounded_iff`).
-/

namespace Deepspan

/-! ## Loads -/

/-- A computation that loads bytes: the offsets, in order, and its value if no load failed. -/
structure Loads (α : Type) where
  reads : List Nat
  value : Option α

namespace Loads

variable {α β : Type}

def pure (a : α) : Loads α := ⟨[], some a⟩

def bind (x : Loads α) (f : α → Loads β) : Loads β :=
  match x.value with
  | none => ⟨x.reads, none⟩
  | some a => ⟨x.reads ++ (f a).reads, (f a).value⟩

def map (f : α → β) (x : Loads α) : Loads β := ⟨x.reads, x.value.map f⟩

theorem bind_value (x : Loads α) (f : α → Loads β) :
    (x.bind f).value = x.value.bind fun a => (f a).value := by
  unfold bind
  cases x.value <;> rfl

end Loads

/-! ## The page -/

/-- The page that the segment occupies, `SHM_MMAP_SIZE` bytes. -/
abbrev Page := Vector UInt8 0x1000

/-- `kShmDmaOffset` / `SHM_DMA_OFFSET`. -/
def kShmDmaOffset : Nat := 0x300

def Page.load (page : Page) (off : Nat) : Loads UInt8 := ⟨[off], page[off]?⟩

/-- The loop of `compute_crc32` over the `n` bytes from `off` on. -/
def Page.computeCrc32Loop (page : Page) : Nat → Nat → UInt32 → Loads UInt32
  | 0, _, crc => .pure crc
  | n + 1, off, crc =>
    (page.load off).bind fun byte => page.computeCrc32Loop n (off + 1) (crcUpdate crc byte)

/-- `compute_crc32(base + kShmDmaOffset, len)`. -/
def Page.computeCrc32 (page : Page) (len : UInt32) : Loads UInt32 :=
  (page.computeCrc32Loop len.toNat kShmDmaOffset 0xFFFFFFFF).map fun crc => crc ^^^ 0xFFFFFFFF

/-- `deepspan_crc32_dispatch`; `shmBase` is what `g_shm_base` points to. -/
def Page.crc32Dispatch (shmBase : Option Page) (opcode arg0 _arg1 : UInt32) : Loads Dispatched :=
  if opcode = Crc32Op.compute then
    match shmBase with
    | none => .pure ⟨-1, 0, 0⟩
    | some page =>
      let len := arg0
      if len = 0 then .pure ⟨0, 0, 0⟩
      else (page.computeCrc32 len).map fun crc => ⟨0, crc, 0⟩
  else if opcode = Crc32Op.getPoly then .pure ⟨0, 0xEDB88320, 0⟩
  else .pure ⟨-1, 0, 0⟩

/-! ### The page behind a segment -/

theorem dma_lt_page {i : Nat} (h : i < shmDmaMaxLen) : kShmDmaOffset + i < 0x1000 :=
  Nat.lt_of_lt_of_le (Nat.add_lt_add_left h kShmDmaOffset) (by decide)

theorem tail_lt_page {i : Nat} (h : i < shmTailLen) : kShmDmaOffset + (shmDmaMaxLen + i) < 0x1000 :=
  Nat.add_lt_add_left (Nat.add_lt_add_left h shmDmaMaxLen) kShmDmaOffset

/-- The segment on a page, whose first part is seen as registers and statistics. -/
def Page.segment (page : Page) (reg : RegMap) (stats : ShmStats) : Segment where
  reg := reg
  stats := stats
  dma i := page.get ⟨kShmDmaOffset + i.val, dma_lt_page i.isLt⟩
  tail i := page.get ⟨kShmDmaOffset + (shmDmaMaxLen + i.val), tail_lt_page i.isLt⟩

section Segment

variable (page : Page) (reg : RegMap) (stats : ShmStats)

theorem segment_dmaRead? (i : Nat) :
    (page.segment reg stats).dmaRead? i = page[kShmDmaOffset + i]? := by
  unfold Segment.dmaRead?
  by_cases hdma : i < shmDmaMaxLen
  · rw [dif_pos hdma, Vector.getElem?_eq_getElem (dma_lt_page hdma)]
    rfl
  · rw [dif_neg hdma]
    obtain ⟨j, rfl⟩ := Nat.exists_eq_add_of_le (Nat.not_lt.mp hdma)
    rw [Nat.add_sub_cancel_left]
    by_cases htail : j < shmTailLen
    · rw [dif_pos htail, Vector.getElem?_eq_getElem (tail_lt_page htail)]
      rfl
    · rw [dif_neg htail, Vector.getElem?_eq_none]
      simp only [kShmDmaOffset, shmDmaMaxLen, shmTailLen] at htail ⊢
      omega

theorem computeCrc32Loop_value (n i : Nat) (crc : UInt32) :
    (page.computeCrc32Loop n (kShmDmaOffset + i) crc).value =
      computeCrc32Loop (page.segment reg stats).dmaRead? n i crc := by
  induction n generalizing i crc with
  | zero => rfl
  | succ n ih =>
    rw [Page.computeCrc32Loop, Loads.bind_value, computeCrc32Loop, segment_dmaRead?]
    exact congrArg _ (funext fun byte => ih (i + 1) (crcUpdate crc byte))

/-- Recording the loads changes nothing else. -/
theorem crc32Dispatch_value (opcode arg0 arg1 : UInt32) (baseSet : Bool) :
    (Page.crc32Dispatch (if baseSet then some page else none) opcode arg0 arg1).value =
      deepspanCrc32Dispatch (if baseSet then some (page.segment reg stats) else none)
        opcode arg0 arg1 := by
  have hcompute : (page.computeCrc32 arg0).value =
      computeCrc32 (page.segment reg stats).dmaRead? arg0 :=
    congrArg (Option.map _) (computeCrc32Loop_value page reg stats arg0.toNat 0 0xFFFFFFFF)
  unfold Page.crc32Dispatch deepspanCrc32Dispatch
  cases baseSet with
  | false =>
    simp only [Bool.false_eq_true, if_false]
    split
    · rfl
    · split <;> rfl
  | true =>
    simp only [if_true]
    split
    · split
      · rfl
      · exact congrArg (Option.map _) hcompute
    · split <;> rfl

end Segment

/-! ### What is read -/

/-- The loop loads byte by byte, up to and including the first one behind the page. -/
theorem mem_computeCrc32Loop_reads (page : Page) {n off x : Nat} (hoff : off ≤ 0x1000)
    (crc : UInt32) :
    x ∈ (page.computeCrc32Loop n off crc).reads ↔ off ≤ x ∧ x < off + n ∧ x ≤ 0x1000 := by
  induction n generalizing off crc with
  | zero =>
    refine iff_of_false List.not_mem_nil ?_
    rintro ⟨hlow, hhigh, _⟩
    omega
  | succ n ih =>
    rw [Page.computeCrc32Loop, Loads.bind]
    by_cases hin : off < 0x1000
    · have hbyte : (page.load off).value = some page[off] := Vector.getElem?_eq_getElem hin
      rw [hbyte]
      show x ∈ [off] ++ _ ↔ _
      rw [List.singleton_append, List.mem_cons, ih hin]
      omega
    · -- the load behind the page is the last one
      have hbyte : (page.load off).value = none := Vector.getElem?_eq_none (Nat.not_lt.mp hin)
      rw [hbyte]
      show x ∈ [off] ↔ _
      rw [List.mem_singleton]
      omega

/-- The offsets a command reads: none, unless it is a COMPUTE on a segment. -/
theorem mem_crc32Dispatch_reads {shmBase : Option Page} {opcode arg0 arg1 : UInt32} {x : Nat} :
    x ∈ (Page.crc32Dispatch shmBase opcode arg0 arg1).reads ↔
      opcode = Crc32Op.compute ∧ shmBase.isSome = true ∧
        kShmDmaOffset ≤ x ∧ x < kShmDmaOffset + arg0.toNat ∧ x ≤ 0x1000 := by
  unfold Page.crc32Dispatch
  by_cases hcompute : opcode = Crc32Op.compute
  · rw [if_pos hcompute]
    cases shmBase with
    | none =>
      refine iff_of_false List.not_mem_nil ?_
      rintro ⟨_, hbase, _⟩
      cases hbase
    | some page =>
      by_cases hzero : arg0 = 0
      · subst hzero
        refine iff_of_false List.not_mem_nil ?_
        rintro ⟨_, _, hlow, hhigh, _⟩
        exact absurd hhigh (Nat.not_lt.mpr hlow)
      · simp only [if_neg hzero]
        refine (mem_computeCrc32Loop_reads page (by decide) _).trans ?_
        exact ⟨fun h => ⟨hcompute, rfl, h⟩, fun h => h.2.2⟩
  · rw [if_neg hcompute]
    refine iff_of_false ?_ fun h => hcompute h.1
    split <;> exact List.not_mem_nil

/-! ## The clients -/

/-- A request of one of the clients of a segment, taken alone: two that overlap may leave the
opcode of one and the argument of the other in the registers. -/
inductive ClientRequest where
  | crc32 (call : Call)
  | accel (call : Call)
  | submitCmd (opcode arg0 arg1 : UInt32)
deriving DecidableEq, Repr

/-- What the request puts into the command registers. -/
def ClientRequest.cmd : ClientRequest → Cmd
  | .crc32 call => PluginKind.crc32.cmd call
  | .accel call => PluginKind.accel.cmd call
  | .submitCmd opcode arg0 arg1 => CmdCall.cmd ⟨opcode, arg0, arg1, .writeOpcode, 0⟩

/-- The client asks for no COMPUTE over more than the window. Nothing can go wrong with a
request to `Crc32Plugin`. -/
def ClientRequest.Fits : ClientRequest → Prop
  | .crc32 _ => True
  | .accel call =>
    call.opcode = Crc32Op.compute → (fixedArgs call.payload).1.toNat ≤ shmDmaMaxLen
  | .submitCmd opcode arg0 _ => opcode = Crc32Op.compute → arg0.toNat ≤ shmDmaMaxLen

/-- `Fits` in terms of the registers; this is where the clamp of `Crc32Plugin` comes in. -/
theorem ClientRequest.fits_iff (req : ClientRequest) :
    req.Fits ↔ (req.cmd.opcode = Crc32Op.compute → req.cmd.arg0.toNat ≤ shmDmaMaxLen) := by
  cases req with
  | crc32 call =>
    refine iff_of_true trivial fun hopcode => ?_
    rw [ClientRequest.cmd, PluginKind.cmd_opcode] at hopcode
    show (crc32Cmd call).arg0.toNat ≤ shmDmaMaxLen
    rw [crc32Cmd_compute hopcode, UInt32.toNat_ofNat']
    exact Nat.le_trans (Nat.mod_le _ _) (Nat.min_le_right _ _)
  | accel call => exact Iff.rfl
  | submitCmd opcode arg0 arg1 => exact Iff.rfl

/-- A command is served inside the window: no other byte is read, and a length that does not
fit is answered with an error. -/
structure ServedInWindow (shmBase : Option Page) (cmd : Cmd) : Prop where
  window : ∀ off ∈ (Page.crc32Dispatch shmBase cmd.opcode cmd.arg0 cmd.arg1).reads,
    0x300 ≤ off ∧ off < 0xF00
  rejected : cmd.opcode = Crc32Op.compute → 0xC00 < cmd.arg0.toNat →
    ∃ d, (Page.crc32Dispatch shmBase cmd.opcode cmd.arg0 cmd.arg1).value = some d ∧ d.rc ≠ 0

theorem servedInWindow_none (cmd : Cmd) : ServedInWindow none cmd where
  window off hoff := by
    cases (mem_crc32Dispatch_reads.mp hoff).2.1
  rejected hopcode _ := by
    refine ⟨⟨-1, 0, 0⟩, ?_, by decide⟩
    rw [Page.crc32Dispatch, if_pos hopcode]
    rfl

/-- A COMPUTE that is too long reads the first byte behind the window. -/
theorem window_left {page : Page} {cmd : Cmd} (hopcode : cmd.opcode = Crc32Op.compute)
    (hlen : shmDmaMaxLen < cmd.arg0.toNat) :
    0xF00 ∈ (Page.crc32Dispatch (some page) cmd.opcode cmd.arg0 cmd.arg1).reads := by
  refine mem_crc32Dispatch_reads.mpr ⟨hopcode, rfl, ?_⟩
  simp only [shmDmaMaxLen] at hlen
  simp only [kShmDmaOffset]
  omega

/-- The dispatcher serves what one request puts into the registers inside the window exactly if
it has no segment to read, or the request fits. -/
theorem dispatch_bounded_iff (shmBase : Option Page) (req : ClientRequest) :
    ServedInWindow shmBase req.cmd ↔ shmBase = none ∨ req.Fits := by
  rw [req.fits_iff]
  cases shmBase with
  | none => exact iff_of_true (servedInWindow_none _) (.inl rfl)
  | some page =>
    constructor
    · intro h
      refine .inr fun hopcode => Nat.not_lt.mp fun hlen => ?_
      exact absurd (h.window 0xF00 (window_left hopcode hlen)).2 (Nat.lt_irrefl _)
    · rintro (hnone | hfits)
      · cases hnone
      · refine ⟨?_, fun hopcode hlen => absurd (hfits hopcode) (Nat.not_le.mpr hlen)⟩
        intro off hoff
        obtain ⟨hopcode, _, hlow, hhigh, _⟩ := mem_crc32Dispatch_reads.mp hoff
        have hlen := hfits hopcode
        simp only [shmDmaMaxLen] at hlen
        simp only [kShmDmaOffset] at hlow hhigh
        omega

/-- An ECHO of 3073 through `AccelPlugin`, which the engine takes for a COMPUTE of 3073 bytes. -/
theorem dispatch_bounded_echo :
    ¬ServedInWindow (some (Vector.replicate 0x1000 0))
      (ClientRequest.accel ⟨"hwip0", AccelOp.echo, le32 3073⟩).cmd := by
  intro h
  have hout := h.window 0xF00 (window_left rfl (by decide))
  exact absurd hout.2 (Nat.lt_irrefl _)

end Deepspan
