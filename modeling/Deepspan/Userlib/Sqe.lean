import Deepspan.Kernel.Driver
import Deepspan.Lib.Block

/-!
# The submission entry, written and read

`AsyncClient::submit` prepares a 64-byte submission queue entry with liburing's
`io_uring_prep_rw`, which stores a pointer to the request at `addr` and clears the 16
bytes of the command area. `deepspan_uring_cmd_issue` takes the request itself from
the command area: 24 bytes at `cmd`, of which the last 8 lie behind the entry.

`uringCmd_misread`: no request is read as it was submitted from inside the entry. What
the driver reads is an opcode, flags and a pointer of zero, with the first two words of
whatever follows the entry as length and timeout.
-/

namespace Deepspan

/-- A slot of the submission queue. -/
structure Sqe where
  bytes : List UInt8
  size : bytes.length = 64

def le16 (v : UInt16) : List UInt8 := [UInt8.ofNat v.toNat, UInt8.ofNat (v.toNat / 2 ^ 8)]

def le64 (v : UInt64) : List UInt8 :=
  le32 (UInt32.ofNat (v.toNat % 2 ^ 32)) ++ le32 (UInt32.ofNat (v.toNat / 2 ^ 32))

def ioringOpUringCmd : UInt8 := 46

def deepspanCmdOp : UInt32 := 0

/-- The size of `struct deepspan_req`, and of `struct deepspan_cmd_req`. -/
def cmdReqSize : Nat := 24

/-- The stores of `io_uring_prep_rw`, with their offsets in `struct io_uring_sqe`. -/
def ioUringPrepRw (op : UInt8) (fd : Int32) (addr : UInt64) (len : UInt32) (offset : UInt64) :
    List (Nat × List UInt8) :=
  [(0, [op]),
    (1, [0]), -- flags
    (2, le16 0), -- ioprio
    (4, le32 fd.toUInt32),
    (8, le64 offset),
    (16, le64 addr),
    (24, le32 len),
    (28, le32 0), -- rw_flags
    (40, le16 0), -- buf_index
    (42, le16 0), -- personality
    (44, le32 0), -- file_index
    (48, le64 0), -- addr3
    (56, le64 0)] -- __pad2

/-- `prep_uring_cmd`: `cmd_op` shares its bytes with `off`. -/
def prepUringCmd (fd : Int32) (cmdOp : UInt32) (addr : UInt64) (len : UInt32) :
    List (Nat × List UInt8) :=
  ioUringPrepRw ioringOpUringCmd fd addr len 0 ++ [(8, le32 cmdOp)]

/-- The stores of `submit` for a request that lies at `addr`. -/
def submitStores (fd : Int32) (addr userData : UInt64) : List (Nat × List UInt8) :=
  prepUringCmd fd deepspanCmdOp addr (UInt32.ofNat cmdReqSize) ++ [(32, le64 userData)]

theorem submitStores_inside (fd : Int32) (addr userData : UInt64) :
    ∀ w ∈ submitStores fd addr userData, Block.Inside 64 w := by
  simp [submitStores, prepUringCmd, ioUringPrepRw, Block.Inside, le16, le32, le64]

/-- The slot after `submit`. -/
def Sqe.submit (sqe : Sqe) (fd : Int32) (addr userData : UInt64) : Sqe where
  bytes := Block.writes sqe.bytes (submitStores fd addr userData)
  size := by
    rw [Block.length_writes]
    · exact sqe.size
    · rw [sqe.size]
      exact submitStores_inside fd addr userData

/-- A `struct deepspan_cmd_req` in memory. -/
def CmdReq.decode (b : List UInt8) : Option CmdReq := do
  let opcode ← readLe32 b
  let flags ← readLe32 (b.drop 4)
  let lo ← readLe32 (b.drop 8)
  let hi ← readLe32 (b.drop 12)
  let dataLen ← readLe32 (b.drop 16)
  let timeoutMs ← readLe32 (b.drop 20)
  some ⟨opcode, flags, UInt64.ofNat (lo.toNat + 2 ^ 32 * hi.toNat), dataLen, timeoutMs⟩

/-- The offset of `cmd`, which `io_uring_sqe_cmd` points to. -/
def sqeCmdOffset : Nat := 48

/-- What `deepspan_uring_cmd_issue` finds at `ureq`, where `next` are the bytes behind
the entry. -/
def Sqe.readCmd (sqe : Sqe) (next : List UInt8) : Option CmdReq :=
  CmdReq.decode (Block.read (sqe.bytes ++ next) sqeCmdOffset cmdReqSize)

/-- The driver reads `req`, from inside the entry. -/
def Sqe.Carries (sqe : Sqe) (next : List UInt8) (req : CmdReq) : Prop :=
  sqeCmdOffset + cmdReqSize ≤ 64 ∧ sqe.readCmd next = some req

/-- The command area is cleared. -/
theorem submit_cmdArea (sqe : Sqe) (fd : Int32) (addr userData : UInt64) :
    Block.read (sqe.submit fd addr userData).bytes 48 16 = List.replicate 16 0 := by
  have hinside : ∀ w ∈ submitStores fd addr userData, Block.Inside sqe.bytes.length w := by
    rw [sqe.size]
    exact submitStores_inside fd addr userData
  have haddr3 : Block.read (sqe.submit fd addr userData).bytes 48 8 = le64 0 := by
    refine Block.read_writes ((submitStores fd addr userData).take 11)
      ((submitStores fd addr userData).drop 12) hinside ?_
    simp [submitStores, prepUringCmd, ioUringPrepRw, Block.Misses, le32, le64]
  have hpad2 : Block.read (sqe.submit fd addr userData).bytes 56 8 = le64 0 := by
    refine Block.read_writes ((submitStores fd addr userData).take 12)
      ((submitStores fd addr userData).drop 13) hinside ?_
    simp [submitStores, prepUringCmd, ioUringPrepRw, Block.Misses, le32, le64]
  rw [Block.read_add _ 48 8 8, haddr3, hpad2]
  rfl

theorem readLe32_zeros (rest : List UInt8) : readLe32 (0 :: 0 :: 0 :: 0 :: rest) = some 0 := rfl

/-- So the driver takes the length and the timeout from behind the entry, and nothing
else. -/
theorem readCmd_submit (sqe : Sqe) (next : List UInt8) (fd : Int32) (addr userData : UInt64) :
    (sqe.submit fd addr userData).readCmd next =
      (readLe32 (next.take 8)).bind fun dataLen =>
        (readLe32 ((next.take 8).drop 4)).map fun timeoutMs => ⟨0, 0, 0, dataLen, timeoutMs⟩ := by
  have hsize := (sqe.submit fd addr userData).size
  have hinside : Block.read ((sqe.submit fd addr userData).bytes ++ next) 48 16 =
      List.replicate 16 0 := by
    rw [← submit_cmdArea sqe fd addr userData, Block.read, Block.read,
      List.drop_append_of_le_length (by rw [hsize]; decide), List.take_append_of_le_length]
    exact Nat.le_of_eq (by rw [List.length_drop, hsize])
  have hbehind : Block.read ((sqe.submit fd addr userData).bytes ++ next) 64 8 = next.take 8 := by
    rw [Block.read, List.drop_left' hsize]
  rw [Sqe.readCmd, sqeCmdOffset, cmdReqSize, Block.read_add _ 48 16 8, hinside, hbehind]
  generalize next.take 8 = words
  simp only [CmdReq.decode, List.replicate, List.cons_append, List.drop_succ_cons, List.drop_zero,
    List.nil_append, readLe32_zeros]
  cases readLe32 words with
  | none => rfl
  | some dataLen =>
    cases readLe32 (words.drop 4) with
    | none => rfl
    | some timeoutMs => rfl

theorem readLe32_take (b : List UInt8) : readLe32 (b.take 8) = readLe32 b := by
  match b with
  | [] | [_] | [_, _] | [_, _, _] | _ :: _ :: _ :: _ :: _ => rfl

theorem readLe32_take_drop (b : List UInt8) :
    readLe32 ((b.take 8).drop 4) = readLe32 (b.drop 4) := by
  rw [List.drop_take]
  generalize b.drop 4 = c
  match c with
  | [] | [_] | [_, _] | [_, _, _] | _ :: _ :: _ :: _ :: _ => rfl

/-- For every request, slot and neighbour: the driver does not read the request from
inside the entry, and the fields that it reads are those of the request only where the
request has none but the length and the timeout, and these happen to follow the
entry. -/
theorem uringCmd_misread (sqe : Sqe) (next : List UInt8) (fd : Int32) (addr userData : UInt64)
    (req : CmdReq) :
    ¬(sqe.submit fd addr userData).Carries next req ∧
    ((sqe.submit fd addr userData).readCmd next = some req ↔
      req.opcode = 0 ∧ req.flags = 0 ∧ req.dataPtr = 0 ∧ readLe32 next = some req.dataLen ∧
        readLe32 (next.drop 4) = some req.timeoutMs) := by
  refine ⟨?_, ?_⟩
  · rintro ⟨hfits, _⟩
    exact absurd hfits (by decide)
  · rw [readCmd_submit, readLe32_take, readLe32_take_drop]
    simp only [Option.bind_eq_some_iff, Option.map_eq_some_iff]
    refine ⟨?_, ?_⟩
    · rintro ⟨_, hlen, _, htimeout, rfl⟩
      exact ⟨rfl, rfl, rfl, hlen, htimeout⟩
    · obtain ⟨opcode, flags, dataPtr, dataLen, timeoutMs⟩ := req
      rintro ⟨rfl, rfl, rfl, hlen, htimeout⟩
      exact ⟨_, hlen, _, htimeout, rfl⟩

/-- A cleared slot, followed by another one. -/
def clearSqe : Sqe := ⟨List.replicate 64 0, rfl⟩

/-- A request with the opcode 1 is read as one with the opcode 0. -/
theorem uringCmd_misread_opcode :
    (clearSqe.submit 3 0x7ffc0000 9).readCmd clearSqe.bytes = some ⟨0, 0, 0, 0, 0⟩ ∧
      ¬(clearSqe.submit 3 0x7ffc0000 9).Carries clearSqe.bytes ⟨1, 0, 0, 0, 0⟩ := by
  refine ⟨by decide, ?_⟩
  rintro ⟨_, hread⟩
  exact absurd hread (by decide)

end Deepspan
