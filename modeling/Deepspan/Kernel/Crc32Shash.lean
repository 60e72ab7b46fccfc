import Deepspan.Dispatch

/-!
# The CRC-32 of the kernel's crypto API

The callbacks of `deepspan_crc32_shash.c`. The context of a request is the register
of the CRC: `init` sets all ones, `update` feeds it a chunk, `final` complements it
and writes it in little-endian order; `finup` and `digest` are made of these. What is
passed as `data` and `len` is the chunk. All callbacks return 0.

The kernel's `crc32` is not part of the sources. It is a parameter, of which the
callbacks need that it feeds the bytes to the register and inverts nothing
(`FeedsRegister`).

`shash_eq_computeCrc32`: however a message is cut into chunks, the bytes are those of
the word that the hardware model's `compute_crc32` returns for it.
-/

namespace Deepspan

/-- `struct deepspan_crc32_ctx`. -/
structure Crc32Ctx where
  crc : UInt32
deriving DecidableEq, Repr

section Callbacks

variable (crc32 : UInt32 → List UInt8 → UInt32)

def deepspanCrc32Init (_ : Crc32Ctx) : Int × Crc32Ctx := (0, ⟨0xFFFFFFFF⟩)

def deepspanCrc32Update (ctx : Crc32Ctx) (data : List UInt8) : Int × Crc32Ctx :=
  (0, ⟨crc32 ctx.crc data⟩)

/-- The four bytes are `out`. -/
def deepspanCrc32Final (ctx : Crc32Ctx) : Int × List UInt8 :=
  let checksum := ctx.crc ^^^ 0xFFFFFFFF
  (0, le32 checksum)

def deepspanCrc32Finup (ctx : Crc32Ctx) (data : List UInt8) : Int × List UInt8 :=
  deepspanCrc32Final (deepspanCrc32Update crc32 ctx data).2

def deepspanCrc32Digest (ctx : Crc32Ctx) (data : List UInt8) : Int × List UInt8 :=
  deepspanCrc32Finup crc32 (deepspanCrc32Init ctx).2 data

/-- The updates of a request that is cut into `chunks`, in a context that is used for
the first time or again. -/
def crc32Updates (ctx : Crc32Ctx) (chunks : List (List UInt8)) : Crc32Ctx :=
  chunks.foldl (fun ctx data => (deepspanCrc32Update crc32 ctx data).2) (deepspanCrc32Init ctx).2

/-- `crc32(seed, p, n)` of `<linux/crc32.h>`: the register of the reflected CRC with the
polynomial `0xEDB88320` after the bytes, from `seed`. -/
def FeedsRegister : Prop :=
  ∀ (seed : UInt32) (bytes : List UInt8), (crc32 seed bytes).toBitVec =
    Crc.feed 0xEDB88320#32 seed.toBitVec ((bytes.map UInt8.toBitVec).flatMap (Crc.lowBits 8))

end Callbacks

variable {crc32 : UInt32 → List UInt8 → UInt32}

/-- The kernel's loop and the one of the hardware model do the same to the register. -/
theorem FeedsRegister.eq_foldl (h : FeedsRegister crc32) (seed : UInt32) (bytes : List UInt8) :
    crc32 seed bytes = bytes.foldl crcUpdate seed := by
  apply UInt32.toBitVec_inj.mp
  rw [h seed bytes, foldl_crcUpdate]

/-- After any chunks the register is that of the bytes so far. -/
theorem crc32Updates_eq (h : FeedsRegister crc32) (ctx : Crc32Ctx) (chunks : List (List UInt8)) :
    crc32Updates crc32 ctx chunks = ⟨chunks.flatten.foldl crcUpdate 0xFFFFFFFF⟩ := by
  have hfold : ∀ (chunks : List (List UInt8)) (crc : UInt32),
      chunks.foldl (fun ctx data => (deepspanCrc32Update crc32 ctx data).2) ⟨crc⟩ =
        ⟨chunks.flatten.foldl crcUpdate crc⟩ := by
    intro chunks
    induction chunks with
    | nil => exact fun _ => rfl
    | cons chunk chunks ih =>
      intro crc
      rw [List.foldl_cons, List.flatten_cons, List.foldl_append, ← h.eq_foldl crc chunk]
      exact ih _
  exact hfold chunks 0xFFFFFFFF

/-- `final` writes the CRC-32 of the bytes that the register has been fed. -/
theorem deepspanCrc32Final_foldl (bytes : List UInt8) :
    deepspanCrc32Final ⟨bytes.foldl crcUpdate 0xFFFFFFFF⟩ = (0, le32 (crc32Ieee bytes)) := by
  rw [deepspanCrc32Final, crc32Ieee_eq_foldl]

theorem deepspanCrc32Finup_eq (h : FeedsRegister crc32) (ctx : Crc32Ctx)
    (chunks : List (List UInt8)) (last : List UInt8) :
    deepspanCrc32Finup crc32 (crc32Updates crc32 ctx chunks) last =
      (0, le32 (crc32Ieee (chunks.flatten ++ last))) := by
  rw [deepspanCrc32Finup, crc32Updates_eq h, deepspanCrc32Update, h.eq_foldl,
    ← List.foldl_append]
  exact deepspanCrc32Final_foldl _

/-- A message in chunks, with the last of them passed to `finup` or not, or as a whole:
the callbacks write the bytes of what `compute_crc32` returns where the message is in
memory. -/
theorem shash_eq_computeCrc32 (h : FeedsRegister crc32) (ctx : Crc32Ctx) (msg : List UInt8)
    {data : Nat → Option UInt8} {len : UInt32} (hlen : len.toNat = msg.length)
    (hdata : ∀ j (hj : j < msg.length), data j = some msg[j]) :
    ∃ crc, computeCrc32 data len = some crc ∧
      (∀ chunks, chunks.flatten = msg →
        deepspanCrc32Final (crc32Updates crc32 ctx chunks) = (0, le32 crc)) ∧
      (∀ chunks last, chunks.flatten ++ last = msg →
        deepspanCrc32Finup crc32 (crc32Updates crc32 ctx chunks) last = (0, le32 crc)) ∧
      deepspanCrc32Digest crc32 ctx msg = (0, le32 crc) := by
  refine ⟨crc32Ieee msg, computeCrc32_eq hlen hdata, ?_, ?_, ?_⟩
  · rintro chunks rfl
    rw [crc32Updates_eq h]
    exact deepspanCrc32Final_foldl _
  · rintro chunks last rfl
    exact deepspanCrc32Finup_eq h ctx chunks last
  · exact deepspanCrc32Finup_eq h ctx [] msg

/-- The kernel's function, bit by bit. -/
def crc32Le (seed : UInt32) (bytes : List UInt8) : UInt32 :=
  ⟨Crc.feed 0xEDB88320#32 seed.toBitVec ((bytes.map UInt8.toBitVec).flatMap (Crc.lowBits 8))⟩

theorem feedsRegister_crc32Le : FeedsRegister crc32Le := fun _ _ => rfl

/-- "ab", in three chunks of which one is empty. -/
theorem shash_eq_computeCrc32_ab :
    ∃ crc, computeCrc32 (fun i => ([0x61, 0x62] : List UInt8)[i]?) 2 = some crc ∧
      deepspanCrc32Final (crc32Updates crc32Le ⟨0⟩ [[0x61], [], [0x62]]) = (0, le32 crc) ∧
      deepspanCrc32Finup crc32Le (crc32Updates crc32Le ⟨0⟩ [[0x61], []]) [0x62] = (0, le32 crc) ∧
      deepspanCrc32Digest crc32Le ⟨0⟩ [0x61, 0x62] = (0, le32 crc) := by
  obtain ⟨crc, hcrc, hfinal, hfinup, hdigest⟩ :=
    shash_eq_computeCrc32 feedsRegister_crc32Le ⟨0⟩ [0x61, 0x62]
      (show (2 : UInt32).toNat = [0x61, 0x62].length from rfl)
      (fun _ hj => List.getElem?_eq_getElem hj)
  exact ⟨crc, hcrc, hfinal [[0x61], [], [0x62]] rfl, hfinup [[0x61], []] [0x62] rfl, hdigest⟩

end Deepspan
