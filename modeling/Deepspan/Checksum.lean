import Deepspan.Dispatch

/-!
# What the checksum of the CRC-32 engine is, and what it detects

`compute_crc32` fills its table with two nested loops on the first call (`buildTable`) and then
looks one word up for each byte. `compute_crc32_ieee` says that this is the CRC-32 of
IEEE 802.3 for every sequence of bytes that its 32-bit length can describe, and that the branch
for empty data in `deepspan_crc32_dispatch` agrees with it. `burst_detected` says that the
checksums of two messages differ when the messages differ inside one window of 32 bits.
-/

namespace Deepspan

/-! ## The table -/

/-- The outer loop, after the entries below `i` have been written. -/
def fillTable : Nat → Vector UInt32 256
  | 0 => Vector.replicate 256 0
  | i + 1 => (fillTable i).setIfInBounds i (tableEntry (UInt32.ofNat i))

/-- `table[256]` after `call_once`. -/
def buildTable : Vector UInt32 256 := fillTable 256

theorem fillTable_getElem (i : Nat) {j : Nat} (hj : j < 256) :
    (fillTable i)[j] = if j < i then tableEntry (UInt32.ofNat j) else 0 := by
  induction i with
  | zero => rw [fillTable, Vector.getElem_replicate, if_neg (Nat.not_lt_zero j)]
  | succ i ih =>
    rw [fillTable, Vector.getElem_setIfInBounds hj]
    by_cases hij : i = j
    · rw [if_pos hij, if_pos (by omega), hij]
    · rw [if_neg hij, ih]
      by_cases hlt : j < i
      · rw [if_pos hlt, if_pos (by omega)]
      · rw [if_neg hlt, if_neg (by omega)]

theorem buildTable_eq : buildTable = crcTable := by
  refine Vector.ext fun j hj => ?_
  rw [buildTable, fillTable_getElem 256 hj, if_pos hj, crcTable, Vector.getElem_ofFn]

/-! ## The checksum -/

/-- The bits of a message, byte by byte, the least significant one first. -/
def messageBits (bytes : List UInt8) : List Bool :=
  (bytes.map UInt8.toBitVec).flatMap (Crc.lowBits 8)

section Message

variable {len : UInt32}

/-- `compute_crc32` of `len` bytes, behind which nothing may be read. -/
theorem computeCrc32_vector (data : Vector UInt8 len.toNat) :
    computeCrc32 (fun i => data[i]?) len = some (crc32Ieee data.toList) := by
  have hlen : len.toNat = data.toList.length := Vector.length_toList.symm
  refine computeCrc32_eq hlen fun j hj => ?_
  have hdata : data[j]? = some data[j] := Vector.getElem?_eq_getElem (hlen ▸ hj)
  rw [hdata, Vector.getElem_toList]

/-- The table that the nested loops leave is the one of the lookups, the loop over the bytes
computes the CRC-32 of IEEE 802.3, and the dispatcher's own answer for empty data is the
same. -/
theorem compute_crc32_ieee (data : Vector UInt8 len.toNat) :
    buildTable = crcTable ∧
    computeCrc32 (fun i => data[i]?) len =
      some ⟨~~~Crc.feed 0xEDB88320#32 0xFFFFFFFF#32 (messageBits data.toList)⟩ ∧
    ∀ (seg : Segment) (arg1 : UInt32),
      deepspanCrc32Dispatch (some seg) Crc32Op.compute 0 arg1 =
        (computeCrc32 seg.dmaRead? 0).map fun crc => ⟨0, crc, 0⟩ :=
  ⟨buildTable_eq, computeCrc32_vector data, fun _ _ => rfl⟩

end Message

/-! ## Bursts -/

theorem messageBits_cons (byte : UInt8) (bytes : List UInt8) :
    messageBits (byte :: bytes) = Crc.lowBits 8 byte.toBitVec ++ messageBits bytes := rfl

theorem lowBits_inj {a b : UInt8} (h : Crc.lowBits 8 a.toBitVec = Crc.lowBits 8 b.toBitVec) :
    a = b := by
  refine UInt8.toBitVec_inj.mp (BitVec.eq_of_getLsbD_eq fun i hi => ?_)
  exact List.map_inj_left.mp h i (List.mem_range.mpr hi)

theorem messageBits_length (bytes : List UInt8) :
    (messageBits bytes).length = 8 * bytes.length := by
  induction bytes with
  | nil => rfl
  | cons byte bytes ih =>
    rw [messageBits_cons, List.length_append, ih, List.length_cons, Crc.lowBits, List.length_map,
      List.length_range]
    omega

theorem messageBits_inj {a b : List UInt8} (hlen : a.length = b.length)
    (h : messageBits a = messageBits b) : a = b := by
  induction a generalizing b with
  | nil => exact (List.eq_nil_of_length_eq_zero hlen.symm).symm
  | cons x a ih =>
    cases b with
    | nil => cases hlen
    | cons y b =>
      rw [messageBits_cons, messageBits_cons] at h
      obtain ⟨hbyte, hrest⟩ := List.append_inj h rfl
      rw [lowBits_inj hbyte, ih (Nat.succ.inj hlen) hrest]

/-- Two lists of bits that differ inside a window only have the same bits before it and
behind it. -/
theorem split_window {x y : List Bool} (hlen : x.length = y.length) {start width : Nat}
    (h : ∀ i, x[i]? ≠ y[i]? → start ≤ i ∧ i < start + width) :
    ∃ before u v after, x = before ++ (u ++ after) ∧ y = before ++ (v ++ after) ∧
      u.length = v.length ∧ u.length ≤ width := by
  refine ⟨x.take start, (x.drop start).take width, (y.drop start).take width,
    (x.drop start).drop width, ?_, ?_, ?_, ?_⟩
  · rw [List.take_append_drop, List.take_append_drop]
  · have hbefore : x.take start = y.take start := by
      refine List.ext_getElem? fun i => ?_
      rw [List.getElem?_take, List.getElem?_take]
      by_cases hi : i < start
      · rw [if_pos hi, if_pos hi]
        refine Decidable.byContradiction fun hdiff => ?_
        exact absurd (h i hdiff).1 (Nat.not_le.mpr hi)
      · rw [if_neg hi, if_neg hi]
    have hafter : (x.drop start).drop width = (y.drop start).drop width := by
      refine List.ext_getElem? fun i => ?_
      simp only [List.getElem?_drop]
      refine Decidable.byContradiction fun hdiff => ?_
      have hin := (h _ hdiff).2
      omega
    rw [hbefore, hafter, List.take_append_drop, List.take_append_drop]
  · simp only [List.length_take, List.length_drop, hlen]
  · exact List.length_take_le _ _

/-- The engine detects every burst of up to 32 bits: messages of one length that differ, but
only inside a window of 32 consecutive bits, have different checksums. -/
theorem burst_detected {len : UInt32} {a b : Vector UInt8 len.toNat} (hne : a ≠ b) {start : Nat}
    (hburst : ∀ i, (messageBits a.toList)[i]? ≠ (messageBits b.toList)[i]? →
      start ≤ i ∧ i < start + 32) :
    computeCrc32 (fun i => a[i]?) len ≠ computeCrc32 (fun i => b[i]?) len := by
  have hlen : a.toList.length = b.toList.length := by
    rw [Vector.length_toList, Vector.length_toList]
  have hbits : (messageBits a.toList).length = (messageBits b.toList).length := by
    rw [messageBits_length, messageBits_length, hlen]
  obtain ⟨before, u, v, after, ha, hb, huv, hwindow⟩ := split_window hbits hburst
  have hdiff : u ≠ v := by
    rintro rfl
    exact hne (Vector.toList_inj.mp (messageBits_inj hlen (ha.trans hb.symm)))
  have hregister : Crc.feed 0xEDB88320#32 (BitVec.allOnes 32) (messageBits a.toList) ≠
      Crc.feed 0xEDB88320#32 (BitVec.allOnes 32) (messageBits b.toList) := by
    rw [ha, hb]
    exact Crc.feed_burst_ne (by decide) huv hwindow hdiff _
  rw [computeCrc32_vector, computeCrc32_vector]
  intro hcrc
  exact hregister (BitVec.not_inj.mp (congrArg UInt32.toBitVec (Option.some.inj hcrc)))

/-- Two bytes with all their bits flipped. -/
theorem burst_detected_bytes :
    computeCrc32 (fun i => #v[0x5A, 0x00][i]?) 2 ≠
      computeCrc32 (fun i => #v[0xA5, 0xFF][i]?) 2 := by
  refine @burst_detected 2 #v[0x5A, 0x00] #v[0xA5, 0xFF] (by decide) 0 fun i hi =>
    ⟨Nat.zero_le i, ?_⟩
  refine Decidable.byContradiction fun hge => hi ?_
  rw [List.getElem?_eq_none, List.getElem?_eq_none]
  all_goals
    rw [messageBits_length]
    exact Nat.le_trans (by decide) (Nat.not_lt.mp hge)

end Deepspan
