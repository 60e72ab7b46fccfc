import Deepspan.Kernel.Requests

/-!
# What the firmware is told

The out-buffer of a request is filled by two branches of `deepspan_uring_cmd_issue`:
with the payload where there is one, and with the command itself where there is none
(`CmdReq.outBuf`). A payload goes out without its command, and the command is cut to
`data_len` bytes where a length is given without a pointer.

`outBuf_opcode_iff` says for any two accepted requests with different opcodes when
their out-buffers differ; `outBuf_opcode_lost` are two that do not.
-/

namespace Deepspan

open Transition

/-- The request comes with a payload that is copied from user space. -/
def CmdReq.HasPayload (u : CmdReq) : Prop := u.dataLen ≠ 0 ∧ u.dataPtr ≠ 0

instance (u : CmdReq) : Decidable u.HasPayload := inferInstanceAs (Decidable (_ ∧ _))

/-- The command as the request, in a buffer of `buf_len` bytes. -/
def CmdReq.inlineBuf (u : CmdReq) : List UInt8 :=
  fillBuf u.bufLen (u.bytes.take (min u.bufLen 24))

/-- The buffer that is added to the virtqueue, where `data` is the user's payload. -/
def CmdReq.outBuf (u : CmdReq) (data : List UInt8) : List UInt8 :=
  if u.HasPayload then fillBuf u.bufLen data else u.inlineBuf

/-- `data` is a payload of the length that the request says. -/
def CmdReq.Payload (u : CmdReq) (data : List UInt8) : Prop :=
  u.HasPayload → data.length = u.dataLen.toNat

/-- The out-buffer has been filled and the call has not failed since. -/
def IssuePc.filled : IssuePc → Bool
  | .xaAlloc | .lockVq | .addSgs | .kick | .unlockVq none | .returned none => true
  | .allocReq | .allocBuf | .allocResp | .copyIn | .unlockVq (some _) | .xaErase _ | .freeResp _
  | .freeBuf _ | .freeReq _ | .returned (some _) => false

def Request.Built (req : Request) : Prop :=
  req.pc.filled = true → ∃ data, req.ureq.Payload data ∧ req.buf = req.ureq.outBuf data

/-- A step that leaves the buffer alone. -/
theorem built_of_buf {req req' : Request} (h : req.Built) (hureq : req'.ureq = req.ureq)
    (hbuf : req'.buf = req.buf) (hpc : req'.pc.filled = true → req.pc.filled = true) :
    req'.Built := by
  intro hfilled
  rw [hureq, hbuf]
  exact h (hpc hfilled)

theorem localStep_built {req req' : Request} (h : req.Built) (hs : LocalStep req req') :
    req'.Built := by
  cases hs with
  | moves hmoves =>
    refine built_of_buf h rfl rfl fun hfilled => ?_
    generalize req.pc = pc at hmoves
    cases hmoves with
    | kick => rfl
    | _ => cases hfilled
  | @payload data hpc hlen hptr hdata =>
    exact fun _ => ⟨data, fun _ => hdata, (if_pos ⟨hlen, hptr⟩).symm⟩
  | inline hpc hno => exact fun _ => ⟨[], fun hpay => absurd hpay hno, (if_neg hno).symm⟩

theorem issueStep_built {s s' : KernelState} {r : Nat} {out : Outcome}
    (h : ∀ req ∈ s.reqs, req.Built) (hs : s.issueStep r out = some s') :
    ∀ req ∈ s'.reqs, req.Built := by
  have hset {req req' : Request} (hr : s.reqs[r]? = some req) (hb : req.Built → req'.Built) :
      ∀ x ∈ s.reqs.set r req', x.Built := by
    intro x hx
    rcases List.mem_or_eq_of_mem_set hx with hx | rfl
    · exact h x hx
    · exact hb (h req (List.mem_of_getElem? hr))
  cases issueStep_cases hs with
  | own hr hlocal => exact hset hr fun hb => localStep_built hb hlocal
  | xaAlloc hr hpc _ _ _ | lockVq hr hpc _ | addSgs hr hpc =>
    exact hset hr fun hb => built_of_buf hb rfl rfl fun _ => by rw [hpc]; rfl
  | @unlockVq req ret hr hpc =>
    refine hset hr fun hb => built_of_buf hb rfl rfl fun hfilled => ?_
    rw [hpc]
    cases ret with
    | none => rfl
    | some e => cases hfilled
  | xaErase hr hpc =>
    refine hset hr fun hb => built_of_buf hb rfl rfl fun hfilled => ?_
    cases hfilled

theorem built_step {s s' : KernelState} {a : KernelAct} (h : ∀ req ∈ s.reqs, req.Built)
    (hs : s.step a = some s') : ∀ req ∈ s'.reqs, req.Built := by
  cases KernelState.step_cases hs with
  | uringCmd ureq =>
    intro req hmem
    rcases List.mem_append.mp hmem with hmem | hmem
    · exact h req hmem
    · cases List.mem_singleton.mp hmem
      intro hfilled
      cases hfilled
  | issue hs => exact issueStep_built h hs
  | complete hr hmem =>
    intro x hx
    rcases List.mem_or_eq_of_mem_set hx with hx | rfl
    · exact h x hx
    · exact built_of_buf (h _ (List.mem_of_getElem? hr)) rfl rfl id
  | worker hs =>
    rw [workerStep_reqs hs]
    exact h
  | interrupt hirq hidle | disableCb hp | scheduleWork hp | startWork hsched hidle => exact h

theorem reach_built {s : KernelState} {G : KernelState → KernelAct → Prop}
    (h : Reach kernelSystem G s) : ∀ req ∈ s.reqs, req.Built := by
  refine h.invariant (P := fun s => ∀ req ∈ s.reqs, req.Built) ?_ ?_
  · rintro s rfl req hmem
    cases hmem
  · intro s a s' hP _ hs
    exact built_step hP hs

/-! ## Two requests with different opcodes -/

theorem fillBuf_of_length {n : Nat} {src : List UInt8} (h : src.length = n) : fillBuf n src = src := by
  rw [fillBuf, h, Nat.sub_self, List.replicate_zero, List.append_nil]

variable {u u1 u2 : CmdReq} {d d1 d2 : List UInt8}

theorem outBuf_of_payload (h : u.HasPayload) (hd : u.Payload d) : u.outBuf d = d := by
  have hlen : d.length = u.bufLen := by
    rw [hd h, CmdReq.bufLen, if_neg h.1]
  rw [CmdReq.outBuf, if_pos h, fillBuf_of_length hlen]

theorem CmdReq.bytes_length (u : CmdReq) : u.bytes.length = 24 := rfl

theorem inlineBuf_length (u : CmdReq) : u.inlineBuf.length = u.bufLen := by
  rw [CmdReq.inlineBuf, fillBuf, List.length_append, List.length_replicate, List.length_take,
    u.bytes_length]
  omega

/-- The opcode is the first of what is in the buffer. -/
theorem inlineBuf_take (u : CmdReq) {n : Nat} (hn : n ≤ 4) (hlen : n ≤ u.bufLen) :
    u.inlineBuf.take n = (le32 u.opcode).take n := by
  have hbytes : u.bytes.take n = (le32 u.opcode).take n := by
    rw [CmdReq.bytes, List.append_assoc, List.append_assoc, List.append_assoc, List.append_assoc,
      List.take_append_of_le_length (by rw [le32_length]; exact hn)]
  have hfits : n ≤ (u.bytes.take (min u.bufLen 24)).length := by
    rw [List.length_take, u.bytes_length]
    omega
  rw [CmdReq.inlineBuf, fillBuf, List.take_append_of_le_length hfits, List.take_take,
    Nat.min_eq_left (by omega), hbytes]

/-- The commands are cut to the same length, which is too short for the opcodes, and to
the same bytes. -/
def CmdReq.SameStub (u1 u2 : CmdReq) : Prop :=
  u1.bufLen = u2.bufLen ∧ u1.bufLen < 4 ∧
    (le32 u1.opcode).take u1.bufLen = (le32 u2.opcode).take u1.bufLen

theorem inlineBuf_eq_iff (hop : u1.opcode ≠ u2.opcode) :
    u1.inlineBuf = u2.inlineBuf ↔ u1.SameStub u2 := by
  refine ⟨?_, ?_⟩
  · intro heq
    have hlen : u1.bufLen = u2.bufLen := by
      rw [← inlineBuf_length, heq, inlineBuf_length]
    have htake {n : Nat} (hn : n ≤ 4) (hle : n ≤ u1.bufLen) :
        (le32 u1.opcode).take n = (le32 u2.opcode).take n := by
      rw [← inlineBuf_take u1 hn hle, heq, inlineBuf_take u2 hn (hlen ▸ hle)]
    have hshort : u1.bufLen < 4 := by
      refine Nat.lt_of_not_le fun hle => hop (le32_inj ?_)
      exact htake (Nat.le_refl 4) hle
    exact ⟨hlen, hshort, htake (Nat.le_of_lt hshort) (Nat.le_refl _)⟩
  · rintro ⟨hlen, hshort, hbytes⟩
    have hwhole (u : CmdReq) (hu : u.bufLen = u1.bufLen) :
        u.inlineBuf = (le32 u.opcode).take u1.bufLen := by
      rw [← inlineBuf_take u (Nat.le_of_lt hshort) (Nat.le_of_eq hu.symm), ← hu,
        ← inlineBuf_length, List.take_length]
    rw [hwhole u1 rfl, hwhole u2 hlen.symm, hbytes]

/-- The firmware cannot tell the requests apart: they have the same payload, or their
commands are cut to the same bytes, or the payload of one looks like the command of the
other. -/
def CmdReq.Confused (u1 : CmdReq) (d1 : List UInt8) (u2 : CmdReq) (d2 : List UInt8) : Prop :=
  (u1.HasPayload ∧ u2.HasPayload ∧ d1 = d2) ∨
  (¬u1.HasPayload ∧ ¬u2.HasPayload ∧ u1.SameStub u2) ∨
  (u1.HasPayload ∧ ¬u2.HasPayload ∧ d1 = u2.inlineBuf) ∨
  (¬u1.HasPayload ∧ u2.HasPayload ∧ u1.inlineBuf = d2)

theorem outBuf_eq_iff (hd1 : u1.Payload d1) (hd2 : u2.Payload d2) (hop : u1.opcode ≠ u2.opcode) :
    u1.outBuf d1 = u2.outBuf d2 ↔ u1.Confused d1 u2 d2 := by
  have hinline (u : CmdReq) (d : List UInt8) (h : ¬u.HasPayload) : u.outBuf d = u.inlineBuf :=
    if_neg h
  rcases Decidable.em u1.HasPayload with h1 | h1 <;> rcases Decidable.em u2.HasPayload with h2 | h2
  · rw [outBuf_of_payload h1 hd1, outBuf_of_payload h2 hd2]
    simp [CmdReq.Confused, h1, h2]
  · rw [outBuf_of_payload h1 hd1, hinline u2 d2 h2]
    simp [CmdReq.Confused, h1, h2]
  · rw [hinline u1 d1 h1, outBuf_of_payload h2 hd2]
    simp [CmdReq.Confused, h1, h2]
  · rw [hinline u1 d1 h1, hinline u2 d2 h2, inlineBuf_eq_iff hop]
    simp [CmdReq.Confused, h1, h2]

theorem filled_of_added {pc : IssuePc} (h : pc.added = true) : pc.filled = true := by
  unfold IssuePc.added at h
  split at h
  · rfl
  · rfl
  · rfl
  · cases h

/-- For any two requests of any run that are on the virtqueue: their out-buffers are
made of their commands and payloads `d1` and `d2`, and where the opcodes differ, the
out-buffers do so if and only if the requests cannot be confused. -/
theorem outBuf_opcode_iff {s : KernelState} (h : Reach kernelSystem (fun _ _ => True) s)
    {r1 r2 : Nat} {q1 q2 : Request} (h1 : s.reqs[r1]? = some q1) (h2 : s.reqs[r2]? = some q2)
    (ha1 : q1.pc.added = true) (ha2 : q2.pc.added = true)
    (hop : q1.ureq.opcode ≠ q2.ureq.opcode) :
    ∃ d1 d2, q1.ureq.Payload d1 ∧ q1.buf = q1.ureq.outBuf d1 ∧ q2.ureq.Payload d2 ∧
      q2.buf = q2.ureq.outBuf d2 ∧ (q1.buf ≠ q2.buf ↔ ¬q1.ureq.Confused d1 q2.ureq d2) := by
  obtain ⟨d1, hd1, hb1⟩ := reach_built h q1 (List.mem_of_getElem? h1) (filled_of_added ha1)
  obtain ⟨d2, hd2, hb2⟩ := reach_built h q2 (List.mem_of_getElem? h2) (filled_of_added ha2)
  refine ⟨d1, d2, hd1, hb1, hd2, hb2, ?_⟩
  rw [hb1, hb2, ne_eq, outBuf_eq_iff hd1 hd2 hop]

/-- Call `r`, with the opcode `op` and the payload `data` in user memory, is queued with
request id `k`. -/
def queuedPayload (r k : Nat) (op : UInt32) (data : List UInt8) : List KernelAct :=
  [.uringCmd ⟨op, 0, 0x10000, UInt32.ofNat data.length, 0⟩, .issue r .ok, .issue r .ok, .issue r .ok,
    .issue r (.copied data), .issue r (.id k), .issue r .ok, .issue r .ok, .issue r .ok,
    .issue r .ok]

/-- Requests with the opcodes 1 and 2 and the payloads `d1` and `d2` are accepted. -/
theorem exists_accepted (d1 d2 : List UInt8)
    (hrun : (replay kernelSystem (fun _ _ => true) .initial
      (queuedPayload 0 1 1 d1 ++ queuedPayload 1 2 2 d2)).map
        (fun s => (s.reqs[0]?.map fun q => (q.pc, q.ureq.opcode, q.buf),
          s.reqs[1]?.map fun q => (q.pc, q.ureq.opcode, q.buf))) =
      some (some (.returned none, 1, d1), some (.returned none, 2, d2))) :
    ∃ (s : KernelState) (q1 q2 : Request), Reach kernelSystem (fun _ _ => True) s ∧
      s.reqs[0]? = some q1 ∧ s.reqs[1]? = some q2 ∧ q1.pc = .returned none ∧
      q2.pc = .returned none ∧ q1.ureq.opcode = 1 ∧ q2.ureq.opcode = 2 ∧ q1.buf = d1 ∧
      q2.buf = d2 := by
  obtain ⟨s, hs, hview⟩ := Option.map_eq_some_iff.mp hrun
  have hinit : Reach kernelSystem (fun _ _ => True) .initial := .init rfl
  have hreach := replay_reach (fun _ _ _ => trivial) hinit hs
  obtain ⟨hview1, hview2⟩ := Prod.mk.inj hview
  obtain ⟨q1, h1, hq1⟩ := Option.map_eq_some_iff.mp hview1
  obtain ⟨q2, h2, hq2⟩ := Option.map_eq_some_iff.mp hview2
  simp only [Prod.mk.injEq] at hq1 hq2
  exact ⟨s, q1, q2, hreach, h1, h2, hq1.1, hq2.1, hq1.2.1, hq2.2.1, hq1.2.2, hq2.2.2⟩

/-- The same payload makes the same out-buffer. -/
theorem outBuf_opcode_lost :
    ¬∀ s, Reach kernelSystem (fun _ _ => True) s → ∀ (r1 r2 : Nat) (q1 q2 : Request),
      s.reqs[r1]? = some q1 → s.reqs[r2]? = some q2 → q1.pc = .returned none →
      q2.pc = .returned none → q1.ureq.opcode ≠ q2.ureq.opcode → q1.buf ≠ q2.buf := by
  intro hall
  obtain ⟨s, q1, q2, hreach, h1, h2, hpc1, hpc2, hop1, hop2, hbuf1, hbuf2⟩ :=
    exists_accepted [0xAA, 0xBB] [0xAA, 0xBB] rfl
  refine hall s hreach 0 1 q1 q2 h1 h2 hpc1 hpc2 ?_ (hbuf1.trans hbuf2.symm)
  rw [hop1, hop2]
  decide

theorem outBuf_opcode_iff_two :
    ∃ (q1 q2 : Request) (d1 d2 : List UInt8), q1.buf = [0xAA] ∧ q2.buf = [0xBB] ∧
      (q1.buf ≠ q2.buf ↔ ¬q1.ureq.Confused d1 q2.ureq d2) := by
  obtain ⟨s, q1, q2, hreach, h1, h2, hpc1, hpc2, hop1, hop2, hbuf1, hbuf2⟩ :=
    exists_accepted [0xAA] [0xBB] rfl
  obtain ⟨d1, d2, _, _, _, _, hiff⟩ := outBuf_opcode_iff hreach h1 h2 (by rw [hpc1]; rfl)
    (by rw [hpc2]; rfl) (by rw [hop1, hop2]; decide)
  exact ⟨q1, q2, d1, d2, hbuf1, hbuf2, hiff⟩

end Deepspan
