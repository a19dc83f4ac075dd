import Ipcf.Split.Patch
import Ipcf.Split.Reassembly

/-!
# Receiving a packet from an honest sender

A session `Receives` a packet when it was opened by its headers and every bit that is set stands
for a slice that is stored where it belongs.  Slices of the packet, and slices that fail their
checksum, keep it so (`receives_patchRse`).  When every bit is set the data is the payload
(`read_of_full`), so its checksum is the announced one: a session of an honest sender never asks
for everything again.

The three lemmas at the end are the receiver as the protocol sees it: what a DATA frame, a request
for an acknowledgement, and a PATCH frame do to such a session.
-/

namespace Ipcf

/-- The session was opened by the headers of the packet, and holds the slices whose bits are set. -/
structure Receives (p : Packet) (se : Rse) : Prop where
  seqExp : se.seqExp = p.seq
  nSlices : se.nSlices.toNat = p.slices
  msglen : se.msglen.toNat = p.payload.length
  dCsum : se.dCsum = csum32 p.payload
  nak : se.nak = false
  bits : ∀ j, bit se.bitmap j = true → j < p.slices
  stored : ∀ j, bit se.bitmap j = true →
    se.data.read (sliceDataLen * j) (chunk p.payload j).length = chunk p.payload j

/-- Every slice of the packet is there. -/
def Full (p : Packet) (se : Rse) : Prop := ∀ j < p.slices, bit se.bitmap j = true

/-- A slice of the packet, or none at all. -/
def SliceFrom (p : Packet) (s : Bytes) : Prop :=
  sliceCsumOk s = false ∨ ∃ k < p.slices, s = sliceOf p.payload k

section

variable {p : Packet} {se : Rse}

/-- The timer and the flag of completion do not matter. -/
lemma Receives.update (h : Receives p se) (t : ℤ) (c : Bool) :
    Receives p { se with idleTimeout := t, completed := c } :=
  ⟨h.seqExp, h.nSlices, h.msglen, h.dCsum, h.nak, h.bits, h.stored⟩

/-! ## A complete bitmap -/

lemma Receives.testAllBitsSet_iff (h : Receives p se) :
    testAllBitsSet se.bitmap se.nSlices = true ↔ Full p se := by
  rw [Ipcf.testAllBitsSet_iff, h.nSlices]
  constructor
  · rintro ⟨hall, -⟩
    exact hall
  · intro hall
    refine ⟨hall, fun _ i hi _ => ?_⟩
    rw [← Bool.not_eq_true]
    intro hbit
    exact absurd (h.bits i hbit) (Nat.not_lt.2 hi)

/-- With all slices stored, the data is the payload. -/
lemma Receives.read_of_full (h : Receives p se) (hfull : Full p se) :
    se.data.read 0 se.msglen.toNat = p.payload := by
  rw [h.msglen]
  apply List.ext_getElem?
  intro i
  rw [Buffer.getElem?_read, Nat.zero_add]
  by_cases hi : i < p.payload.length
  · rw [if_pos hi]
    have hj : i / sliceDataLen < p.slices := by
      simp only [Packet.slices, sliceCount, sliceDataLen]
      omega
    have hsplit : sliceDataLen * (i / sliceDataLen) + i % sliceDataLen = i := Nat.div_add_mod i _
    have hmod : i % sliceDataLen < sliceDataLen := Nat.mod_lt _ (by decide)
    have hin : i % sliceDataLen < (chunk p.payload (i / sliceDataLen)).length := by
      rw [length_chunk, Nat.lt_min]
      exact ⟨hmod, by omega⟩
    have hcell := congrArg (fun l => l[i % sliceDataLen]?) (h.stored _ (hfull _ hj))
    rw [Buffer.getElem?_read, if_pos hin, hsplit] at hcell
    rw [hcell, chunk, List.getElem?_take, if_pos hmod, List.getElem?_drop, hsplit]
  · rw [if_neg hi, List.getElem?_eq_none (Nat.le_of_not_lt hi)]

/-! ## Storing slices -/

/-- The length `cp_slice_to_rse` copies is that of the part of the payload in the slice. -/
lemma Receives.sliceLenAt_eq (h : Receives p se) {k : ℕ} (hk : k < p.slices) :
    sliceLenAt se.nSlices se.msglen (UInt8.ofNat k) = (chunk p.payload k).length := by
  have hk' := Packet.toNat_ofNat hk
  have hcount : p.slices = (p.payload.length + 32 - 1) / 32 := rfl
  have harith : ∀ n c : ℕ, c = (n + 32 - 1) / 32 → k < c →
      (if k + 1 = c ∧ n % 32 ≠ 0 then n % 32 else 32) = min 32 (n - 32 * k) := by
    intro n c hc hkc
    split_ifs <;> omega
  rw [sliceLenAt, hk', h.nSlices, h.msglen, length_chunk]
  exact harith _ _ hcount hk

/-- A slice of the packet is stored where it belongs. -/
lemma Receives.cpSliceToRse_eq (h : Receives p se) {k : ℕ} (hk : k < p.slices) :
    (cpSliceToRse se (sliceOf p.payload k)).1 =
      { se with
        data := se.data.write (sliceDataLen * k) (chunk p.payload k)
        bitmap := setBit se.bitmap (UInt8.ofNat k) } := by
  have hk' := Packet.toNat_ofNat hk
  have hchunk := length_chunk_le p.payload k
  have hseq : sliceSeq (sliceOf p.payload k) = UInt8.ofNat k := sliceSeq_fillSliceK _ _
  rcases cpSliceToRse_cases se (sliceOf p.payload k) with ⟨hbad, -⟩ | ⟨-, -, heq⟩
  · exfalso
    rcases hbad with hbad | hbad
    · rw [sliceCsumOk_sliceOf] at hbad
      cases hbad
    · rw [hseq, UInt8.lt_iff_toNat_lt, hk', h.nSlices] at hbad
      omega
  · have hcopied : (sliceData (sliceOf p.payload k)).take
        (sliceLenAt se.nSlices se.msglen (sliceSeq (sliceOf p.payload k))) = chunk p.payload k := by
      rw [hseq, h.sliceLenAt_eq hk, sliceOf, sliceData_fillSliceK _ hchunk, List.take_left]
    rw [heq, hcopied, hseq, hk']

/-- Storing a slice of the packet. -/
lemma Receives.cpSliceToRse_sliceOf (h : Receives p se) {k : ℕ} (hk : k < p.slices) :
    Receives p (cpSliceToRse se (sliceOf p.payload k)).1 ∧
      ∀ j, bit (cpSliceToRse se (sliceOf p.payload k)).1.bitmap j =
        (decide (j = k) || bit se.bitmap j) := by
  have hle := p.slices_le
  have hk' := Packet.toNat_ofNat hk
  have hchunk := length_chunk_le p.payload k
  rw [h.cpSliceToRse_eq hk]
  have hbit : ∀ j, bit (setBit se.bitmap (UInt8.ofNat k)) j =
      (decide (j = k) || bit se.bitmap j) := by
    intro j
    rw [bit_setBit, hk']
    congr 1
    apply decide_eq_decide.2
    constructor
    · exact fun hj => hj.1
    · rintro rfl
      refine ⟨rfl, ?_⟩
      rw [bitmap32Size_eq]
      rw [maxSliceNum_eq] at hle
      omega
  refine ⟨⟨h.seqExp, h.nSlices, h.msglen, h.dCsum, h.nak, ?_, ?_⟩, hbit⟩
  · intro j hj
    simp only [hbit, Bool.or_eq_true, decide_eq_true_eq] at hj
    rcases hj with rfl | hj
    · exact hk
    · exact h.bits j hj
  · intro j hj
    simp only [hbit, Bool.or_eq_true, decide_eq_true_eq] at hj
    have hroom : sliceDataLen * k + (chunk p.payload k).length ≤ linkMtu := by
      simp only [sliceDataLen, linkMtu] at *
      rw [maxSliceNum_eq] at hle
      omega
    have hchunkj := length_chunk_le p.payload j
    by_cases hjk : j = k
    · rw [hjk]
      exact Buffer.read_write _ hroom
    · have hold := h.stored j (hj.resolve_left hjk)
      rcases Nat.lt_or_gt_of_ne hjk with hlt | hlt
      · rw [Buffer.read_write_of_ge _ ?_, hold]
        simp only [sliceDataLen] at *
        omega
      · rw [Buffer.read_write_of_le _ _ ?_, hold]
        simp only [sliceDataLen] at *
        omega

lemma Receives.cpSliceToRse_bad {s : Bytes} (hs : sliceCsumOk s = false) :
    (cpSliceToRse se s).1 = se := by
  rcases cpSliceToRse_cases se s with ⟨-, heq⟩ | ⟨hok, -, -⟩
  · rw [heq]
  · rw [hs] at hok
    cases hok

/-- Slices of the packet, and slices that are none, keep the session receiving it. -/
lemma receives_patchRse (h : Receives p se) {data : Bytes} {n : ℕ}
    (hs : ∀ j < n, SliceFrom p (sliceAt data j)) : Receives p (patchRse se data n).1 := by
  refine (patchRse_induction (P := Receives p) h ?_).1
  intro se' j hj h'
  rcases hs j hj with hbad | ⟨k, hk, heq⟩
  · rw [Receives.cpSliceToRse_bad hbad]
    exact h'
  · rw [heq]
    exact (h'.cpSliceToRse_sliceOf hk).1

/-- The slices that arrive intact are those that are added to the bitmap. -/
lemma receives_patchRse_bit (h : Receives p se) {data : Bytes} {n : ℕ} (hn : n ≤ p.slices)
    (hs : ∀ j < n, sliceAt data j = sliceOf p.payload j ∨ sliceCsumOk (sliceAt data j) = false)
    (i : ℕ) :
    bit (patchRse se data n).1.bitmap i = true ↔
      (i < n ∧ sliceCsumOk (sliceAt data i) = true) ∨ bit se.bitmap i = true := by
  induction n with
  | zero => simp [patchRse]
  | succ n ih =>
    have hbefore : bit (patchRse se data n).1.bitmap i = true ↔
        (i < n ∧ sliceCsumOk (sliceAt data i) = true) ∨ bit se.bitmap i = true :=
      ih (by omega) fun j hj => hs j (by omega)
    have hsplit : (i < n + 1 ∧ sliceCsumOk (sliceAt data i) = true) ↔
        (i < n ∧ sliceCsumOk (sliceAt data i) = true) ∨
          (i = n ∧ sliceCsumOk (sliceAt data n) = true) := by
      rw [Nat.lt_succ_iff_lt_or_eq, or_and_right]
      exact or_congr_right (and_congr_right fun h => by rw [h])
    have hnew : Receives p (patchRse se data n).1 := by
      apply receives_patchRse h
      intro j hj
      rcases hs j (by omega) with heq | hbad
      · exact .inr ⟨j, by omega, heq⟩
      · exact .inl hbad
    rw [patchRse_snoc, hsplit]
    rcases hs n (Nat.lt_succ_self n) with heq | hbad
    · rw [heq, (hnew.cpSliceToRse_sliceOf (by omega)).2, Bool.or_eq_true, decide_eq_true_eq,
        hbefore, and_iff_left (sliceCsumOk_sliceOf _ _), or_assoc]
      exact or_left_comm
    · rw [Receives.cpSliceToRse_bad hbad, hbefore, hbad]
      simp

/-! ## The receiver -/

variable (stack : Stack) (fh : FrmHdr) {mh : MsgHdr} {data : Bytes}

/-- What the receiver tells the sender when it has every slice, and when it lacks some. -/
lemma Receives.sendAck_full (h : Receives p se) (hfull : Full p se) :
    (sendAck stack fh.src fh.dst se).1 =
      [framed (ackFrame fh.src fh.dst frameTypeAcka 0 p.seq [])] := by
  rw [sendAck_eq, h.nak, if_neg (by simp), if_pos (h.testAllBitsSet_iff.2 hfull), h.seqExp]

lemma Receives.sendAck_missing (h : Receives p se) (hmissing : ¬ Full p se) :
    ∃ req, (sendAck stack fh.src fh.dst se).1 =
        [framed (ackFrame fh.src fh.dst frameTypeAckp 0 p.seq req)] ∧
      req = ((List.range p.slices).filter fun j => !bit se.bitmap j).map UInt8.ofNat ∧ req ≠ [] ∧
      req.length ≤ 256 ∧ ∀ k ∈ req, k.toNat < p.slices := by
  have hne : (missing se.bitmap se.nSlices).1 ≠ [] := by
    intro hnil
    apply hmissing
    intro j hj
    rw [missing_eq, List.map_eq_nil_iff, List.filter_eq_nil_iff, h.nSlices] at hnil
    simpa using hnil j (List.mem_range.2 hj)
  have hlen := length_missing_le se.bitmap se.nSlices
  have hn := se.nSlices.toNat_lt
  refine ⟨(missing se.bitmap se.nSlices).1, ?_, ?_, hne, by omega, ?_⟩
  · rw [sendAck_eq, h.nak, if_neg (by simp), if_neg (mt h.testAllBitsSet_iff.1 hmissing),
      if_neg hne, h.seqExp]
  · rw [missing_eq, h.nSlices]
  · intro k hk
    rw [← h.nSlices]
    exact ((mem_missing_iff _ _ _).1 hk).1

/-- The headers of a packet open a session that receives it and holds nothing of it yet. -/
lemma receives_openRse (p : Packet) (smac dmac : UInt8) (se : Rse) :
    Receives p (openRse (p.hdrs smac dmac).2 se) ∧
      ∀ j, bit (openRse (p.hdrs smac dmac).2 se).bitmap j = false := by
  have hle := p.slices_le
  have hplen := p.length_le
  rw [p.hdrs_eq]
  set mh := msgHdr (csum32 p.payload) p.payload.length p.seq [] with hmh
  have hlen : mh.len.toNat = p.payload.length := by
    rw [hmh, msgHdr_len, UInt16.toNat_ofNat']
    rw [maxSliceNum_eq] at hplen
    simp only [sliceDataLen] at hplen
    omega
  have hclear : ∀ j, bit (openRse mh se).bitmap j = false := fun j => bit_clear j
  refine ⟨⟨rfl, ?_, hlen, rfl, rfl, ?_, ?_⟩, hclear⟩
  · change (announced mh.len).toNat = p.slices
    rw [announced, UInt8.toNat_ofNat', hlen]
    change p.slices % 256 = p.slices
    rw [maxSliceNum_eq] at hle
    omega
  · intro j hj
    rw [hclear j] at hj
    cases hj
  · intro j hj
    rw [hclear j] at hj
    cases hj

/-- The headers of a packet open the session, and all of it is asked for. -/
lemma procDataRse_hdrs (p : Packet) (smac dmac : UInt8) (se : Rse) :
    (procDataRse stack fh (p.hdrs smac dmac).2 [] se).se = openRse (p.hdrs smac dmac).2 se ∧
      (procDataRse stack fh (p.hdrs smac dmac).2 [] se).submitted = [] ∧
      (procDataRse stack fh (p.hdrs smac dmac).2 [] se).queued =
        [framed (ackFrame fh.src fh.dst frameTypeAckp 0 p.seq
          ((List.range p.slices).map UInt8.ofNat))] := by
  obtain ⟨hopen, hclear⟩ := receives_openRse p smac dmac se
  have hmissing : ¬ Full p (openRse (p.hdrs smac dmac).2 se) := by
    intro hfull
    have := hfull 0 p.slices_pos
    rw [hclear 0] at this
    cases this
  obtain ⟨q, hq, -, ⟨htest, -, -, -⟩ | ⟨-, hse, hqueued, hsub⟩⟩ :=
    @procDataRse_cases stack fh (p.hdrs smac dmac).2 [] se (by simp)
  · rw [hq] at htest
    exact absurd (hopen.testAllBitsSet_iff.1 htest) hmissing
  · have hq1 : q.1 = openRse (p.hdrs smac dmac).2 se := by rw [hq]; rfl
    rw [hq1] at hse hqueued
    obtain ⟨req, hack, hreq, -⟩ := hopen.sendAck_missing stack fh hmissing
    refine ⟨hse, hsub, ?_⟩
    rw [hqueued, hack, hreq, List.filter_eq_self.2 fun j _ => by simp [hclear j]]

/-- The headers of a packet open a session that receives it, and all of it is asked for. -/
lemma receives_data (p : Packet) (smac dmac : UInt8) (se : Rse) :
    Receives p (procDataRse stack fh (p.hdrs smac dmac).2 [] se).se ∧
      (∀ j, bit (procDataRse stack fh (p.hdrs smac dmac).2 [] se).se.bitmap j = false) ∧
      (procDataRse stack fh (p.hdrs smac dmac).2 [] se).se.completed = false ∧
      (procDataRse stack fh (p.hdrs smac dmac).2 [] se).submitted = [] ∧
      (procDataRse stack fh (p.hdrs smac dmac).2 [] se).queued =
        [framed (ackFrame fh.src fh.dst frameTypeAckp 0 p.seq
          ((List.range p.slices).map UInt8.ofNat))] := by
  obtain ⟨hopen, hclear⟩ := receives_openRse p smac dmac se
  obtain ⟨hse, hsub, hqueued⟩ := procDataRse_hdrs stack fh p smac dmac se
  rw [hse]
  exact ⟨hopen, hclear, rfl, hsub, hqueued⟩

/-- A request for an acknowledgement changes nothing; it is answered if it names the packet that
is received. -/
lemma receives_ackReq (h : Receives p se) (mh : MsgHdr) :
    (procAckReqRse stack fh mh se).se = se ∧ (procAckReqRse stack fh mh se).submitted = [] ∧
      (procAckReqRse stack fh mh se).queued =
        if mh.seq = p.seq then (sendAck stack fh.src fh.dst se).1 else [] := by
  rw [procAckReqRse, h.seqExp]
  by_cases hseq : mh.seq = p.seq
  · rw [if_pos hseq, if_pos hseq.symm]
    exact ⟨rfl, rfl, rfl⟩
  · rw [if_neg hseq, if_neg (Ne.symm hseq)]
    exact ⟨rfl, rfl, rfl⟩

/-- A PATCH frame of another packet, or for a message that is completed, changes nothing;
otherwise its slices are stored, and when none is missing the payload is submitted and
acknowledged. -/
lemma receives_patch (h : Receives p se) (hdata : data.length ≤ linkMtu)
    (hs : se.completed = false → mh.seq = p.seq →
      ∀ j < patchSlices mh data, SliceFrom p (sliceAt data j)) :
    ((mh.seq ≠ p.seq ∨ se.completed = true) ∧ procPatchRse stack fh mh data se =
        { se := se, queued := [], submitted := [], accesses := [] }) ∨
    (mh.seq = p.seq ∧ se.completed = false ∧
      ∃ se', se' = (patchRse se data (patchSlices mh data)).1 ∧ Receives p se' ∧
        ((Full p se' ∧ (procPatchRse stack fh mh data se).se = { se' with completed := true } ∧
          (procPatchRse stack fh mh data se).queued =
            [framed (ackFrame fh.src fh.dst frameTypeAcka 0 p.seq [])] ∧
          (procPatchRse stack fh mh data se).submitted = [p.payload]) ∨
        (¬ Full p se' ∧ (procPatchRse stack fh mh data se).se = se' ∧
          (procPatchRse stack fh mh data se).queued = [] ∧
          (procPatchRse stack fh mh data se).submitted = []))) := by
  have hseqExp := h.seqExp
  rcases procPatchRse_cases stack fh mh se hdata with
    ⟨hcond, heq⟩ | ⟨hseq, hpending, q, hq, -, hres⟩
  · left
    refine ⟨?_, heq⟩
    rw [hseqExp] at hcond
    exact hcond.imp Ne.symm id
  · right
    have hseq' : mh.seq = p.seq := by rw [← hseq, hseqExp]
    have hnew : Receives p q.1 := by
      rw [hq]
      exact receives_patchRse h (hs hpending hseq')
    refine ⟨hseq', hpending, q.1, by rw [hq], hnew, ?_⟩
    rcases hres with ⟨htest, hse, hqueued, hsub⟩ | ⟨htest, hse, hqueued, hsub⟩
    · left
      have hfull := hnew.testAllBitsSet_iff.1 htest
      have hread := hnew.read_of_full hfull
      have hle : q.1.msglen.toNat ≤ linkMtu := by
        have hplen := p.length_le
        rw [hnew.msglen]
        rw [maxSliceNum_eq] at hplen
        simp only [sliceDataLen, linkMtu] at *
        omega
      rcases finishRse_cases stack fh q.1 with ⟨hbad, -⟩ | ⟨-, hse', hq', hs'⟩
      · rw [hread, hnew.dCsum] at hbad
        exact absurd rfl hbad
      · refine ⟨hfull, hse.trans hse', ?_, ?_⟩
        · rw [hqueued, hq', hnew.sendAck_full stack fh hfull]
        · rw [hsub, hs', dataNode, if_pos hle, ← hread, Buffer.read, List.drop_zero]
    · right
      refine ⟨fun hfull => ?_, hse, hqueued, hsub⟩
      rw [hnew.testAllBitsSet_iff.2 hfull] at htest
      cases htest

end

end Ipcf
