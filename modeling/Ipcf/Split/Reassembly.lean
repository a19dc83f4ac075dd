import Ipcf.Split.Accept
import Ipcf.Split.Packet

/-!
# Reassembly

What one call does to a receive session, stated so that no later proof unfolds the functions of
`Split/Receive.lean`: the list of missing slices is the list of clear bits (`missing_eq`),
`sendAck_eq` is what an acknowledgement is, and `procDataRse_cases` and `procPatchRse_cases` are
all that can happen to a session.
-/

namespace Ipcf

/-! ## The missing slices -/

section

variable {w : ℕ} (map : Bitmap w) (n : UInt8)

lemma missingLoop_spec (fuel : ℕ) (k : UInt8) (h : n.toNat ≤ k.toNat + fuel) :
    (missingLoop map n fuel k).1 =
        ((List.range' k.toNat (n.toNat - k.toNat)).filter fun i => !bit map i).map UInt8.ofNat ∧
      ∀ x ∈ (missingLoop map n fuel k).2, 32 * x < n.toNat := by
  induction fuel generalizing k with
  | zero => simp [missingLoop, show n.toNat - k.toNat = 0 by omega]
  | succ fuel ih =>
    have hwords := findFirstZeroRun_words map k n
    have hn := n.toNat_lt
    rcases findFirstZero_spec map k n with ⟨hret, hall⟩ | ⟨i, hret, hki, hin, hclear, hall⟩
    · have hrun : (findFirstZeroRun map k n).1 = -1 := hret
      rw [missingLoop, hrun]
      simp only [Int.reduceNeg, Int.reduceLT, if_true]
      refine ⟨?_, hwords⟩
      rw [List.filter_eq_nil_iff.2, List.map_nil]
      intro j hj
      rw [List.mem_range'_1] at hj
      simp [hall j (by omega) (by omega)]
    · have hi : (UInt8.ofNat i).toNat = i := by
        rw [UInt8.toNat_ofNat']
        omega
      have hsucc : (UInt8.ofNat i + 1).toNat = i + 1 := by
        rw [UInt8.toNat_add, hi]
        simp only [UInt8.reduceToNat]
        omega
      obtain ⟨hlist, hrest⟩ := ih (UInt8.ofNat i + 1) (by omega)
      have hloop : missingLoop map n (fuel + 1) k =
          (UInt8.ofNat i :: (missingLoop map n fuel (UInt8.ofNat i + 1)).1,
            (findFirstZeroRun map k n).2 ++ (missingLoop map n fuel (UInt8.ofNat i + 1)).2) := by
        have hrun : (findFirstZeroRun map k n).1 = (i : ℤ) := hret
        rw [missingLoop, hrun]
        simp only [Int.toNat_natCast]
        rw [if_neg (by omega)]
      rw [hloop]
      constructor
      · have hsplit : List.range' k.toNat (n.toNat - k.toNat) =
            List.range' k.toNat (i - k.toNat) ++ i :: List.range' (i + 1) (n.toNat - (i + 1)) := by
          rw [show n.toNat - k.toNat = (i - k.toNat) + (n.toNat - i) by omega,
            ← List.range'_append_1, show k.toNat + (i - k.toNat) = i by omega,
            show n.toNat - i = (n.toNat - (i + 1)) + 1 by omega, List.range'_succ]
        have hnone : (List.range' k.toNat (i - k.toNat)).filter (fun j => !bit map j) = [] := by
          rw [List.filter_eq_nil_iff]
          intro j hj
          rw [List.mem_range'_1] at hj
          simp [hall j (by omega) (by omega)]
        rw [hsplit, List.filter_append, hnone, List.nil_append, List.filter_cons,
          if_pos (by simp [hclear]), List.map_cons, hlist, hsucc]
      · intro x hx
        rcases List.mem_append.1 hx with hx | hx
        · exact hwords x hx
        · exact hrest x hx

/-- The list that is sent back is the list of clear bits below `n`. -/
lemma missing_eq :
    (missing map n).1 = ((List.range n.toNat).filter fun i => !bit map i).map UInt8.ofNat := by
  have := (missingLoop_spec map n 256 0 (by have := n.toNat_lt; omega)).1
  rw [missing, this, List.range_eq_range']
  rfl

lemma missing_words : ∀ x ∈ (missing map n).2, 32 * x < n.toNat :=
  (missingLoop_spec map n 256 0 (by have := n.toNat_lt; omega)).2

lemma mem_missing_iff (k : UInt8) :
    k ∈ (missing map n).1 ↔ k.toNat < n.toNat ∧ bit map k.toNat = false := by
  rw [missing_eq, List.mem_map]
  constructor
  · rintro ⟨i, hi, rfl⟩
    obtain ⟨hlt, hclear⟩ := List.mem_filter.1 hi
    rw [List.mem_range] at hlt
    have hn := n.toNat_lt
    have : (UInt8.ofNat i).toNat = i := by
      rw [UInt8.toNat_ofNat']
      omega
    rw [this]
    exact ⟨hlt, by simpa using hclear⟩
  · rintro ⟨hlt, hclear⟩
    exact ⟨k.toNat, List.mem_filter.2 ⟨List.mem_range.2 hlt, by simp [hclear]⟩, by simp⟩

lemma length_missing_le : (missing map n).1.length ≤ n.toNat := by
  rw [missing_eq, List.length_map]
  have := List.length_filter_le (fun i => !bit map i) (List.range n.toNat)
  rw [List.length_range] at this
  exact this

end

/-! ## Acknowledgements -/

lemma escapedLen_ackFrame_le (dst src type reserved seq : UInt8) {data : Bytes}
    (h : data.length ≤ 256) : escapedLen (ackFrame dst src type reserved seq data) ≤ linkMtu := by
  apply escapedLen_le_linkMtu
  rw [length_ackFrame]
  simp only [frmMsgHdrLen, frmHdrLen, msgHdrLen]
  omega

/-- **`send_ack`.** Nothing, or one complete frame: a full acknowledgement when the completion test
holds, else the list of the missing slices, when there is one. -/
lemma sendAck_eq (stack : Stack) (dst src : UInt8) (se : Rse) :
    (sendAck stack dst src se).1 =
      if se.nak then []
      else if testAllBitsSet se.bitmap se.nSlices then
        [framed (ackFrame dst src frameTypeAcka 0 se.seqExp [])]
      else if (missing se.bitmap se.nSlices).1 = [] then []
      else
        [framed (ackFrame dst src frameTypeAckp 0 se.seqExp
          (missing se.bitmap se.nSlices).1)] := by
  have hlen := length_missing_le se.bitmap se.nSlices
  have hn := se.nSlices.toNat_lt
  rw [sendAck, testAllBitsSet]
  cases se.nak with
  | true => rfl
  | false =>
    simp only [Bool.false_eq_true, if_false]
    cases htest : (testAllBitsSetRun se.bitmap se.nSlices).1 with
    | true =>
      simp only [if_true]
      exact putEscaped_fits _ (escapedLen_ackFrame_le _ _ _ _ _ (by simp))
    | false =>
      simp only [Bool.false_eq_true, if_false]
      split_ifs with hnil
      · rfl
      · exact putEscaped_fits _ (escapedLen_ackFrame_le _ _ _ _ _ (by omega))

/-- An acknowledgement is of one of its two types. -/
lemma frameType_sendAck {stack : Stack} {dst src : UInt8} {se : Rse} {f : Bytes}
    (hf : f ∈ (sendAck stack dst src se).1) :
    frameType f = some frameTypeAcka ∨ frameType f = some frameTypeAckp := by
  have htype : ∀ (type : UInt8) {data : Bytes}, data.length ≤ 256 →
      frameType (framed (ackFrame dst src type 0 se.seqExp data)) = some type := by
    intro type data hdata
    rw [frameType, recvBuf_framed (escapedLen_ackFrame_le _ _ _ _ _ hdata), ackFrame,
      List.append_assoc, FrmHdr.read_bytes_append]
    rfl
  have hlen := length_missing_le se.bitmap se.nSlices
  have hn := se.nSlices.toNat_lt
  rw [sendAck_eq] at hf
  split_ifs at hf
  · simp at hf
  · left
    rw [List.mem_singleton.1 hf]
    exact htype _ (by simp)
  · simp at hf
  · right
    rw [List.mem_singleton.1 hf]
    exact htype _ (by omega)

/-- Every word the acknowledgement looks at holds a bit below `n_slices`. -/
lemma sendAck_accesses (stack : Stack) (dst src : UInt8) (se : Rse) :
    ∀ a ∈ (sendAck stack dst src se).2, ∃ x, a = .word x ∧ 32 * x < se.nSlices.toNat := by
  have htest := testAllBitsSetRun_words se.bitmap se.nSlices
  have hmiss := missing_words se.bitmap se.nSlices
  have hboth : ∀ a ∈ ((testAllBitsSetRun se.bitmap se.nSlices).2 ++
      (missing se.bitmap se.nSlices).2).map Access.word,
      ∃ x, a = .word x ∧ 32 * x < se.nSlices.toNat := by
    intro a ha
    obtain ⟨x, hx, rfl⟩ := List.mem_map.1 ha
    exact ⟨x, rfl, (List.mem_append.1 hx).elim (htest x) (hmiss x)⟩
  intro a ha
  simp only [sendAck] at ha
  split_ifs at ha
  · simp at ha
  · obtain ⟨x, hx, rfl⟩ := List.mem_map.1 ha
    exact ⟨x, rfl, htest x hx⟩
  · exact hboth a ha
  · exact hboth a ha

lemma accept_acka (dst src seq : UInt8) :
    accept (framed (ackFrame dst src frameTypeAcka 0 seq [])) =
      some (.ackAll (frmHdr src dst frameTypeAcka 0 frmMsgHdrLen)
        (msgHdr 0xffffffff 0 seq [])) := by
  rw [accept_framed (escapedLen_ackFrame_le _ _ _ _ _ (by simp)), ackFrame]
  exact acceptBuf_ackAll [] rfl (csumOk_frmHdr ..) (csumOk_msgHdr ..)

lemma accept_ackp (dst src seq : UInt8) {data : Bytes} (hne : data ≠ [])
    (hlen : data.length ≤ 256) :
    accept (framed (ackFrame dst src frameTypeAckp 0 seq data)) =
      some (.ackPart (frmHdr src dst frameTypeAckp 0 (frmMsgHdrLen + data.length))
        (msgHdr 0xffffffff data.length seq data) data) := by
  rw [accept_framed (escapedLen_ackFrame_le _ _ _ _ _ hlen), ackFrame]
  apply acceptBuf_ackPart rfl (csumOk_frmHdr ..) (List.length_pos_iff.2 hne) ?_ (csumOk_msgHdr ..)
  rw [msgHdr_len, UInt16.toNat_ofNat']
  omega

lemma accept_ackr (dst src reserved seq : UInt8) :
    accept (framed (ackFrame dst src frameTypeAckr reserved seq [])) =
      some (.ackReq (frmHdr src dst frameTypeAckr reserved frmMsgHdrLen)
        (msgHdr 0xffffffff 0 seq [])) := by
  rw [accept_framed (escapedLen_ackFrame_le _ _ _ _ _ (by simp)), ackFrame]
  exact acceptBuf_ackReq [] rfl (csumOk_frmHdr ..) (csumOk_msgHdr ..)

/-! ## Storing slices -/

/-- What `cp_slice_to_rse` does: nothing, or it stores a slice that passes its checks. -/
lemma cpSliceToRse_cases (se : Rse) (s : Bytes) :
    ((sliceCsumOk s = false ∨ se.nSlices < sliceSeq s) ∧ cpSliceToRse se s = (se, [])) ∨
      (sliceCsumOk s = true ∧ (sliceSeq s).toNat ≤ se.nSlices.toNat ∧
        cpSliceToRse se s =
          ({ se with
              data := se.data.write (sliceDataLen * (sliceSeq s).toNat)
                ((sliceData s).take (sliceLenAt se.nSlices se.msglen (sliceSeq s)))
              bitmap := setBit se.bitmap (sliceSeq s) },
            [.copy (sliceDataLen * (sliceSeq s).toNat)
                (sliceLenAt se.nSlices se.msglen (sliceSeq s)),
              .word ((sliceSeq s).toNat / 32)])) := by
  unfold cpSliceToRse
  cases hcsum : sliceCsumOk s with
  | false => exact .inl ⟨.inl rfl, rfl⟩
  | true =>
    by_cases hseq : sliceSeq s > se.nSlices
    · left
      exact ⟨.inr hseq, by simp [hseq]⟩
    · right
      refine ⟨rfl, UInt8.le_iff_toNat_le.1 (UInt8.not_lt.1 hseq), ?_⟩
      simp [hseq]

/-- A property of the session that every slice keeps. -/
lemma patchRse_induction {P : Rse → Prop} {data : Bytes} {n : ℕ} {se : Rse} (hinit : P se)
    (hstep : ∀ se' j, j < n → P se' → P (cpSliceToRse se' (sliceAt data j)).1) :
    P (patchRse se data n).1 ∧
      ∀ a ∈ (patchRse se data n).2, ∃ se' j, j < n ∧ P se' ∧
        a ∈ (cpSliceToRse se' (sliceAt data j)).2 := by
  induction n generalizing se data with
  | zero => exact ⟨hinit, by simp [patchRse]⟩
  | succ n ih =>
    have hfirst := hstep se 0 (Nat.succ_pos n) hinit
    rw [sliceAt_zero] at hfirst
    obtain ⟨hrest, hacc⟩ := ih hfirst fun se' j hj h => by
      rw [← sliceAt_succ]
      exact hstep se' (j + 1) (Nat.succ_lt_succ hj) h
    refine ⟨hrest, ?_⟩
    intro a ha
    rw [patchRse] at ha
    rcases List.mem_append.1 ha with ha | ha
    · exact ⟨se, 0, Nat.succ_pos n, hinit, by rw [sliceAt_zero]; exact ha⟩
    · obtain ⟨se', j, hj, hp, hmem⟩ := hacc a ha
      exact ⟨se', j + 1, Nat.succ_lt_succ hj, hp, by rw [sliceAt_succ]; exact hmem⟩

/-- The last slice is stored last. -/
lemma patchRse_snoc (se : Rse) (data : Bytes) (n : ℕ) :
    (patchRse se data (n + 1)).1 = (cpSliceToRse (patchRse se data n).1 (sliceAt data n)).1 := by
  induction n generalizing se data with
  | zero => rw [sliceAt_zero]; rfl
  | succ n ih =>
    rw [patchRse, ih, ← sliceAt_succ]
    rfl

/-- Slices change the data and the bitmap, nothing else. -/
lemma patchRse_eq (se : Rse) (data : Bytes) (n : ℕ) :
    ∃ d b, (patchRse se data n).1 = { se with data := d, bitmap := b } := by
  refine (patchRse_induction (P := fun se' => ∃ d b, se' = { se with data := d, bitmap := b })
    ⟨se.data, se.bitmap, rfl⟩ ?_).1
  rintro se' j - ⟨d, b, rfl⟩
  rcases cpSliceToRse_cases { se with data := d, bitmap := b } (sliceAt data j) with
    ⟨-, h⟩ | ⟨-, -, h⟩
  · exact ⟨d, b, by rw [h]⟩
  · exact ⟨_, _, by rw [h]⟩

section

variable (se : Rse) (data : Bytes) (n : ℕ)

@[simp] lemma patchRse_nSlices : (patchRse se data n).1.nSlices = se.nSlices := by
  obtain ⟨d, b, h⟩ := patchRse_eq se data n
  rw [h]

@[simp] lemma patchRse_msglen : (patchRse se data n).1.msglen = se.msglen := by
  obtain ⟨d, b, h⟩ := patchRse_eq se data n
  rw [h]

@[simp] lemma patchRse_dCsum : (patchRse se data n).1.dCsum = se.dCsum := by
  obtain ⟨d, b, h⟩ := patchRse_eq se data n
  rw [h]

@[simp] lemma patchRse_seqExp : (patchRse se data n).1.seqExp = se.seqExp := by
  obtain ⟨d, b, h⟩ := patchRse_eq se data n
  rw [h]

@[simp] lemma patchRse_completed : (patchRse se data n).1.completed = se.completed := by
  obtain ⟨d, b, h⟩ := patchRse_eq se data n
  rw [h]

@[simp] lemma patchRse_nak : (patchRse se data n).1.nak = se.nak := by
  obtain ⟨d, b, h⟩ := patchRse_eq se data n
  rw [h]

end

/-! ## What a frame does to a session -/

/-- The number of slices `proc_data` takes a message of `len` bytes to have. -/
def announced (len : UInt16) : UInt8 := UInt8.ofNat (sliceCount len.toNat)

/-- The session as the header of a DATA frame leaves it. -/
def openRse (mh : MsgHdr) (se : Rse) : Rse :=
  { se with
    bitmap := Buffer.fill _ 0
    seqExp := mh.seq
    msglen := mh.len
    dCsum := mh.dCsum
    nSlices := announced mh.len
    completed := false
    nak := false }

/-- The end of a message: its checksum is wrong and everything is asked for again, or the message
is submitted and acknowledged. -/
lemma finishRse_cases (stack : Stack) (fh : FrmHdr) (se : Rse) :
    (csum32 (se.data.read 0 se.msglen.toNat) ≠ se.dCsum ∧
      (finishRse stack fh se).se = { se with nak := true } ∧
      (finishRse stack fh se).queued = [] ∧ (finishRse stack fh se).submitted = []) ∨
    (csum32 (se.data.read 0 se.msglen.toNat) = se.dCsum ∧
      (finishRse stack fh se).se = { se with completed := true } ∧
      (finishRse stack fh se).queued = (sendAck stack fh.src fh.dst se).1 ∧
      (finishRse stack fh se).submitted = [dataNode se.data.cells se.msglen.toNat]) := by
  unfold finishRse
  by_cases h : csum32 (se.data.read 0 se.msglen.toNat) = se.dCsum
  · right
    rw [if_neg (by simpa using h)]
    exact ⟨h, rfl, rfl, rfl⟩
  · left
    rw [if_pos h]
    exact ⟨h, rfl, rfl, rfl⟩

lemma finishRse_accesses (stack : Stack) (fh : FrmHdr) (se : Rse) :
    ∀ a ∈ (finishRse stack fh se).accesses,
      a = .msg se.msglen.toNat ∨ a ∈ (sendAck stack fh.src fh.dst se).2 := by
  intro a ha
  unfold finishRse at ha
  split_ifs at ha
  · left
    simpa using ha
  · rcases List.mem_append.1 ha with ha | ha
    · rcases List.mem_cons.1 ha with ha | ha
      · exact .inl ha
      · exact .inr ha
    · left
      simpa using ha

/-- The accesses of the slices that were stored, and of the test for completion behind them. -/
lemma tested_accesses (p : Rse × List Access) :
    ∀ a ∈ p.2 ++ (testAllBitsSetRun p.1.bitmap p.1.nSlices).2.map Access.word,
      a ∈ p.2 ∨ (∃ x, a = .word x ∧ 32 * x < p.1.nSlices.toNat) ∨ a = .msg p.1.msglen.toNat := by
  intro a ha
  rcases List.mem_append.1 ha with ha | ha
  · exact .inl ha
  · obtain ⟨x, hx, rfl⟩ := List.mem_map.1 ha
    exact .inr (.inl ⟨x, rfl, testAllBitsSetRun_words p.1.bitmap p.1.nSlices x hx⟩)

/-- The same, and those of finishing the message. -/
lemma finished_accesses (stack : Stack) (fh : FrmHdr) (p : Rse × List Access) :
    ∀ a ∈ p.2 ++ (testAllBitsSetRun p.1.bitmap p.1.nSlices).2.map Access.word ++
        (finishRse stack fh p.1).accesses,
      a ∈ p.2 ∨ (∃ x, a = .word x ∧ 32 * x < p.1.nSlices.toNat) ∨ a = .msg p.1.msglen.toNat := by
  intro a ha
  rcases List.mem_append.1 ha with ha | ha
  · exact tested_accesses p a ha
  · rcases finishRse_accesses stack fh _ a ha with ha | ha
    · exact .inr (.inr ha)
    · exact .inr (.inl (sendAck_accesses stack _ _ _ a ha))

/-- The number of slices a handler takes to be in `data`. -/
lemma toNat_div_sliceLen {data : Bytes} (h : data.length ≤ linkMtu) :
    (UInt8.ofNat (data.length / sliceLen)).toNat = data.length / sliceLen := by
  rw [UInt8.toNat_ofNat']
  simp only [sliceLen, linkMtu] at *
  omega

section

variable (stack : Stack) (fh : FrmHdr) (mh : MsgHdr) {data : Bytes} (se : Rse)

lemma procDataRse_eq (hdata : data.length ≤ linkMtu) :
    procDataRse stack fh mh data se =
      let p := patchRse (openRse mh se) data (data.length / sliceLen)
      let test := testAllBitsSetRun p.1.bitmap p.1.nSlices
      if test.1 then
        { finishRse stack fh p.1 with
          accesses := p.2 ++ test.2.map .word ++ (finishRse stack fh p.1).accesses }
      else
        { se := p.1, queued := (sendAck stack fh.src fh.dst p.1).1, submitted := [],
          accesses := p.2 ++ test.2.map .word ++ (sendAck stack fh.src fh.dst p.1).2 } := by
  simp only [procDataRse, toNat_div_sliceLen hdata, patchRse_nSlices]
  rfl

/-- **`proc_data`.** The session is opened and the slices of the frame are stored; then the message
is finished if it is complete, and otherwise acknowledged. -/
lemma procDataRse_cases (hdata : data.length ≤ linkMtu) :
    ∃ p, p = patchRse (openRse mh se) data (data.length / sliceLen) ∧
      (∀ a ∈ (procDataRse stack fh mh data se).accesses,
        a ∈ p.2 ∨ (∃ x, a = .word x ∧ 32 * x < p.1.nSlices.toNat) ∨ a = .msg p.1.msglen.toNat) ∧
      ((testAllBitsSet p.1.bitmap p.1.nSlices = true ∧
        (procDataRse stack fh mh data se).se = (finishRse stack fh p.1).se ∧
        (procDataRse stack fh mh data se).queued = (finishRse stack fh p.1).queued ∧
        (procDataRse stack fh mh data se).submitted = (finishRse stack fh p.1).submitted) ∨
      (testAllBitsSet p.1.bitmap p.1.nSlices = false ∧
        (procDataRse stack fh mh data se).se = p.1 ∧
        (procDataRse stack fh mh data se).queued = (sendAck stack fh.src fh.dst p.1).1 ∧
        (procDataRse stack fh mh data se).submitted = [])) := by
  refine ⟨_, rfl, ?_, ?_⟩
  · intro a ha
    rw [procDataRse_eq stack fh mh se hdata] at ha
    simp only at ha
    split_ifs at ha
    · exact finished_accesses stack fh _ a ha
    · rcases List.mem_append.1 ha with ha | ha
      · exact tested_accesses _ a ha
      · exact .inr (.inl (sendAck_accesses stack _ _ _ a ha))
  · rw [procDataRse_eq stack fh mh se hdata, testAllBitsSet]
    set p := patchRse (openRse mh se) data (data.length / sliceLen)
    cases htest : (testAllBitsSetRun p.1.bitmap p.1.nSlices).1 with
    | true => simp [htest]
    | false => simp [htest]

/-- The number of slices `proc_patch` takes from a frame: as many as are announced and there. -/
def patchSlices (mh : MsgHdr) (data : Bytes) : ℕ :=
  if data.length / sliceLen > mh.len.toNat then mh.len.toNat else data.length / sliceLen

lemma procPatchRse_eq (hdata : data.length ≤ linkMtu) (hseq : se.seqExp = mh.seq)
    (hpending : se.completed = false) :
    procPatchRse stack fh mh data se =
      let p := patchRse se data (patchSlices mh data)
      let test := testAllBitsSetRun p.1.bitmap p.1.nSlices
      if test.1 then
        { finishRse stack fh p.1 with
          accesses := p.2 ++ test.2.map .word ++ (finishRse stack fh p.1).accesses }
      else { se := p.1, queued := [], submitted := [], accesses := p.2 ++ test.2.map .word } := by
  have hcount := toNat_div_sliceLen hdata
  have hn : (if (UInt8.ofNat (data.length / sliceLen)).toNat > mh.len.toNat then mh.len.toUInt8
      else UInt8.ofNat (data.length / sliceLen)).toNat = patchSlices mh data := by
    unfold patchSlices
    rw [hcount]
    split_ifs with h
    · rw [UInt16.toNat_toUInt8]
      simp only [sliceLen, linkMtu] at *
      omega
    · exact hcount
  simp only [procPatchRse, hn, hseq, hpending, ne_eq, not_true_eq_false, if_false, Bool.not_false,
    if_true]

/-- **`proc_patch`.** A frame for another message, or for one that is completed, changes nothing;
otherwise its slices are stored and the message is finished if it is complete. -/
lemma procPatchRse_cases (hdata : data.length ≤ linkMtu) :
    ((se.seqExp ≠ mh.seq ∨ se.completed = true) ∧
      procPatchRse stack fh mh data se =
        { se := se, queued := [], submitted := [], accesses := [] }) ∨
    (se.seqExp = mh.seq ∧ se.completed = false ∧
      ∃ p, p = patchRse se data (patchSlices mh data) ∧
        (∀ a ∈ (procPatchRse stack fh mh data se).accesses,
          a ∈ p.2 ∨ (∃ x, a = .word x ∧ 32 * x < p.1.nSlices.toNat) ∨
            a = .msg p.1.msglen.toNat) ∧
        ((testAllBitsSet p.1.bitmap p.1.nSlices = true ∧
          (procPatchRse stack fh mh data se).se = (finishRse stack fh p.1).se ∧
          (procPatchRse stack fh mh data se).queued = (finishRse stack fh p.1).queued ∧
          (procPatchRse stack fh mh data se).submitted = (finishRse stack fh p.1).submitted) ∨
        (testAllBitsSet p.1.bitmap p.1.nSlices = false ∧
          (procPatchRse stack fh mh data se).se = p.1 ∧
          (procPatchRse stack fh mh data se).queued = [] ∧
          (procPatchRse stack fh mh data se).submitted = []))) := by
  by_cases hseq : se.seqExp = mh.seq
  · cases hdone : se.completed with
    | true =>
      left
      refine ⟨.inr rfl, ?_⟩
      simp [procPatchRse, hseq, hdone]
    | false =>
      right
      refine ⟨hseq, rfl, _, rfl, ?_, ?_⟩
      · intro a ha
        rw [procPatchRse_eq stack fh mh se hdata hseq hdone] at ha
        simp only at ha
        split_ifs at ha
        · exact finished_accesses stack fh _ a ha
        · exact tested_accesses _ a ha
      · rw [procPatchRse_eq stack fh mh se hdata hseq hdone, testAllBitsSet]
        set p := patchRse se data (patchSlices mh data)
        cases htest : (testAllBitsSetRun p.1.bitmap p.1.nSlices).1 with
        | true => simp [htest]
        | false => simp [htest]
  · left
    refine ⟨.inl hseq, ?_⟩
    simp [procPatchRse, hseq]

/-- A handler of the receive path queues acknowledgements of its session only. -/
lemma procDataRse_queued (hdata : data.length ≤ linkMtu) :
    ∀ f ∈ (procDataRse stack fh mh data se).queued,
      ∃ se', f ∈ (sendAck stack fh.src fh.dst se').1 := by
  intro f hf
  obtain ⟨p, -, -, ⟨-, -, hq, -⟩ | ⟨-, -, hq, -⟩⟩ := procDataRse_cases stack fh mh se hdata
  · rw [hq] at hf
    rcases finishRse_cases stack fh p.1 with ⟨-, -, hf', -⟩ | ⟨-, -, hf', -⟩
    · simp [hf'] at hf
    · exact ⟨p.1, hf' ▸ hf⟩
  · exact ⟨p.1, hq ▸ hf⟩

lemma procPatchRse_queued (hdata : data.length ≤ linkMtu) :
    ∀ f ∈ (procPatchRse stack fh mh data se).queued,
      ∃ se', f ∈ (sendAck stack fh.src fh.dst se').1 := by
  intro f hf
  rcases procPatchRse_cases stack fh mh se hdata with
    ⟨-, h⟩ | ⟨-, -, p, -, -, ⟨-, -, hq, -⟩ | ⟨-, -, hq, -⟩⟩
  · simp [h] at hf
  · rw [hq] at hf
    rcases finishRse_cases stack fh p.1 with ⟨-, -, hf', -⟩ | ⟨-, -, hf', -⟩
    · simp [hf'] at hf
    · exact ⟨p.1, hf' ▸ hf⟩
  · simp [hq] at hf

lemma procAckReqRse_queued :
    ∀ f ∈ (procAckReqRse stack fh mh se).queued, f ∈ (sendAck stack fh.src fh.dst se).1 := by
  intro f hf
  unfold procAckReqRse at hf
  split_ifs at hf
  · exact hf
  · simp at hf

end

end Ipcf
