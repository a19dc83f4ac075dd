import Ipcf.Split.Packet

/-!
# The PATCH frame

`send_patch` copies the requested slices behind the headers.  Its loop moves on for every request
but counts only the ones in range, so an answer to a request that is out of range has a hole, and
is cut short by the length of the holes: `patchFrame_eq` is the closed form, `patchFrame_carries`
its instance for requests that are all in range.

A PATCH frame has other headers than the DATA frame whose escaped length was checked, and the
check of its own escaped length never fires; `accept_putEscaped_patch` says what the receiver
makes of it all the same: nothing, or a PATCH frame whose slices are those that were sent, save
that the last one may be spoiled, which its checksum shows.
-/

namespace Ipcf

/-! ## The closed form -/

/-- What stands in the place of the `i`-th request, which is for slice `k`. -/
def patchBlock (tmp : Buffer UInt8 linkMtu) (pkt : SendNode) (i : ℕ) (k : UInt8) : Bytes :=
  if k < pkt.nSlices then pkt.slices.getD k.toNat []
  else tmp.read (frmMsgHdrLen + sliceLen * i) sliceLen

/-- The places of the requests from the `i`-th on. -/
def patchBlocks (tmp : Buffer UInt8 linkMtu) (pkt : SendNode) : (i : ℕ) → (req : Bytes) → Bytes
  | _, [] => []
  | i, k :: req => patchBlock tmp pkt i k ++ patchBlocks tmp pkt (i + 1) req

/-- The requests that `send_patch` counts. -/
def patchCount (pkt : SendNode) (req : Bytes) : ℕ :=
  ((req.take maxSliceNum).filter (· < pkt.nSlices)).length

/-- The headers of a PATCH frame with `count` slices. -/
def patchHead (src dst seq : UInt8) (count : ℕ) : Bytes :=
  (frmHdr src dst frameTypePatch 0 (frmMsgHdrLen + sliceLen * count)).bytes ++
    (msgHdr 0xffffffff count seq []).bytes

/-- The PATCH frame that answers the requests `req`. -/
def patchImage (tmp : Buffer UInt8 linkMtu) (pkt : SendNode) (req : Bytes) : Bytes :=
  patchHead pkt.fh.src pkt.fh.dst pkt.mh.seq (patchCount pkt req) ++
    (patchBlocks tmp pkt 0 (req.take maxSliceNum)).take (sliceLen * patchCount pkt req)

/-- The PATCH frame with all slices of a packet. -/
def Packet.patch (smac dmac : UInt8) (p : Packet) : Bytes :=
  patchHead smac dmac p.seq p.slices ++ p.body

@[simp] lemma length_patchHead (src dst seq : UInt8) (count : ℕ) :
    (patchHead src dst seq count).length = frmMsgHdrLen := rfl

lemma patchCount_le (pkt : SendNode) (req : Bytes) : patchCount pkt req ≤ maxSliceNum := by
  have h1 := List.length_filter_le (· < pkt.nSlices) (req.take maxSliceNum)
  have h2 := List.length_take_le maxSliceNum req
  exact Nat.le_trans h1 h2

/-- A copy to the places before the `i`-th leaves the places from the `i`-th on as they are. -/
lemma patchBlocks_write (tmp : Buffer UInt8 linkMtu) (pkt : SendNode) {off : ℕ} {src : Bytes}
    {i : ℕ} (req : Bytes)
    (h : off + src.length ≤ frmMsgHdrLen + sliceLen * i) :
    patchBlocks (tmp.write off src) pkt i req = patchBlocks tmp pkt i req := by
  induction req generalizing i with
  | nil => rfl
  | cons k req ih =>
    rw [patchBlocks, patchBlocks, ih (by rw [Nat.mul_succ]; omega), patchBlock, patchBlock,
      Buffer.read_write_of_le _ _ h]

lemma patchBlocks_append (tmp : Buffer UInt8 linkMtu) (pkt : SendNode) (i : ℕ) (req req' : Bytes) :
    patchBlocks tmp pkt i (req ++ req') =
      patchBlocks tmp pkt i req ++ patchBlocks tmp pkt (i + req.length) req' := by
  induction req generalizing i with
  | nil => rfl
  | cons k req ih =>
    rw [List.cons_append, patchBlocks, patchBlocks, ih, List.append_assoc, List.length_cons,
      Nat.add_right_comm, Nat.add_assoc i]

/-- Requests in range have the slices they ask for in their places. -/
lemma patchBlocks_of_lt (tmp : Buffer UInt8 linkMtu) {pkt : SendNode} (i : ℕ) {req : Bytes}
    (h : ∀ k ∈ req, k < pkt.nSlices) :
    patchBlocks tmp pkt i req = (req.map fun k => pkt.slices.getD k.toNat []).flatten := by
  induction req generalizing i with
  | nil => rfl
  | cons k req ih =>
    rw [patchBlocks, ih _ fun j hj => h j (by simp [hj]), patchBlock, if_pos (h k (by simp)),
      List.map_cons, List.flatten_cons]

section

variable {pkt : SendNode}
  (hslices : ∀ k < pkt.nSlices, (pkt.slices.getD k.toNat []).length = sliceLen)

include hslices

lemma length_patchBlock (tmp : Buffer UInt8 linkMtu) {i : ℕ} (k : UInt8) (hi : i < maxSliceNum) :
    (patchBlock tmp pkt i k).length = sliceLen := by
  unfold patchBlock
  split_ifs with hk
  · exact hslices k hk
  · apply Buffer.length_read
    rw [maxSliceNum_eq] at hi
    simp only [sliceLen, frmMsgHdrLen, frmHdrLen, msgHdrLen, linkMtu]
    omega

lemma length_patchBlocks (tmp : Buffer UInt8 linkMtu) {i : ℕ} {req : Bytes}
    (h : i + req.length ≤ maxSliceNum) :
    (patchBlocks tmp pkt i req).length = sliceLen * req.length := by
  induction req generalizing i with
  | nil => rfl
  | cons k req ih =>
    rw [List.length_cons] at h
    rw [patchBlocks, List.length_append, length_patchBlock hslices tmp k (by omega), ih (by omega),
      List.length_cons, Nat.mul_succ, Nat.add_comm]

/-- The loop leaves the places of the requests in the array and counts those in range. -/
lemma patchLoop_eq (req : Bytes) (i : ℕ) (tmp : Buffer UInt8 linkMtu) (len : ℕ) :
    patchLoop pkt req i tmp len =
      (tmp.write (frmMsgHdrLen + sliceLen * i) (patchBlocks tmp pkt i (req.take (maxSliceNum - i))),
        len + ((req.take (maxSliceNum - i)).filter (· < pkt.nSlices)).length) := by
  have hstop : ∀ i, frmMsgHdrLen + sliceLen * i < linkMtu - sliceLen ↔ i < maxSliceNum := by
    intro i
    rw [maxSliceNum_eq]
    simp only [sliceLen, frmMsgHdrLen, frmHdrLen, msgHdrLen, linkMtu]
    omega
  induction req generalizing i tmp len with
  | nil => simp [patchLoop, patchBlocks]
  | cons k req ih =>
    by_cases hi : i < maxSliceNum
    · have htake : (k :: req).take (maxSliceNum - i) = k :: req.take (maxSliceNum - (i + 1)) := by
        rw [show maxSliceNum - i = (maxSliceNum - (i + 1)) + 1 by omega, List.take_succ_cons]
      -- the place of the request, filled with what it holds afterwards
      have hplace : ∀ (block : Bytes), block.length = sliceLen →
          (tmp.write (frmMsgHdrLen + sliceLen * i) block).write (frmMsgHdrLen + sliceLen * (i + 1))
            (patchBlocks (tmp.write (frmMsgHdrLen + sliceLen * i) block) pkt (i + 1)
              (req.take (maxSliceNum - (i + 1)))) =
          tmp.write (frmMsgHdrLen + sliceLen * i)
            (block ++ patchBlocks tmp pkt (i + 1) (req.take (maxSliceNum - (i + 1)))) := by
        intro block hblock
        have hnext : frmMsgHdrLen + sliceLen * (i + 1) =
            frmMsgHdrLen + sliceLen * i + block.length := by
          rw [hblock, Nat.mul_succ, Nat.add_assoc]
        have hroom : frmMsgHdrLen + sliceLen * i + block.length ≤ linkMtu := by
          rw [maxSliceNum_eq] at hi
          rw [hblock]
          simp only [sliceLen, frmMsgHdrLen, frmHdrLen, msgHdrLen, linkMtu]
          omega
        rw [patchBlocks_write _ _ _ (by omega), hnext, Buffer.write_write_append _ hroom]
      rw [patchLoop, if_pos ((hstop i).2 hi), htake, patchBlocks, List.filter_cons]
      by_cases hk : k < pkt.nSlices
      · rw [if_pos hk, ih _ _ _, hplace _ (hslices k hk), patchBlock, if_pos hk,
          if_pos (by simpa using hk), List.length_cons]
        congr 1
        omega
      · have hself := tmp.write_read (frmMsgHdrLen + sliceLen * i) sliceLen
        have hlen := length_patchBlock hslices tmp k hi
        rw [patchBlock, if_neg hk] at hlen
        have hp := hplace _ hlen
        rw [hself] at hp
        rw [if_neg hk, ih _ _ _, hp, patchBlock, if_neg hk,
          if_neg (by simpa using hk)]
    · rw [patchLoop, if_neg (fun h => hi ((hstop i).1 h)),
        show maxSliceNum - i = 0 by omega, List.take_zero]
      simp [patchBlocks]

/-- **The answer of `send_patch`.** -/
lemma patchFrame_eq (tmp : Buffer UInt8 linkMtu) (req : Bytes) :
    patchFrame tmp pkt req =
      if patchCount pkt req = 0 then none else some (patchImage tmp pkt req) := by
  have hcount := patchCount_le pkt req
  rw [patchFrame, patchLoop_eq hslices]
  simp only [Nat.sub_zero, Nat.zero_add, Nat.mul_zero, Nat.add_zero]
  rw [← patchCount.eq_1]
  split_ifs with h0
  · rfl
  · have hlen : (frmHdr pkt.fh.src pkt.fh.dst frameTypePatch 0
        (frmMsgHdrLen + sliceLen * patchCount pkt req)).len.toNat =
        frmMsgHdrLen + sliceLen * patchCount pkt req := by
      change (UInt16.ofNat _).toNat = _
      rw [UInt16.toNat_ofNat', maxSliceNum_eq] at *
      simp only [sliceLen, frmMsgHdrLen, frmHdrLen, msgHdrLen]
      omega
    have hblocks : sliceLen * patchCount pkt req ≤
        (patchBlocks tmp pkt 0 (req.take maxSliceNum)).length := by
      rw [length_patchBlocks hslices tmp (by simp)]
      exact Nat.mul_le_mul_left _ (List.length_filter_le _ _)
    have hfits :
        (patchBlocks tmp pkt 0 (req.take maxSliceNum)).length ≤ linkMtu - frmMsgHdrLen := by
      have := List.length_take_le maxSliceNum req
      rw [length_patchBlocks hslices tmp (by simp)]
      rw [maxSliceNum_eq] at *
      simp only [sliceLen, frmMsgHdrLen, frmHdrLen, msgHdrLen, linkMtu]
      omega
    rw [hlen, ← patchHead.eq_1, ← length_patchHead pkt.fh.src pkt.fh.dst pkt.mh.seq
      (patchCount pkt req), Buffer.write_write_zero, Buffer.read_write_zero,
      List.take_length_add_append]
    · rfl
    · rw [List.length_append]
      omega
    · rw [List.length_append, length_patchHead]
      unfold linkMtu at *
      simp only [frmMsgHdrLen, frmHdrLen, msgHdrLen] at *
      omega

end

/-! ## Requests that are all in range -/

section

variable {pkt : SendNode} {smac dmac : UInt8} {p : Packet} (h : pkt.Carries smac dmac p)

include h

lemma SendNode.Carries.slice {k : UInt8} (hk : k < pkt.nSlices) :
    pkt.slices.getD k.toNat [] = sliceOf p.payload k.toNat := by
  have hlt : k.toNat < p.slices := by
    rw [← h.nSlices]
    exact UInt8.lt_iff_toNat_lt.1 hk
  rw [List.getD_eq_getElem?_getD, h.slices _ hlt]
  rfl

lemma SendNode.Carries.length_slice :
    ∀ k < pkt.nSlices, (pkt.slices.getD k.toNat []).length = sliceLen := by
  intro k hk
  rw [h.slice hk, length_sliceOf]

/-- The PATCH frame of a packet for requests that are all in range. -/
lemma patchImage_carries (tmp : Buffer UInt8 linkMtu) {req : Bytes}
    (hreq : ∀ k ∈ req, k.toNat < p.slices) :
    patchImage tmp pkt req =
      patchHead smac dmac p.seq (req.take maxSliceNum).length ++
        ((req.take maxSliceNum).map fun k => sliceOf p.payload k.toNat).flatten ∧
      patchCount pkt req = (req.take maxSliceNum).length := by
  have hlt : ∀ k ∈ req.take maxSliceNum, k < pkt.nSlices := by
    intro k hk
    rw [UInt8.lt_iff_toNat_lt, h.nSlices]
    exact hreq k (List.mem_of_mem_take hk)
  have hcount : patchCount pkt req = (req.take maxSliceNum).length := by
    rw [patchCount, List.filter_eq_self.2 (by simpa using hlt)]
  have hblocks : patchBlocks tmp pkt 0 (req.take maxSliceNum) =
      ((req.take maxSliceNum).map fun k => sliceOf p.payload k.toNat).flatten := by
    rw [patchBlocks_of_lt tmp 0 hlt]
    exact congrArg List.flatten (List.map_congr_left fun k hk => h.slice (hlt k hk))
  have hlen : ((req.take maxSliceNum).map fun k => sliceOf p.payload k.toNat).flatten.length =
      sliceLen * (req.take maxSliceNum).length := by
    rw [length_flatten_of_length, List.length_map]
    intro s hs
    obtain ⟨k, -, rfl⟩ := List.mem_map.1 hs
    exact length_sliceOf _ _
  refine ⟨?_, hcount⟩
  rw [patchImage, hcount, hblocks, List.take_of_length_le (Nat.le_of_eq hlen), h.fh_src,
    h.fh_dst, h.mh_seq]

/-- The request for all slices is answered with all of them. -/
lemma SendNode.Carries.sendPatch_all (stack : Stack) :
    sendPatch stack pkt ((List.range p.slices).map UInt8.ofNat) =
      putEscaped stack.escaped (p.patch smac dmac) := by
  have hpos := p.slices_pos
  have hmax := p.slices_le
  have hreq : ∀ k ∈ (List.range p.slices).map UInt8.ofNat, k.toNat < p.slices := by
    intro k hk
    obtain ⟨i, hi, rfl⟩ := List.mem_map.1 hk
    rw [List.mem_range] at hi
    rw [Packet.toNat_ofNat hi]
    exact hi
  obtain ⟨himage, hcount⟩ := patchImage_carries h stack.buf hreq
  have htake : ((List.range p.slices).map UInt8.ofNat).take maxSliceNum =
      (List.range p.slices).map UInt8.ofNat := by
    apply List.take_of_length_le
    rw [List.length_map, List.length_range]
    exact hmax
  have hbody : ((List.range p.slices).map UInt8.ofNat).map (fun k => sliceOf p.payload k.toNat) =
      (List.range p.slices).map (sliceOf p.payload) := by
    rw [List.map_map]
    apply List.map_congr_left
    intro k hk
    rw [Function.comp_apply, Packet.toNat_ofNat (List.mem_range.1 hk)]
  rw [htake, List.length_map, List.length_range] at hcount himage
  rw [sendPatch, patchFrame_eq h.length_slice, hcount, himage, hbody, if_neg (by omega)]
  rfl

end

/-! ## What the receiver makes of it -/

lemma acceptBuf_patchHead (src dst seq : UInt8) (count : ℕ) {data : Bytes}
    (h : sliceLen ≤ data.length) :
    acceptBuf (patchHead src dst seq count ++ data) =
      some (.patch (frmHdr src dst frameTypePatch 0 (frmMsgHdrLen + sliceLen * count))
        (msgHdr 0xffffffff count seq []) data) := by
  have := @acceptBuf_patch (frmHdr src dst frameTypePatch 0 (frmMsgHdrLen + sliceLen * count))
    (msgHdr 0xffffffff count seq []) data rfl (csumOk_frmHdr ..) (csumOk_msgHdr ..)
  rw [if_pos h] at this
  exact this

/-- Whatever becomes of the frame on the way, it is accepted as a PATCH frame.  If more than the
closing break did not fit, its slices are cut short, and a wrong byte may stand behind them. -/
lemma accept_putEscaped_cut {escaped : Buffer UInt8 linkMtu} (src dst seq : UInt8)
    {ss : List Bytes} (hne : ss ≠ []) (hlen : ∀ s ∈ ss, s.length = sliceLen) {f : Bytes}
    (hf : f ∈ putEscaped escaped (patchHead src dst seq ss.length ++ ss.flatten)) :
    ∃ data, accept f = some (.patch
        (frmHdr src dst frameTypePatch 0 (frmMsgHdrLen + sliceLen * ss.length))
        (msgHdr 0xffffffff ss.length seq []) data) ∧
      if escapedLen (patchHead src dst seq ss.length ++ ss.flatten) ≤ linkMtu + 1 then
        data = ss.flatten
      else ∃ (k : ℕ) (hk : k < ss.flatten.length),
        data = ss.flatten.take k ∨ ∃ x ≠ ss.flatten[k], data = ss.flatten.take k ++ [x] := by
  set frm := patchHead src dst seq ss.length ++ ss.flatten with hfrm
  have hflat := length_flatten_of_length hlen
  have hfrmlen : frm.length = frmMsgHdrLen + ss.flatten.length := by
    rw [hfrm, List.length_append, length_patchHead]
  have hwhole : sliceLen ≤ ss.flatten.length := by
    rw [hflat]
    exact Nat.le_mul_of_pos_right _ (List.length_pos_iff.2 hne)
  by_cases hfit : escapedLen frm ≤ linkMtu
  · rw [putEscaped_fits escaped hfit, List.mem_singleton] at hf
    refine ⟨ss.flatten, ?_, by rw [if_pos (by omega)]⟩
    rw [hf, accept_framed hfit, hfrm, acceptBuf_patchHead _ _ _ _ hwhole]
  · obtain ⟨k, hkle, hk, hkall, hrecv⟩ := recvBuf_overrun hfit hf
    obtain ⟨m, rfl⟩ : ∃ m, k = frmMsgHdrLen + m := by
      refine ⟨k - frmMsgHdrLen, ?_⟩
      simp only [frmMsgHdrLen, frmHdrLen, msgHdrLen]
      omega
    have hm : sliceLen ≤ (ss.flatten.take m).length := by
      rw [List.length_take]
      simp only [sliceLen, frmMsgHdrLen, frmHdrLen, msgHdrLen] at *
      omega
    have htake : frm.take (frmMsgHdrLen + m) =
        patchHead src dst seq ss.length ++ ss.flatten.take m := by
      rw [hfrm, ← length_patchHead src dst seq ss.length, List.take_length_add_append]
    rcases hrecv with hrecv | ⟨hklt, x, hx, hrecv⟩
    · refine ⟨ss.flatten.take m, ?_, ?_⟩
      · rw [accept, hrecv, htake, acceptBuf_patchHead _ _ _ _ hm]
      · split_ifs with hone
        · have hall := hkall.1 (by omega)
          exact List.take_of_length_le (by omega)
        · have hcut : frmMsgHdrLen + m ≠ frm.length :=
            fun hall => hone (Nat.le_of_eq (hkall.2 hall))
          exact ⟨m, by omega, .inl rfl⟩
    · have hmlt : m < ss.flatten.length := by omega
      have hbyte : frm[frmMsgHdrLen + m] = ss.flatten[m] := by
        simp only [hfrm]
        rw [List.getElem_append_right (by rw [length_patchHead]; omega)]
        congr 1
        rw [length_patchHead, Nat.add_sub_cancel_left]
      refine ⟨ss.flatten.take m ++ [x], ?_, ?_⟩
      · rw [accept, hrecv, htake, List.append_assoc,
          acceptBuf_patchHead _ _ _ _ (by rw [List.length_append]; omega)]
      · have hone : ¬ escapedLen frm ≤ linkMtu + 1 := by
          intro hle
          have hall := hkall.1 (by omega)
          omega
        rw [if_neg hone]
        exact ⟨m, hmlt, .inr ⟨x, hbyte ▸ hx, rfl⟩⟩

/-- A slice in a PATCH frame is the one that was sent or fails its checksum; and the last slice is
there and intact exactly when at most the closing break did not fit. -/
lemma accept_putEscaped_patch {escaped : Buffer UInt8 linkMtu} (src dst seq : UInt8)
    {ss : List Bytes} (hne : ss ≠ []) (hlen : ∀ s ∈ ss, s.length = sliceLen)
    (hok : ∀ s ∈ ss, sliceCsumOk s = true) {f : Bytes}
    (hf : f ∈ putEscaped escaped (patchHead src dst seq ss.length ++ ss.flatten)) :
    ∃ data, accept f = some (.patch
        (frmHdr src dst frameTypePatch 0 (frmMsgHdrLen + sliceLen * ss.length))
        (msgHdr 0xffffffff ss.length seq []) data) ∧
      data.length ≤ sliceLen * ss.length ∧
      (∀ j < data.length / sliceLen, sliceAt data j = ss.getD j [] ∨
        sliceCsumOk (sliceAt data j) = false) ∧
      if escapedLen (patchHead src dst seq ss.length ++ ss.flatten) ≤ linkMtu + 1 then
        data = ss.flatten
      else data.length / sliceLen < ss.length ∨
        sliceCsumOk (sliceAt data (ss.length - 1)) = false := by
  have hpos : 0 < ss.length := List.length_pos_iff.2 hne
  have hflat := length_flatten_of_length hlen
  have hcomplete : ∀ {j n : ℕ}, j < n / sliceLen → sliceLen * (j + 1) ≤ n := by
    intro j n hj
    rw [Nat.mul_comm]
    exact (Nat.le_div_iff_mul_le (by decide)).1 hj
  obtain ⟨data, haccept, hdata⟩ := accept_putEscaped_cut src dst seq hne hlen hf
  refine ⟨data, haccept, ?_⟩
  split_ifs at hdata with hone
  · subst hdata
    refine ⟨Nat.le_of_eq hflat, fun j hj => .inl ?_, by rw [if_pos hone]⟩
    have hslice := sliceAt_flatten_take hlen (Nat.le_refl _) (hcomplete hj)
    rwa [List.take_length] at hslice
  · rw [if_neg hone]
    obtain ⟨k, hk, rfl | ⟨x, hx, rfl⟩⟩ := hdata
    · have hlenk : (ss.flatten.take k).length = k := List.length_take_of_le (Nat.le_of_lt hk)
      rw [hlenk]
      refine ⟨by omega, fun j hj => .inl ?_, .inl ?_⟩
      · exact sliceAt_flatten_take hlen (Nat.le_of_lt hk) (hcomplete hj)
      · exact Nat.div_lt_of_lt_mul (hflat ▸ hk)
    · have hlenk : (ss.flatten.take k ++ [x]).length = k + 1 := by
        rw [List.length_append, List.length_take_of_le (Nat.le_of_lt hk)]
        rfl
      rw [hlenk]
      refine ⟨by omega, fun j hj => ?_, ?_⟩
      · rcases Nat.le_succ_iff.1 (hcomplete hj) with hwhole | hlast
        · left
          rw [sliceAt_take_concat hk x (hcomplete hj), if_pos hwhole,
            ← sliceAt_take _ hwhole, sliceAt_flatten_take hlen (Nat.le_of_lt hk) hwhole]
        · exact .inr (sliceCsumOk_take_concat hlen hok hk hx hlast)
      · by_cases hlast : sliceLen * ss.length = k + 1
        · right
          apply sliceCsumOk_take_concat hlen hok hk hx
          rw [Nat.sub_add_cancel hpos, hlast]
        · left
          apply Nat.div_lt_of_lt_mul
          omega

end Ipcf
