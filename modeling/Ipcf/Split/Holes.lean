import Ipcf.Split.Queue

/-!
# Requests that leave holes

`send_patch` moves its destination on for every request and counts only those in range.  A request
that is out of range so leaves its place as it was, and the length that is announced, which goes by
the count, cuts the frame in front of the slices that come last.  The frame is what was asked for
exactly when the requests that are out of range come last (`patchExact_iff`); else the bytes of
the uninitialised array are in it.
-/

namespace Ipcf

/-- The requests that `send_patch` is to answer: those in range, among as many as a frame takes. -/
def patchAsked (pkt : SendNode) (req : Bytes) : Bytes :=
  (req.take maxSliceNum).filter (· < pkt.nSlices)

/-- `send_patch` answers with the slices that were asked for and nothing else: the same frame
whatever the array it is built in holds; and with nothing at all when no request is in range. -/
def PatchExact (pkt : SendNode) (req : Bytes) : Prop :=
  if patchAsked pkt req = [] then ∀ tmp, patchFrame tmp pkt req = none
  else ∃ (fh : FrmHdr) (mh : MsgHdr),
    mh.len.toNat = (patchAsked pkt req).length ∧ mh.len2.toNat = (patchAsked pkt req).length ∧
      fh.len.toNat = frmMsgHdrLen + sliceLen * (patchAsked pkt req).length ∧
      ∀ tmp, patchFrame tmp pkt req =
        some (fh.bytes ++ mh.bytes ++
          ((patchAsked pkt req).map fun k => pkt.slices.getD k.toNat []).flatten)

/-- No request that is out of range stands before one that is in range. -/
def InRangeFirst (pkt : SendNode) (req : Bytes) : Prop :=
  (req.take maxSliceNum).Pairwise fun k k' => k' < pkt.nSlices → k < pkt.nSlices

lemma length_patchAsked (pkt : SendNode) (req : Bytes) :
    (patchAsked pkt req).length = patchCount pkt req := rfl

/-- Requests are in range up to one that is not, if there is one. -/
lemma exists_first_out (n : UInt8) (ks : Bytes) :
    ∃ pre post, ks = pre ++ post ∧ (∀ k ∈ pre, k < n) ∧ ∀ k ∈ post.head?, ¬ k < n := by
  induction ks with
  | nil => exact ⟨[], [], rfl, by simp, by simp⟩
  | cons k ks ih =>
    by_cases hk : k < n
    · obtain ⟨pre, post, rfl, hpre, hpost⟩ := ih
      refine ⟨k :: pre, post, rfl, ?_, hpost⟩
      intro j hj
      rcases List.mem_cons.1 hj with rfl | hj
      · exact hk
      · exact hpre j hj
    · exact ⟨[], k :: ks, rfl, by simp, by simpa using hk⟩

section

variable {pkt : SendNode}
  (hslices : ∀ k < pkt.nSlices, (pkt.slices.getD k.toNat []).length = sliceLen)

include hslices

/-- When the requests out of range come last, the slices that are asked for stand in front. -/
lemma patchImage_of_inRangeFirst {req : Bytes} (h : InRangeFirst pkt req)
    (tmp : Buffer UInt8 linkMtu) :
    patchImage tmp pkt req = patchHead pkt.fh.src pkt.fh.dst pkt.mh.seq (patchCount pkt req) ++
      ((patchAsked pkt req).map fun k => pkt.slices.getD k.toNat []).flatten := by
  obtain ⟨pre, post, hks, hpre, hpost⟩ := exists_first_out pkt.nSlices (req.take maxSliceNum)
  have hout : ∀ k ∈ post, ¬ k < pkt.nSlices := by
    cases post with
    | nil => simp
    | cons x post =>
      have hx : ¬ x < pkt.nSlices := hpost x (by simp)
      rw [InRangeFirst, hks, List.pairwise_append] at h
      intro k hk hlt
      rcases List.mem_cons.1 hk with rfl | hk
      · exact hx hlt
      · exact hx ((List.pairwise_cons.1 h.2.1).1 k hk hlt)
  have hasked : patchAsked pkt req = pre := by
    rw [patchAsked, hks, List.filter_append, List.filter_eq_self.2 (by simpa using hpre),
      List.filter_eq_nil_iff.2 (by simpa using hout), List.append_nil]
  have hlen : ((pre.map fun k => pkt.slices.getD k.toNat []).flatten).length =
      sliceLen * pre.length := by
    rw [length_flatten_of_length, List.length_map]
    intro s hs
    obtain ⟨k, hk, rfl⟩ := List.mem_map.1 hs
    exact hslices k (hpre k hk)
  rw [patchImage, ← length_patchAsked, hasked, hks, patchBlocks_append,
    patchBlocks_of_lt tmp 0 hpre, List.take_left' hlen]

/-- A request out of range before one in range: the first byte of its place is in the frame as
it was found. -/
lemma patchImage_hole {req : Bytes} (h : ¬ InRangeFirst pkt req) :
    ∃ i < maxSliceNum, ∀ tmp : Buffer UInt8 linkMtu,
      (patchImage tmp pkt req)[frmMsgHdrLen + sliceLen * i]? =
        tmp.cells[frmMsgHdrLen + sliceLen * i]? := by
  obtain ⟨pre, post, hks, hpre, hpost⟩ := exists_first_out pkt.nSlices (req.take maxSliceNum)
  have hmax : (req.take maxSliceNum).length ≤ maxSliceNum := List.length_take_le _ _
  cases post with
  | nil =>
    rw [List.append_nil] at hks
    refine absurd (List.pairwise_of_forall_mem_list ?_) h
    intro k hk k' _ _
    exact hpre k (hks ▸ hk)
  | cons x post =>
    have hx : ¬ x < pkt.nSlices := hpost x (by simp)
    rw [hks, List.length_append, List.length_cons] at hmax
    -- one request at least that is counted comes behind the hole
    have hcount : pre.length < patchCount pkt req := by
      by_contra hle
      have hnone : ∀ k ∈ post, ¬ k < pkt.nSlices := by
        have hlen : patchCount pkt req = pre.length + (post.filter (· < pkt.nSlices)).length := by
          rw [patchCount, hks, List.filter_append, List.filter_eq_self.2 (by simpa using hpre),
            List.filter_cons_of_neg (by simpa using hx), List.length_append]
        have hnil : post.filter (· < pkt.nSlices) = [] :=
          List.eq_nil_of_length_eq_zero (by omega)
        simpa [List.filter_eq_nil_iff] using hnil
      apply h
      rw [InRangeFirst, hks, List.pairwise_append]
      refine ⟨?_, ?_, fun k hk _ _ _ => hpre k hk⟩
      · exact List.pairwise_of_forall_mem_list fun k hk _ _ _ => hpre k hk
      · have hall : ∀ k ∈ x :: post, ¬ k < pkt.nSlices := by
          intro k hk
          rcases List.mem_cons.1 hk with rfl | hk
          · exact hx
          · exact hnone k hk
        exact List.pairwise_of_forall_mem_list fun _ _ k' hk' hlt => absurd hlt (hall k' hk')
    refine ⟨pre.length, by omega, fun tmp => ?_⟩
    have hpos : 0 < sliceLen := by decide
    have hfront : (patchBlocks tmp pkt 0 pre).length = sliceLen * pre.length :=
      length_patchBlocks hslices tmp (by omega)
    have hblock : (patchBlock tmp pkt pre.length x).length = sliceLen :=
      length_patchBlock hslices tmp x (by omega)
    have hlt : sliceLen * pre.length < sliceLen * patchCount pkt req :=
      Nat.mul_lt_mul_of_pos_left hcount hpos
    rw [patchImage, List.getElem?_append_right (by rw [length_patchHead]; omega),
      length_patchHead, Nat.add_sub_cancel_left, List.getElem?_take, if_pos hlt, hks,
      patchBlocks_append, List.getElem?_append_right (by omega), hfront, Nat.sub_self,
      Nat.zero_add, patchBlocks, List.getElem?_append_left (by omega), patchBlock, if_neg hx,
      Buffer.getElem?_read, if_pos hpos, Nat.add_zero]

/-- The answer is exact if and only if no request out of range stands before one in range. -/
lemma patchExact_iff_inRangeFirst (req : Bytes) : PatchExact pkt req ↔ InRangeFirst pkt req := by
  have hmax := patchCount_le pkt req
  have hframe : ∀ tmp, patchFrame tmp pkt req =
      if patchAsked pkt req = [] then none else some (patchImage tmp pkt req) := by
    intro tmp
    rw [patchFrame_eq hslices, ← length_patchAsked]
    simp only [List.length_eq_zero_iff]
  rw [PatchExact]
  by_cases hnone : patchAsked pkt req = []
  · rw [if_pos hnone]
    refine ⟨fun _ => ?_, fun _ tmp => by rw [hframe, if_pos hnone]⟩
    have hout : ∀ k ∈ req.take maxSliceNum, ¬ k < pkt.nSlices := by
      simpa [patchAsked, List.filter_eq_nil_iff] using hnone
    exact List.pairwise_of_forall_mem_list fun _ _ k' hk' hlt => absurd hlt (hout k' hk')
  · rw [if_neg hnone]
    constructor
    · rintro ⟨fh, mh, -, -, -, hexact⟩
      by_contra hfirst
      obtain ⟨i, hi, hhole⟩ := patchImage_hole hslices hfirst
      -- two arrays that differ in the hole
      have hsame : patchImage (Buffer.fill _ 0) pkt req = patchImage (Buffer.fill _ 1) pkt req := by
        have h0 := hexact (Buffer.fill _ 0)
        have h1 := hexact (Buffer.fill _ 1)
        rw [hframe, if_neg hnone] at h0 h1
        exact Option.some.inj (h0.trans h1.symm)
      have hcell := (hhole (Buffer.fill _ 0)).symm.trans
        ((congrArg (·[frmMsgHdrLen + sliceLen * i]?) hsame).trans (hhole (Buffer.fill _ 1)))
      have hlt : frmMsgHdrLen + sliceLen * i < linkMtu := by
        rw [maxSliceNum_eq] at hi
        simp only [frmMsgHdrLen, frmHdrLen, msgHdrLen, sliceLen, linkMtu]
        omega
      rw [Buffer.cells_fill, Buffer.cells_fill, List.getElem?_replicate_of_lt hlt,
        List.getElem?_replicate_of_lt hlt] at hcell
      exact absurd (Option.some.inj hcell) (by decide)
    · intro hfirst
      rw [length_patchAsked]
      rw [maxSliceNum_eq] at hmax
      refine ⟨frmHdr pkt.fh.src pkt.fh.dst frameTypePatch 0
          (frmMsgHdrLen + sliceLen * patchCount pkt req),
        msgHdr 0xffffffff (patchCount pkt req) pkt.mh.seq [], ?_, ?_, ?_, fun tmp => ?_⟩
      · rw [msgHdr_len, UInt16.toNat_ofNat']
        omega
      · rw [msgHdr_len2, UInt16.toNat_ofNat']
        omega
      · change (UInt16.ofNat _).toNat = _
        simp only [frmMsgHdrLen, frmHdrLen, msgHdrLen, sliceLen]
        rw [UInt16.toNat_ofNat']
        omega
      · rw [hframe, if_neg hnone, patchImage_of_inRangeFirst hslices hfirst]
        rfl

end

/-- **The answer to a request.** For every packet in the queue of a send session of any run, and
every list of requests, the answer holds what was asked for and nothing else exactly when, among
the requests that are looked at, none that is out of range stands before one in range. -/
theorem patchExact_iff (es : List Event) {k : UInt8} {se : Sse} (hse : (run es).sse k = some se)
    {pkt : SendNode} (hpkt : pkt ∈ se.pktList) (req : Bytes) :
    PatchExact pkt req ↔ InRangeFirst pkt req := by
  obtain ⟨smac, p, hcarries⟩ := carried_run es k se hse pkt hpkt
  exact patchExact_iff_inRangeFirst hcarries.length_slice req

/-- A packet of one slice waits for its acknowledgement. -/
def oneQueued : List Event := [⟨1, default, .upperSend 1 2 [7]⟩]

lemma exists_queued :
    ∃ se pkt, (run oneQueued).sse 2 = some se ∧ pkt ∈ se.pktList ∧ pkt.nSlices = 1 := by
  have hone : ((run oneQueued).sse 2).any (fun se => se.pktList.any (·.nSlices == 1)) = true := by
    decide +kernel
  obtain ⟨se, hse, hany⟩ := (Option.any_eq_true _ _).1 hone
  obtain ⟨pkt, hpkt, hn⟩ := List.any_eq_true.1 hany
  exact ⟨se, pkt, hse, hpkt, by simpa using hn⟩

/-- Its slice is asked for, and another one that it does not have. -/
theorem patchExact_iff_one : ∃ se pkt, (run oneQueued).sse 2 = some se ∧ pkt ∈ se.pktList ∧
    (PatchExact pkt [0, 1] ↔ InRangeFirst pkt [0, 1]) := by
  obtain ⟨se, pkt, hse, hpkt, -⟩ := exists_queued
  exact ⟨se, pkt, hse, hpkt, patchExact_iff oneQueued hse hpkt [0, 1]⟩

/-- The other way round, the answer is not what was asked for. -/
theorem patch_hole : ∃ se pkt, (run oneQueued).sse 2 = some se ∧ pkt ∈ se.pktList ∧
    ¬ PatchExact pkt [1, 0] := by
  obtain ⟨se, pkt, hse, hpkt, hn⟩ := exists_queued
  obtain ⟨smac, p, hcarries⟩ := carried_run oneQueued 2 se hse pkt hpkt
  refine ⟨se, pkt, hse, hpkt, ?_⟩
  rw [patchExact_iff_inRangeFirst hcarries.length_slice, InRangeFirst, hn]
  decide

end Ipcf
