import Ipcf.Split.Accept

/-!
# Packets

A `Packet` is what `upper_send` makes of a message, without the bytes around it: the sequence
number and the part of the message that was accepted, which is not empty and fits into the slices
of one frame.  Its frames are functions of it: the headers (`Packet.head`), which go out first,
and the complete frame (`Packet.whole`), whose escaped length is what the encoding loop bounds.

`SendNode.Carries` ties a node of the queue to the packet it stands for, and
`upperSendSse_spec` is all that the rest of the development knows about `upper_send`: every
message that is not empty is accepted, at least in part, and the node that is queued carries the
accepted part under the next sequence number.
-/

namespace Ipcf

/-- A sequence number and the accepted part of a message. -/
structure Packet where
  seq : UInt8
  payload : Bytes
  payload_ne : payload ≠ []
  length_le : payload.length ≤ sliceDataLen * maxSliceNum

namespace Packet

variable (smac dmac : UInt8) (p : Packet)

/-- The number of slices of a packet. -/
def slices : ℕ := sliceCount p.payload.length

lemma slices_pos : 1 ≤ p.slices := by
  have hpos : 0 < p.payload.length := List.length_pos_iff.2 p.payload_ne
  simp only [slices, sliceCount, sliceDataLen]
  omega

lemma slices_le : p.slices ≤ maxSliceNum := by
  have := p.length_le
  simp only [slices, sliceCount, sliceDataLen, maxSliceNum_eq] at *
  omega

variable {p} in
/-- The number of a slice is a byte. -/
lemma toNat_ofNat {k : ℕ} (hk : k < p.slices) : (UInt8.ofNat k).toNat = k := by
  have hle := p.slices_le
  rw [maxSliceNum_eq] at hle
  exact UInt8.toNat_ofNat_of_lt' (show k < 256 by omega)

/-- The two headers of a packet. -/
def hdrs : FrmHdr × MsgHdr := dataHdrs smac dmac p.seq p.payload p.payload.length p.slices

/-- The frame with the headers alone. -/
def head : Bytes := (p.hdrs smac dmac).1.bytes ++ (p.hdrs smac dmac).2.bytes

/-- The slices, one behind the other. -/
def body : Bytes := ((List.range p.slices).map (sliceOf p.payload)).flatten

/-- The frame with all slices. -/
def whole : Bytes := p.head smac dmac ++ p.body

lemma hdrs_eq : p.hdrs smac dmac =
    (frmHdr smac dmac frameTypeData 0 (sliceLen * p.slices + frmMsgHdrLen),
      msgHdr (csum32 p.payload) p.payload.length p.seq []) := by
  rw [hdrs, dataHdrs, List.take_length]

lemma length_head : (p.head smac dmac).length = frmMsgHdrLen := rfl

lemma escapedLen_head_le : escapedLen (p.head smac dmac) ≤ linkMtu :=
  escapedLen_le_linkMtu (by rw [length_head]; decide)

/-- The frame with the headers is accepted as a DATA frame without slices. -/
lemma accept_head : accept (framed (p.head smac dmac)) =
    some (.data (p.hdrs smac dmac).1 (p.hdrs smac dmac).2 []) := by
  rw [accept_framed (p.escapedLen_head_le smac dmac), head, hdrs_eq, ← List.append_nil (_ ++ _)]
  exact acceptBuf_data [] rfl (csumOk_frmHdr ..) rfl (csumOk_msgHdr ..)

end Packet

/-- A node of the queue stands for a packet: its headers and slices are those of the packet, what
it sends first is the frame of the headers, and the complete frame fits into the MTU. -/
structure SendNode.Carries (pkt : SendNode) (smac dmac : UInt8) (p : Packet) : Prop where
  nSlices : pkt.nSlices.toNat = p.slices
  hdrs : (pkt.fh, pkt.mh) = p.hdrs smac dmac
  slices : ∀ j < p.slices, pkt.slices[j]? = some (sliceOf p.payload j)
  first : dataNode pkt.escaped.cells pkt.escLen.toNat = framed (p.head smac dmac)
  fits : escapedLen (p.whole smac dmac) ≤ linkMtu

instance (pkt : SendNode) (smac dmac : UInt8) (p : Packet) : Decidable (pkt.Carries smac dmac p) :=
  decidable_of_iff
    (pkt.nSlices.toNat = p.slices ∧ (pkt.fh, pkt.mh) = p.hdrs smac dmac ∧
      (∀ j < p.slices, pkt.slices[j]? = some (sliceOf p.payload j)) ∧
      dataNode pkt.escaped.cells pkt.escLen.toNat = framed (p.head smac dmac) ∧
      escapedLen (p.whole smac dmac) ≤ linkMtu)
    ⟨fun ⟨nSlices, hdrs, slices, first, fits⟩ => ⟨nSlices, hdrs, slices, first, fits⟩,
      fun h => ⟨h.nSlices, h.hdrs, h.slices, h.first, h.fits⟩⟩

namespace SendNode.Carries

variable {pkt : SendNode} {smac dmac : UInt8} {p : Packet} (h : pkt.Carries smac dmac p)

include h

lemma fh_src : pkt.fh.src = smac := by
  have := congrArg Prod.fst h.hdrs
  rw [Packet.hdrs_eq] at this
  exact congrArg FrmHdr.src this

lemma fh_dst : pkt.fh.dst = dmac := by
  have := congrArg Prod.fst h.hdrs
  rw [Packet.hdrs_eq] at this
  exact congrArg FrmHdr.dst this

lemma mh_seq : pkt.mh.seq = p.seq := by
  have := congrArg Prod.snd h.hdrs
  rw [Packet.hdrs_eq] at this
  exact congrArg MsgHdr.seq this

end SendNode.Carries

/-! ## The encoding loop -/

/-- The part of a message that its first `n` slices hold is the same for the message and for
every prefix of it that fills these slices. -/
lemma sliceOf_take (msg : Bytes) {len j : ℕ} (h : sliceDataLen * (j + 1) ≤ len ∨ msg.length ≤ len) :
    sliceOf (msg.take len) j = sliceOf msg j := by
  have hchunk : chunk (msg.take len) j = chunk msg j := by
    rw [chunk, chunk, List.drop_take, List.take_take]
    rcases h with h | h
    · congr 1
      rw [Nat.mul_add] at h
      omega
    · by_cases hj : sliceDataLen ≤ len - sliceDataLen * j
      · rw [Nat.min_eq_left hj]
      · rw [Nat.min_eq_right (by omega), List.take_of_length_le, List.take_of_length_le]
        · simp only [List.length_drop]
          omega
        · simp only [List.length_drop]
          omega
  rw [sliceOf, sliceOf, hchunk]

lemma length_flatten_slices (msg : Bytes) (n : ℕ) :
    ((List.range n).map (sliceOf msg)).flatten.length = sliceLen * n := by
  induction n with
  | zero => simp
  | succ n ih =>
    rw [List.range_succ, List.map_append, List.flatten_append, List.length_append, ih]
    simp only [List.map_cons, List.map_nil, List.flatten_cons, List.flatten_nil, List.append_nil,
      length_sliceOf]
    rw [Nat.mul_succ]

/-- When the complete frame does not fit, more than 13 slices are left, and the cut leaves at
least 11 of them. -/
lemma encode_cut {frm : Bytes} {n : ℕ} (hlen : frm.length = sliceLen * n + frmMsgHdrLen)
    (hn : n ≤ maxSliceNum) (h : ¬ escapedLen frm ≤ linkMtu) :
    (sliceLen * n + frmMsgHdrLen - slip.fit (linkMtu - 1) frm + sliceDataLen) / sliceDataLen < n ∧
      slip.fit (linkMtu - 1) frm ≤ sliceLen * n + frmMsgHdrLen := by
  have hbound := escapedLen_le frm
  have hfit : 499 ≤ slip.fit (linkMtu - 1) frm := by
    rw [slip.le_fit_iff _ _ (by unfold linkMtu at h; omega)]
    have := slip.length_stuff_le (frm.take 499)
    rw [List.length_take] at this
    unfold linkMtu
    omega
  have hle := slip.fit_le_length (linkMtu - 1) frm
  rw [maxSliceNum_eq] at hn
  simp only [sliceLen, frmMsgHdrLen, frmHdrLen, msgHdrLen, sliceDataLen, linkMtu] at *
  omega

/-- The message is cut to its first `msglen` bytes: all that `nSlices` slices hold, or all there
is. -/
structure CutTo (msg : Bytes) (msglen nSlices : ℕ) : Prop where
  msglen_le : msglen ≤ msg.length
  count : sliceCount msglen = nSlices
  full : msglen = sliceDataLen * nSlices ∨ msglen = msg.length
  pos : 1 ≤ nSlices
  nSlices_le : nSlices ≤ maxSliceNum

/-- Before the loop it is cut to what the slices hold. -/
lemma cutTo_start {msg : Bytes} (hmsg : msg ≠ []) :
    CutTo msg (min msg.length (sliceDataLen * maxSliceNum))
      (min (sliceCount msg.length) maxSliceNum) := by
  have hpos : 0 < msg.length := List.length_pos_iff.2 hmsg
  refine ⟨Nat.min_le_left _ _, ?_, ?_, ?_, Nat.min_le_right _ _⟩
  · simp only [sliceCount, sliceDataLen, maxSliceNum_eq]
    omega
  · simp only [sliceCount, sliceDataLen, maxSliceNum_eq]
    omega
  · simp only [sliceCount, sliceDataLen, maxSliceNum_eq]
    omega

namespace CutTo

variable {msg : Bytes} {msglen nSlices : ℕ} (h : CutTo msg msglen nSlices) (smac dmac seq : UInt8)

include h in
lemma take_ne : msg.take msglen ≠ [] := by
  have hcount := h.count
  have hpos := h.pos
  rw [← List.length_pos_iff, List.length_take, Nat.min_eq_left h.msglen_le]
  simp only [sliceCount, sliceDataLen] at hcount
  omega

include h in
lemma length_take_le : (msg.take msglen).length ≤ maxSliceNum * sliceDataLen := by
  have hcount := h.count
  have hmax := h.nSlices_le
  rw [List.length_take, Nat.min_eq_left h.msglen_le]
  simp only [sliceCount, sliceDataLen, maxSliceNum_eq] at *
  omega

/-- The packet that an iteration tries to send. -/
def packet : Packet where
  seq := seq
  payload := msg.take msglen
  payload_ne := h.take_ne
  length_le := h.length_take_le

lemma length_payload : (h.packet seq).payload.length = msglen := by
  rw [packet, List.length_take, Nat.min_eq_left h.msglen_le]

lemma packet_slices : (h.packet seq).slices = nSlices := by
  rw [Packet.slices, h.length_payload, h.count]

/-- The slices that were filled in before the loop are those of the packet. -/
lemma sliceOf_payload {j : ℕ} (hj : j < nSlices) :
    sliceOf (h.packet seq).payload j = sliceOf msg j := by
  refine sliceOf_take msg ?_
  rcases h.full with hfull | hfull
  · left
    rw [hfull]
    exact Nat.mul_le_mul_left _ hj
  · exact .inr (Nat.le_of_eq hfull.symm)

lemma packet_body : (h.packet seq).body = ((List.range nSlices).map (sliceOf msg)).flatten := by
  rw [Packet.body, h.packet_slices]
  congr 1
  apply List.map_congr_left
  intro j hj
  exact h.sliceOf_payload seq (List.mem_range.1 hj)

lemma packet_hdrs : dataHdrs smac dmac seq msg msglen nSlices = (h.packet seq).hdrs smac dmac := by
  rw [Packet.hdrs_eq, h.packet_slices, h.length_payload]
  rfl

lemma length_whole : ((h.packet seq).whole smac dmac).length =
    sliceLen * nSlices + frmMsgHdrLen := by
  rw [Packet.whole, List.length_append, Packet.length_head, h.packet_body, length_flatten_slices,
    Nat.add_comm]

/-- The length field holds the length. -/
lemma toNat_fh_len : ((h.packet seq).hdrs smac dmac).1.len.toNat =
    sliceLen * nSlices + frmMsgHdrLen := by
  have hmax := h.nSlices_le
  rw [← h.packet_hdrs]
  change (UInt16.ofNat (sliceLen * nSlices + frmMsgHdrLen)).toNat = _
  rw [UInt16.toNat_ofNat']
  simp only [maxSliceNum_eq, sliceLen, frmMsgHdrLen, frmHdrLen, msgHdrLen] at *
  omega

/-- The number of slices that are cut off when the frame does not fit. -/
def cut : ℕ :=
  (sliceLen * nSlices + frmMsgHdrLen -
    slip.fit (linkMtu - 1) ((h.packet seq).whole smac dmac) + sliceDataLen) / sliceDataLen

lemma cut_pos : 1 ≤ h.cut smac dmac seq := by
  simp only [cut, sliceDataLen]
  omega

lemma cut_lt (hfits : ¬ escapedLen ((h.packet seq).whole smac dmac) ≤ linkMtu) :
    h.cut smac dmac seq < nSlices :=
  (encode_cut (h.length_whole smac dmac seq) h.nSlices_le hfits).1

/-- It is cut to whole slices then, and some are left. -/
lemma shorter (hfits : ¬ escapedLen ((h.packet seq).whole smac dmac) ≤ linkMtu) :
    CutTo msg (sliceDataLen * (nSlices - h.cut smac dmac seq)) (nSlices - h.cut smac dmac seq) := by
  have hpos := h.cut_pos smac dmac seq
  have hlt := h.cut_lt smac dmac seq hfits
  have hmax := h.nSlices_le
  have hle := h.msglen_le
  have hcount := h.count
  refine ⟨?_, ?_, .inl rfl, by omega, by omega⟩
  · simp only [sliceCount, sliceDataLen] at *
    omega
  · simp only [sliceCount, sliceDataLen]
    omega

end CutTo

/-- The loop ends with a packet, whatever the message. -/
lemma encodeLoop_spec (smac dmac seq : UInt8) (msg : Bytes) {n fuel msglen nSlices : ℕ}
    (escaped : Buffer UInt8 linkMtu) (h : CutTo msg msglen nSlices) (hn : nSlices ≤ n)
    (hfuel : nSlices ≤ fuel) :
    ∃ (p : Packet) (pkt : SendNode),
      encodeLoop smac dmac seq msg ((List.range n).map (sliceOf msg)) fuel msglen nSlices escaped =
        some (p.payload.length, pkt) ∧
      p.seq = seq ∧ p.payload = msg.take p.payload.length ∧ pkt.Carries smac dmac p := by
  induction fuel generalizing msglen nSlices escaped with
  | zero => exact absurd h.pos (by omega)
  | succ fuel ih =>
    have hslices : (((List.range n).map (sliceOf msg)).take nSlices).flatten =
        (h.packet seq).body := by
      rw [← List.map_take, List.take_range, Nat.min_eq_left hn, h.packet_body]
    rw [encodeLoop, h.packet_hdrs]
    simp only [hslices, ← Packet.head.eq_1, ← Packet.whole.eq_1,
      enFrame_eq _ (show 1 ≤ linkMtu by decide), h.toNat_fh_len]
    by_cases hfits : escapedLen ((h.packet seq).whole smac dmac) ≤ linkMtu
    · have hhead := (h.packet seq).escapedLen_head_le smac dmac
      rw [if_pos hfits, if_pos hhead]
      simp only
      rw [if_pos (by unfold escapedLen; omega)]
      refine ⟨h.packet seq, _, by rw [h.length_payload], rfl, ?_, ?_, rfl, ?_, ?_, hfits⟩
      · rw [h.length_payload]
        rfl
      · have hmax := h.nSlices_le
        rw [h.packet_slices, UInt8.toNat_ofNat', maxSliceNum_eq] at *
        omega
      · intro j hj
        rw [h.packet_slices] at hj
        rw [List.getElem?_map, List.getElem?_range (by omega), h.sliceOf_payload seq hj]
        rfl
      · simp only [toNat_ofInt_escapedLen hhead]
        exact dataNode_framed _ hhead
    · have hcut := h.cut_lt smac dmac seq hfits
      have hpos := h.cut_pos smac dmac seq
      rw [if_neg hfits]
      simp only
      rw [if_neg (by omega), ← CutTo.cut, if_neg (by omega)]
      exact ih _ (h.shorter smac dmac seq hfits) (by omega) (by omega)

/-- **`upper_send`.** Every message that is not empty is accepted, at least in part: the session
takes the next sequence number, and a node that carries the accepted part goes to the end of
the queue. -/
lemma upperSendSse_spec (now : ℤ) (stack : Stack) (smac dmac : UInt8) {msg : Bytes}
    (hmsg : msg ≠ []) (se : Sse) :
    ∃ (p : Packet) (pkt : SendNode),
      upperSendSse now stack smac dmac msg se =
        (tryLowerSend now { se with seq := se.seq + 1, pktList := se.pktList ++ [pkt] },
          (p.payload.length : ℤ)) ∧
      p.seq = se.seq ∧ p.payload = msg.take p.payload.length ∧ pkt.Carries smac dmac p := by
  obtain ⟨p, pkt, hret, hseq, htake, hcarries⟩ := encodeLoop_spec smac dmac se.seq msg
    stack.escaped (cutTo_start hmsg) (Nat.le_refl _) (Nat.le_refl _)
  refine ⟨p, pkt, ?_, hseq, htake, hcarries⟩
  rw [upperSendSse, fillSlices_eq]
  simp only [List.length_map, List.length_range]
  rw [hret]

/-! ## How much of a message is accepted -/

/-- The escaped length of the DATA frame with all of a message. -/
def dataLen (smac dmac seq : UInt8) (msg : Bytes) : ℕ :=
  let hdrs := dataHdrs smac dmac seq msg msg.length (sliceCount msg.length)
  escapedLen (hdrs.1.bytes ++ hdrs.2.bytes ++
    ((List.range (sliceCount msg.length)).map (sliceOf msg)).flatten)

/-- What is cut off leaves whole slices. -/
lemma encodeLoop_length {smac dmac seq : UInt8} {msg : Bytes} {slices : List Bytes}
    {fuel msglen nSlices : ℕ} {escaped : Buffer UInt8 linkMtu} {r : ℕ × SendNode}
    (h : encodeLoop smac dmac seq msg slices fuel msglen nSlices escaped = some r) :
    r.1 = msglen ∨ sliceDataLen ≤ r.1 := by
  induction fuel generalizing msglen nSlices escaped with
  | zero => cases h
  | succ fuel ih =>
    rw [encodeLoop] at h
    simp only at h
    split_ifs at h with hret hcut
    · left
      rw [← Option.some.inj h]
    · right
      rcases ih h with hlen | hlen
      · rw [hlen]
        exact Nat.le_mul_of_pos_right _ (by omega)
      · exact hlen

/-- A message is accepted as a whole exactly when it fits into the slices and its frame into the
MTU; otherwise at least one slice of it is. -/
lemma upperSendSse_length (now : ℤ) (stack : Stack) (smac dmac : UInt8) {msg : Bytes}
    (hmsg : msg ≠ []) (se : Sse) :
    ((upperSendSse now stack smac dmac msg se).2 = msg.length ↔
      msg.length ≤ sliceDataLen * maxSliceNum ∧ dataLen smac dmac se.seq msg ≤ linkMtu) ∧
    ((upperSendSse now stack smac dmac msg se).2 = msg.length ∨
      (sliceDataLen : ℤ) ≤ (upperSendSse now stack smac dmac msg se).2) := by
  obtain ⟨p, pkt, hret, hseq, htake, hcarries⟩ :=
    upperSendSse_spec now stack smac dmac hmsg se
  have hpos : 0 < msg.length := List.length_pos_iff.2 hmsg
  rw [hret]
  simp only [Nat.cast_inj, Nat.cast_le]
  -- the loop that was run
  have hloop : ∃ node, encodeLoop smac dmac se.seq msg (fillSlices linkDataMax msg).1
      (fillSlices linkDataMax msg).1.length (fillSlices linkDataMax msg).2
      (fillSlices linkDataMax msg).1.length stack.escaped = some (p.payload.length, node) := by
    have h := congrArg Prod.snd hret
    rw [upperSendSse] at h
    simp only at h
    cases hencode : encodeLoop smac dmac se.seq msg (fillSlices linkDataMax msg).1
        (fillSlices linkDataMax msg).1.length (fillSlices linkDataMax msg).2
        (fillSlices linkDataMax msg).1.length stack.escaped with
    | none =>
      rw [hencode] at h
      simp only at h
      omega
    | some r =>
      rw [hencode] at h
      simp only [Nat.cast_inj] at h
      exact ⟨r.2, by rw [← h]⟩
  obtain ⟨node, hloop⟩ := hloop
  rw [fillSlices_eq] at hloop
  simp only [List.length_map, List.length_range] at hloop
  refine ⟨⟨fun hall => ?_, fun ⟨hmax, hfits⟩ => ?_⟩, ?_⟩
  · rw [hall, List.take_length] at htake
    have hle := p.length_le
    have hwhole := hcarries.fits
    rw [htake] at hle
    refine ⟨hle, ?_⟩
    rw [← hseq, ← htake]
    exact hwhole
  · have hcount : min (sliceCount msg.length) maxSliceNum = sliceCount msg.length := by
      simp only [sliceCount, sliceDataLen, maxSliceNum_eq] at *
      omega
    obtain ⟨fuel, hfuel⟩ : ∃ fuel, sliceCount msg.length = fuel + 1 := by
      refine ⟨sliceCount msg.length - 1, ?_⟩
      simp only [sliceCount, sliceDataLen]
      omega
    rw [hcount, Nat.min_eq_left hmax] at hloop
    rw [dataLen] at hfits
    rw [hfuel] at hloop hfits
    rw [encodeLoop] at hloop
    simp only [List.take_of_length_le (Nat.le_of_eq (show ((List.range (fuel + 1)).map
      (sliceOf msg)).length = fuel + 1 by rw [List.length_map, List.length_range])),
      enFrame_eq _ (show 1 ≤ linkMtu by decide), if_pos hfits] at hloop
    rw [if_pos (by unfold escapedLen; omega)] at hloop
    exact (congrArg Prod.fst (Option.some.inj hloop)).symm
  · rcases encodeLoop_length hloop with hlen | hlen
    · simp only at hlen
      rw [hlen]
      rcases Nat.le_total msg.length (sliceDataLen * maxSliceNum) with hle | hle
      · exact .inl (Nat.min_eq_left hle)
      · right
        rw [Nat.min_eq_right hle]
        decide
    · exact .inr hlen

end Ipcf
