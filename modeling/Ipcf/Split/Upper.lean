import Ipcf.Framework.DoWhile
import Ipcf.Split.Packet

/-!
# `upper_send` on its arrays

`upper_send` once more, from `fill_slices` to the end of its loop, on the array `frm` of the node:
the slices are copied behind the place of the headers, and every iteration writes the headers over
the ones before it and escapes what the array holds.  A read of the message is a step of its own
(`readMsg`) that faults behind the end of the message, and the loop has no counter.

`EncodeInv` holds whenever an iteration begins.  With it every iteration either sends the node or
goes on with fewer slices (`EncodeInv.encode_eq`), from which `upper_send_terminates` and
`upper_send_posted` follow.  `Node.Refines` and `runLoop_encode` connect the node with the one of
`upperSendSse`.
-/

namespace Ipcf

namespace Upper

/-- `len` bytes of the message from `off` on; the message has no others. -/
def readMsg (msg : Bytes) (off len : ℕ) : Option Bytes :=
  if off + len ≤ msg.length then some ((msg.drop off).take len) else none

/-- The loop of `fill_slices` at slice `seq`, with `remain` bytes of the message left: the array,
the number of slices, and what remains.  Every iteration moves `slice` on towards the end of `dest`,
so `n` iterations are enough if `n` is the size. -/
def fillSlices (msg : Bytes) :
    (n seq remain : ℕ) → (frm : Buffer UInt8 linkMtu) → Option (Buffer UInt8 linkMtu × ℕ × ℕ)
  | 0, seq, remain, frm => some (frm, seq, remain)
  | n + 1, seq, remain, frm =>
    if remain > 0 ∧ sliceLen * seq + sliceDataLen ≤ linkDataMax then
      let len := if remain > sliceDataLen then sliceDataLen else remain
      match readMsg msg (sliceDataLen * seq) len with
      | none => none
      | some data =>
        fillSlices msg n (seq + 1) (remain - len)
          (frm.write (frmMsgHdrLen + sliceLen * seq) (fillSliceK (UInt8.ofNat seq) data))
    else some (frm, seq, remain)

/-- `send_node_t` -/
structure Node where
  nSlices : UInt8
  frm : Buffer UInt8 linkMtu
  escLen : UInt16
  escaped : Buffer UInt8 linkMtu

/-- The variables of the loop. -/
structure Encode where
  msglen : ℕ
  nSlices : ℕ
  snode : Node

/-- How the loop is left: with the length and the node that goes into the queue, through `err_out`,
or by a read behind the message. -/
inductive Left
  | sent (msglen : ℕ) (snode : Node)
  | failed
  | fault

/-- The loop as it is entered: the slices are filled in, and the message is cut to what they
hold. -/
def start (snode : Node) (msg : Bytes) : Option Encode :=
  match fillSlices msg linkDataMax 0 msg.length snode.frm with
  | none => none
  | some (frm, nSlices, remain) =>
    some ⟨msg.length - remain, nSlices, { snode with frm := frm, escLen := 0 }⟩

/-- `while (snode->esc_len <= 0)` -/
def untilEscaped (s : Encode) : Left ⊕ Encode :=
  if s.snode.escLen ≤ 0 then .inr s else .inl (.sent s.msglen s.snode)

/-- One iteration of the loop. -/
def encode (smac dmac seq : UInt8) (msg : Bytes) (s : Encode) : Left ⊕ Encode :=
  match readMsg msg 0 s.msglen with
  | none => .inl .fault
  | some d =>
    let mh := msgHdr (csum32 d) s.msglen seq []
    let fh := frmHdr smac dmac frameTypeData 0 (sliceLen * s.nSlices + frmMsgHdrLen)
    let frm := s.snode.frm.write 0 (fh.bytes ++ mh.bytes)
    let result := enFrame (frm.read 0 fh.len.toNat) linkMtu
    let escaped := s.snode.escaped.write 0 result.frm
    let snode : Node :=
      { s.snode with nSlices := UInt8.ofNat s.nSlices, frm := frm, escaped := escaped }
    if result.ret > 0 then
      -- the whole frame fits, but the headers go out first, alone
      let header := enFrame (frm.read 0 frmMsgHdrLen) linkMtu
      untilEscaped { s with
        snode := { snode with
          escLen := UInt16.ofInt header.ret
          escaped := escaped.write 0 header.frm } }
    else
      let cutSlice := (fh.len.toNat - result.dataLen + sliceDataLen) / sliceDataLen
      if s.nSlices ≤ cutSlice then .inl .failed
      else
        untilEscaped ⟨sliceDataLen * (s.nSlices - cutSlice), s.nSlices - cutSlice, snode⟩

/-! ## Filling the slices in -/

lemma readMsg_chunk {msg : Bytes} {j : ℕ} (hj : sliceDataLen * j ≤ msg.length) :
    readMsg msg (sliceDataLen * j)
        (if msg.length - sliceDataLen * j > sliceDataLen then sliceDataLen
          else msg.length - sliceDataLen * j) = some (chunk msg j) := by
  have hlen : (if msg.length - sliceDataLen * j > sliceDataLen then sliceDataLen
      else msg.length - sliceDataLen * j) = min sliceDataLen (msg.length - sliceDataLen * j) := by
    split_ifs <;> omega
  rw [hlen, readMsg, if_pos (by omega), chunk, List.take_eq_take_iff.2]
  rw [List.length_drop]
  omega

/-- The slices before the `n`-th. -/
def slicesOf (msg : Bytes) (n : ℕ) : Bytes := ((List.range n).map (sliceOf msg)).flatten

lemma slicesOf_succ (msg : Bytes) (n : ℕ) :
    slicesOf msg (n + 1) = slicesOf msg n ++ sliceOf msg n := by
  rw [slicesOf, slicesOf, List.range_succ, List.map_append, List.flatten_append, List.map_singleton,
    List.flatten_singleton]

lemma length_slicesOf (msg : Bytes) (n : ℕ) : (slicesOf msg n).length = sliceLen * n :=
  length_flatten_slices msg n

lemma take_slicesOf (msg : Bytes) {m n : ℕ} (h : m ≤ n) :
    (slicesOf msg n).take (sliceLen * m) = slicesOf msg m := by
  induction n, h using Nat.le_induction with
  | base => rw [List.take_of_length_le (Nat.le_of_eq (length_slicesOf msg m))]
  | succ n hmn ih =>
    rw [slicesOf_succ, List.take_append_of_le_length, ih]
    rw [length_slicesOf]
    exact Nat.mul_le_mul_left _ hmn

/-- The loop of `fill_slices` goes on from the slices it has copied. -/
lemma fillSlices_from (msg : Bytes) (frm : Buffer UInt8 linkMtu) (n seq : ℕ)
    (hn : maxSliceNum ≤ seq + n) (hseq : seq ≤ min (sliceCount msg.length) maxSliceNum) :
    fillSlices msg n seq (msg.length - sliceDataLen * seq)
        (frm.write frmMsgHdrLen (slicesOf msg seq)) =
      some (frm.write frmMsgHdrLen (slicesOf msg (min (sliceCount msg.length) maxSliceNum)),
        min (sliceCount msg.length) maxSliceNum,
        msg.length - sliceDataLen * min (sliceCount msg.length) maxSliceNum) := by
  induction n generalizing seq with
  | zero =>
    rw [fillSlices, show min (sliceCount msg.length) maxSliceNum = seq by omega]
  | succ n ih =>
    have hroom : sliceLen * seq + sliceDataLen ≤ linkDataMax ↔ seq < maxSliceNum := by
      rw [← lt_sliceRoom_iff, show sliceRoom linkDataMax = maxSliceNum by decide]
    have hmore : msg.length - sliceDataLen * seq > 0 ↔ seq < sliceCount msg.length := by
      simp only [sliceCount, sliceDataLen]
      omega
    simp only [fillSlices, hroom, hmore]
    by_cases hgo : seq < sliceCount msg.length ∧ seq < maxSliceNum
    · obtain ⟨hcount, hmax⟩ := hgo
      rw [if_pos ⟨hcount, hmax⟩,
        readMsg_chunk (by simp only [sliceCount, sliceDataLen] at *; omega)]
      simp only
      have hdest : frmMsgHdrLen + sliceLen * seq = frmMsgHdrLen + (slicesOf msg seq).length := by
        rw [length_slicesOf]
      have hfit : frmMsgHdrLen + (slicesOf msg seq).length ≤ linkMtu := by
        rw [length_slicesOf]
        simp only [maxSliceNum_eq, frmMsgHdrLen, frmHdrLen, msgHdrLen, sliceLen, linkMtu] at *
        omega
      have hrest : (msg.length - sliceDataLen * seq -
          if msg.length - sliceDataLen * seq > sliceDataLen then sliceDataLen
          else msg.length - sliceDataLen * seq) = msg.length - sliceDataLen * (seq + 1) := by
        rw [Nat.mul_succ]
        split_ifs <;> omega
      rw [hdest, frm.write_write_append hfit, ← sliceOf, ← slicesOf_succ, hrest]
      exact ih (seq + 1) (by omega) (by omega)
    · rw [if_neg hgo, show min (sliceCount msg.length) maxSliceNum = seq by omega]

/-- What the loop is entered with. -/
lemma start_eq (snode : Node) (msg : Bytes) :
    start snode msg = some {
      msglen := min msg.length (sliceDataLen * maxSliceNum)
      nSlices := min (sliceCount msg.length) maxSliceNum
      snode := { snode with
        frm := snode.frm.write frmMsgHdrLen
          (slicesOf msg (min (sliceCount msg.length) maxSliceNum))
        escLen := 0 } } := by
  have h := fillSlices_from msg snode.frm linkDataMax 0 (by decide) (Nat.zero_le _)
  rw [show slicesOf msg 0 = [] from rfl, Buffer.write_nil, Nat.mul_zero, Nat.sub_zero] at h
  rw [start, h]
  simp only
  congr 2
  simp only [sliceCount, sliceDataLen, maxSliceNum_eq]
  omega

/-! ## The loop -/

/-- What holds whenever an iteration begins. -/
structure EncodeInv (msg : Bytes) (s : Encode) : Prop extends CutTo msg s.msglen s.nSlices where
  escLen : s.snode.escLen = 0
  slices : s.snode.frm.read frmMsgHdrLen (sliceLen * s.nSlices) = slicesOf msg s.nSlices

/-- The invariant holds when the loop is entered. -/
lemma encodeInv_start {snode : Node} {msg : Bytes} (hmsg : msg ≠ []) {s : Encode}
    (h : start snode msg = some s) : EncodeInv msg s := by
  rw [start_eq] at h
  obtain rfl := Option.some.inj h
  have hlen := length_slicesOf msg (min (sliceCount msg.length) maxSliceNum)
  refine ⟨cutTo_start hmsg, rfl, ?_⟩
  set slices := slicesOf msg (min (sliceCount msg.length) maxSliceNum) with hslices
  have hread : (snode.frm.write frmMsgHdrLen slices).read frmMsgHdrLen slices.length = slices := by
    apply snode.frm.read_write
    rw [hlen]
    simp only [maxSliceNum_eq, frmMsgHdrLen, frmHdrLen, msgHdrLen, sliceLen, linkMtu]
    omega
  rw [hlen] at hread
  exact hread

namespace EncodeInv

variable {msg : Bytes} {s : Encode} (h : EncodeInv msg s) (smac dmac seq : UInt8)

/-- With the headers written to the front the array begins with the frame of the packet. -/
lemma read_frm : (s.snode.frm.write 0 ((h.packet seq).head smac dmac)).read 0
    (sliceLen * s.nSlices + frmMsgHdrLen) = (h.packet seq).whole smac dmac := by
  have hmax := h.nSlices_le
  have hfront : frmMsgHdrLen ≤ linkMtu := by decide
  set b := s.snode.frm.write 0 ((h.packet seq).head smac dmac) with hb
  have hhead : b.read 0 frmMsgHdrLen = (h.packet seq).head smac dmac := by
    rw [← (h.packet seq).length_head smac dmac]
    apply s.snode.frm.read_write
    rw [Packet.length_head]
    omega
  have hbody : b.read frmMsgHdrLen (sliceLen * s.nSlices) = (h.packet seq).body := by
    rw [hb, s.snode.frm.read_write_of_le _ (by rw [Packet.length_head]; omega), h.slices,
      h.packet_body, slicesOf]
  rw [Packet.whole, ← hhead, ← hbody]
  simp only [Buffer.read, List.drop_zero]
  rw [Nat.add_comm, List.take_add]

/-- The node, when the frame fits. -/
def sentNode : Node where
  nSlices := UInt8.ofNat s.nSlices
  frm := s.snode.frm.write 0 ((h.packet seq).head smac dmac)
  escLen := UInt16.ofInt (escapedLen ((h.packet seq).head smac dmac))
  escaped := (s.snode.escaped.write 0 (framed ((h.packet seq).whole smac dmac))).write 0
    (framed ((h.packet seq).head smac dmac))

/-- The state of the next iteration, when the frame does not fit. -/
def shorter : Encode where
  msglen := sliceDataLen * (s.nSlices - h.cut smac dmac seq)
  nSlices := s.nSlices - h.cut smac dmac seq
  snode := { s.snode with
    nSlices := UInt8.ofNat s.nSlices
    frm := s.snode.frm.write 0 ((h.packet seq).head smac dmac)
    escaped := s.snode.escaped.write 0 (enFrame ((h.packet seq).whole smac dmac) linkMtu).frm }

/-- **One iteration.** It reads nothing behind the message, and there is always a slice left. -/
lemma encode_eq : encode smac dmac seq msg s =
    if escapedLen ((h.packet seq).whole smac dmac) ≤ linkMtu then
      .inl (.sent s.msglen (h.sentNode smac dmac seq))
    else .inr (h.shorter smac dmac seq) := by
  have hread : readMsg msg 0 s.msglen = some (msg.take s.msglen) := by
    rw [readMsg, Nat.zero_add, if_pos h.msglen_le, List.drop_zero]
  have hhdrs := h.packet_hdrs smac dmac seq
  rw [dataHdrs] at hhdrs
  have hhead : (frmHdr smac dmac frameTypeData 0 (sliceLen * s.nSlices + frmMsgHdrLen)).bytes ++
      (msgHdr (csum32 (msg.take s.msglen)) s.msglen seq []).bytes =
        (h.packet seq).head smac dmac := by
    rw [Packet.head, ← hhdrs]
  have hfh : (frmHdr smac dmac frameTypeData 0 (sliceLen * s.nSlices + frmMsgHdrLen)).len.toNat =
      sliceLen * s.nSlices + frmMsgHdrLen := by
    have hlen := h.toNat_fh_len smac dmac seq
    rw [← hhdrs] at hlen
    exact hlen
  have hfront : (s.snode.frm.write 0 ((h.packet seq).head smac dmac)).read 0 frmMsgHdrLen =
      (h.packet seq).head smac dmac := by
    rw [← (h.packet seq).length_head smac dmac]
    apply s.snode.frm.read_write
    rw [Packet.length_head]
    decide
  rw [encode, hread]
  simp only [hhead, hfh, h.read_frm, hfront, enFrame_eq _ (show 1 ≤ linkMtu by decide)]
  by_cases hfits : escapedLen ((h.packet seq).whole smac dmac) ≤ linkMtu
  · have hheadfits := (h.packet seq).escapedLen_head_le smac dmac
    have hlen := toNat_ofInt_escapedLen hheadfits
    have hpos : ¬ UInt16.ofInt (escapedLen ((h.packet seq).head smac dmac)) ≤ 0 := by
      rw [UInt16.le_iff_toNat_le, hlen]
      unfold escapedLen
      simp
    rw [if_pos hfits, if_pos hfits, if_pos hheadfits]
    simp only
    rw [if_pos (by unfold escapedLen; omega), untilEscaped, if_neg hpos]
    rfl
  · have hcut := h.cut_lt smac dmac seq hfits
    rw [if_neg hfits, if_neg hfits]
    simp only
    rw [if_neg (by omega), ← CutTo.cut, if_neg (by omega), untilEscaped,
      if_pos (by simp only [h.escLen]; exact UInt16.le_refl _), shorter,
      enFrame_eq _ (show 1 ≤ linkMtu by decide), if_neg hfits]

include h in
/-- The next iteration begins with fewer slices, and the invariant holds. -/
lemma continues {s' : Encode} (hstep : Continues (encode smac dmac seq msg) s s') :
    EncodeInv msg s' ∧ s'.nSlices < s.nSlices := by
  rw [Continues, h.encode_eq] at hstep
  split_ifs at hstep with hfits
  obtain rfl := Sum.inr.inj hstep
  have hpos := h.cut_pos smac dmac seq
  have hlt := h.cut_lt smac dmac seq hfits
  have hslices : (s.snode.frm.write 0 ((h.packet seq).head smac dmac)).read frmMsgHdrLen
      (sliceLen * (s.nSlices - h.cut smac dmac seq)) =
        slicesOf msg (s.nSlices - h.cut smac dmac seq) := by
    rw [s.snode.frm.read_write_of_le _ (by rw [Packet.length_head]; omega)]
    have hprefix := congrArg (List.take (sliceLen * (s.nSlices - h.cut smac dmac seq))) h.slices
    rw [Buffer.read, List.take_take, Nat.min_eq_left (Nat.mul_le_mul_left _ (Nat.sub_le _ _))]
      at hprefix
    rw [Buffer.read, hprefix]
    exact take_slicesOf msg (Nat.sub_le _ _)
  refine ⟨⟨CutTo.shorter h.toCutTo smac dmac seq hfits, h.escLen, hslices⟩, ?_⟩
  simp only [shorter]
  omega

end EncodeInv

/-- **`upper_send` terminates.**  Whatever the session, the macs, the message and the contents of
the fresh node, every iteration that does not leave the loop goes on with fewer slices, so the loop
is left. -/
theorem upper_send_terminates (smac dmac : UInt8) (se : Sse) (snode : Node) {msg : Bytes}
    (hmsg : msg ≠ []) :
    ∃ s₀, start snode msg = some s₀ ∧
      (∀ s s', Reaches (encode smac dmac se.seq msg) s₀ s →
        Continues (encode smac dmac se.seq msg) s s' → s'.nSlices < s.nSlices) ∧
      ∃ r, runLoop (encode smac dmac se.seq msg) (s₀.nSlices + 1) s₀ = some r := by
  have hstart := start_eq snode msg
  have h₀ := encodeInv_start hmsg hstart
  refine ⟨_, hstart, fun s s' hreach hstep => ?_, ?_⟩
  · have h : EncodeInv msg s :=
      hreach.invariant (fun _ _ hs hcont => (hs.continues smac dmac se.seq hcont).1) h₀
    exact (h.continues smac dmac se.seq hstep).2
  · exact returns_of_measure Encode.nSlices
      (fun _ _ hs hcont => hs.continues smac dmac se.seq hcont) h₀

theorem upper_send_terminates_byte :
    ∃ s₀, start ⟨0, Buffer.fill _ 0, 0, Buffer.fill _ 0⟩ [1] = some s₀ ∧
      (∀ s s', Reaches (encode 1 2 (createSse 0).seq [1]) s₀ s →
        Continues (encode 1 2 (createSse 0).seq [1]) s s' → s'.nSlices < s.nSlices) ∧
      ∃ r, runLoop (encode 1 2 (createSse 0).seq [1]) (s₀.nSlices + 1) s₀ = some r :=
  upper_send_terminates 1 2 (createSse 0) _ (List.cons_ne_nil _ _)

/-! ## The node -/

/-- The headers at the front of the array, and what follows them. -/
def Node.hdrs (node : Node) : Option (FrmHdr × MsgHdr × Bytes) :=
  match FrmHdr.read node.frm.cells with
  | none => none
  | some (fh, data) => (MsgHdr.read data).map fun (mh, data) => (fh, mh, data)

/-- What `upper_send` promises of the length `r` that it returns and of the node that it queues,
with the headers and the data of the node. -/
structure Posted (msg : Bytes) (r : ℕ) (node : Node) (fh : FrmHdr) (mh : MsgHdr) (data : Bytes) :
    Prop where
  pos : 0 < r
  le : r ≤ msg.length
  nSlices : node.nSlices.toNat = sliceCount r
  nSlices_le : sliceCount r ≤ maxSliceNum
  fh_len : fh.len.toNat = frmMsgHdrLen + sliceCount r * sliceLen
  mh_len : mh.len.toNat = r
  mh_len2 : mh.len2.toNat = r
  mh_dCsum : mh.dCsum = csum32 (msg.take r)
  slices : ∀ j < sliceCount r,
    (sliceSeq (sliceAt data j)).toNat = j ∧ sliceCsumOk (sliceAt data j) = true
  sliceData : (List.range (sliceCount r)).flatMap (fun j => sliceData (sliceAt data j)) =
    msg.take r ++ List.replicate (sliceDataLen * sliceCount r - r) 0
  fits : escapedLen (node.frm.read 0 fh.len.toNat) ≤ linkMtu

/-- The data of the slices of a message, one behind the other, are the message and zeros. -/
lemma flatMap_sliceData (msg : Bytes) :
    (List.range (sliceCount msg.length)).flatMap (fun j => sliceData (sliceOf msg j)) =
      msg ++ List.replicate (sliceDataLen * sliceCount msg.length - msg.length) 0 := by
  induction hn : sliceCount msg.length generalizing msg with
  | zero =>
    have hnil : msg = [] := by
      apply List.eq_nil_of_length_eq_zero
      simp only [sliceCount, sliceDataLen] at hn
      omega
    simp [hnil]
  | succ n ih =>
    have hrest : sliceCount (msg.drop sliceDataLen).length = n := by
      simp only [List.length_drop, sliceCount, sliceDataLen] at *
      omega
    have hfirst := sliceData_fillSliceK (UInt8.ofNat 0) (length_chunk_le msg 0)
    rw [chunk_zero] at hfirst
    have htail : (List.range n).flatMap (fun j => sliceData (sliceOf msg (j + 1))) =
        (List.range n).flatMap (fun j => sliceData (sliceOf (msg.drop sliceDataLen) j)) := by
      refine List.flatMap_congr fun j _ => ?_
      rw [sliceOf, sliceOf, sliceData_fillSliceK _ (length_chunk_le _ _),
        sliceData_fillSliceK _ (length_chunk_le _ _), chunk_succ]
    rw [List.range_succ_eq_map, List.flatMap_cons, List.flatMap_map, sliceOf, chunk_zero, hfirst,
      htail, ih _ hrest]
    -- only the last slice is padded, and nothing is behind it
    by_cases hlast : msg.length ≤ sliceDataLen
    · have hzero : n = 0 := by
        rw [← hrest]
        simp only [List.length_drop, sliceCount, sliceDataLen] at *
        omega
      have hdrop : msg.drop sliceDataLen = [] := List.drop_of_length_le hlast
      rw [hzero, hdrop, List.take_of_length_le hlast]
      simp
    · have hlen : (msg.take sliceDataLen).length = sliceDataLen := by
        rw [List.length_take]
        omega
      rw [hlen, Nat.sub_self, List.replicate_zero, List.append_nil, ← List.append_assoc,
        List.take_append_drop, List.length_drop]
      congr 2
      rw [Nat.mul_succ]
      omega

namespace EncodeInv

variable {msg : Bytes} {s : Encode} (h : EncodeInv msg s) (smac dmac seq : UInt8)

/-- The headers of the node, and the slices behind them. -/
lemma hdrs_sentNode : ∃ data, (h.sentNode smac dmac seq).hdrs =
      some (((h.packet seq).hdrs smac dmac).1, ((h.packet seq).hdrs smac dmac).2, data) ∧
    ∀ j < s.nSlices, sliceAt data j = sliceOf msg j := by
  have hmax := h.nSlices_le
  set cells := (h.sentNode smac dmac seq).frm.cells with hcells
  have hcut : cells.take (sliceLen * s.nSlices + frmMsgHdrLen) =
      (h.packet seq).whole smac dmac := h.read_frm smac dmac seq
  set rest := cells.drop (sliceLen * s.nSlices + frmMsgHdrLen) with hrest
  have hsplit : cells = ((h.packet seq).hdrs smac dmac).1.bytes ++
      (((h.packet seq).hdrs smac dmac).2.bytes ++ (slicesOf msg s.nSlices ++ rest)) := by
    rw [← List.take_append_drop (sliceLen * s.nSlices + frmMsgHdrLen) cells, hcut, Packet.whole,
      Packet.head, h.packet_body, ← slicesOf, List.append_assoc, List.append_assoc]
  refine ⟨slicesOf msg s.nSlices ++ rest, ?_, fun j hj => ?_⟩
  · rw [Node.hdrs, ← hcells, hsplit, FrmHdr.read_bytes_append]
    simp only
    rw [MsgHdr.read_bytes_append]
    rfl
  · have hj' : sliceLen * (j + 1) ≤ sliceLen * s.nSlices := Nat.mul_le_mul_left _ hj
    have htake : (slicesOf msg s.nSlices ++ rest).take (sliceLen * s.nSlices) =
        slicesOf msg s.nSlices := List.take_left' (length_slicesOf _ _)
    rw [← sliceAt_take _ hj', htake, slicesOf, sliceAt_flatten]
    · rw [List.getElem_map, List.getElem_range]
    · intro t ht
      obtain ⟨i, -, rfl⟩ := List.mem_map.1 ht
      exact length_sliceOf msg i
    · rw [List.length_map, List.length_range]
      exact hj

include h in
/-- The node that leaves the loop. -/
lemma posted (hfits : escapedLen ((h.packet seq).whole smac dmac) ≤ linkMtu) :
    ∃ fh mh data, (h.sentNode smac dmac seq).hdrs = some (fh, mh, data) ∧
      Posted msg s.msglen (h.sentNode smac dmac seq) fh mh data := by
  obtain ⟨data, hhdrs, hslices⟩ := h.hdrs_sentNode smac dmac seq
  have hcount := h.count
  have hpos := h.pos
  have hmax := h.nSlices_le
  have hlen : (UInt16.ofNat s.msglen).toNat = s.msglen := by
    rw [UInt16.toNat_ofNat']
    simp only [sliceCount, sliceDataLen, maxSliceNum_eq] at *
    omega
  refine ⟨_, _, data, hhdrs, ?_, h.msglen_le, ?_, by rw [hcount]; exact hmax, ?_, ?_, ?_, ?_,
    fun j hj => ?_, ?_, ?_⟩
  · simp only [sliceCount, sliceDataLen] at hcount
    omega
  · rw [hcount]
    simp only [sentNode, UInt8.toNat_ofNat', maxSliceNum_eq] at *
    omega
  · rw [h.toNat_fh_len, hcount, Nat.add_comm, Nat.mul_comm]
  · rw [← h.packet_hdrs]
    exact hlen
  · rw [← h.packet_hdrs]
    exact hlen
  · rw [← h.packet_hdrs]
    rfl
  · rw [hcount] at hj
    rw [hslices j hj, sliceOf, sliceSeq_fillSliceK]
    refine ⟨?_, sliceCsumOk_sliceOf _ _⟩
    rw [UInt8.toNat_ofNat', maxSliceNum_eq] at *
    omega
  · have hdata := flatMap_sliceData (h.packet seq).payload
    rw [h.length_payload] at hdata
    refine Eq.trans ?_ hdata
    refine List.flatMap_congr fun j hj => ?_
    have hj' : j < s.nSlices := by
      rw [← hcount]
      exact List.mem_range.1 hj
    rw [hslices j hj']
    exact congrArg Ipcf.sliceData (h.sliceOf_payload seq hj').symm
  · rw [h.toNat_fh_len]
    exact (congrArg escapedLen (h.read_frm smac dmac seq)).trans_le hfits

end EncodeInv

/-! ## The queue -/

/-- The node is the one that the model of the queue has. -/
structure Node.Refines (node : Node) (pkt : SendNode) : Prop where
  nSlices : node.nSlices = pkt.nSlices
  frm : node.frm.read 0 (sliceLen * pkt.nSlices.toNat + frmMsgHdrLen) =
    pkt.fh.bytes ++ pkt.mh.bytes ++ (pkt.slices.take pkt.nSlices.toNat).flatten
  escLen : node.escLen = pkt.escLen
  escaped : node.escaped = pkt.escaped

/-- When the loop of the model ends, so does this one, after as many iterations. -/
lemma runLoop_encode {smac dmac seq : UInt8} {msg : Bytes} {fuel : ℕ} {s : Encode}
    (h : EncodeInv msg s) {n : ℕ} (hn : s.nSlices ≤ n) {r : ℕ} {pkt : SendNode}
    (hloop : encodeLoop smac dmac seq msg ((List.range n).map (sliceOf msg)) fuel s.msglen
      s.nSlices s.snode.escaped = some (r, pkt)) :
    ∃ node, runLoop (encode smac dmac seq msg) fuel s = some (.sent r node) ∧
      node.Refines pkt := by
  induction fuel generalizing s with
  | zero => cases hloop
  | succ fuel ih =>
    have hslices : (((List.range n).map (sliceOf msg)).take s.nSlices).flatten =
        (h.packet seq).body := by
      rw [← List.map_take, List.take_range, Nat.min_eq_left hn, h.packet_body]
    rw [encodeLoop, h.packet_hdrs] at hloop
    simp only [hslices, ← Packet.head.eq_1, ← Packet.whole.eq_1,
      enFrame_eq _ (show 1 ≤ linkMtu by decide), h.toNat_fh_len] at hloop
    by_cases hfits : escapedLen ((h.packet seq).whole smac dmac) ≤ linkMtu
    · have hheadfits := (h.packet seq).escapedLen_head_le smac dmac
      rw [if_pos hfits, if_pos hheadfits] at hloop
      simp only at hloop
      rw [if_pos (by unfold escapedLen; omega)] at hloop
      obtain ⟨rfl, rfl⟩ := Prod.mk.inj (Option.some.inj hloop)
      refine ⟨h.sentNode smac dmac seq, runLoop_inl (by rw [h.encode_eq, if_pos hfits]),
        rfl, ?_, rfl, rfl⟩
      have hcount : (UInt8.ofNat s.nSlices).toNat = s.nSlices := by
        have hmax := h.nSlices_le
        rw [UInt8.toNat_ofNat', maxSliceNum_eq] at *
        omega
      simp only [hcount, hslices]
      exact h.read_frm smac dmac seq
    · have hstep : encode smac dmac seq msg s = .inr (h.shorter smac dmac seq) := by
        rw [h.encode_eq, if_neg hfits]
      obtain ⟨hnext, hlt⟩ := h.continues smac dmac seq hstep
      rw [if_neg hfits] at hloop
      simp only at hloop
      rw [if_neg (by omega), ← CutTo.cut,
        if_neg (Nat.not_le.2 (h.cut_lt smac dmac seq hfits))] at hloop
      rw [runLoop_inr hstep]
      refine ih hnext (by omega) ?_
      rw [← hloop]
      simp only [EncodeInv.shorter, enFrame_eq _ (show 1 ≤ linkMtu by decide), if_neg hfits]

/-- **What `upper_send` leaves.**  It reads nothing behind the message, it always finds a slice to
send, and the length that it returns and the node at the end of the queue are as promised; the
length is that of the message if all of it fits. -/
theorem upper_send_posted (now : ℤ) (smac dmac : UInt8) (se : Sse) (snode : Node) {msg : Bytes}
    (hmsg : msg ≠ []) :
    ∃ s₀, start snode msg = some s₀ ∧
      ∀ n left, runLoop (encode smac dmac se.seq msg) n s₀ = some left →
        ∃ r node, left = .sent r node ∧
          (∃ fh mh data, node.hdrs = some (fh, mh, data) ∧ Posted msg r node fh mh data) ∧
          (∃ pkt, node.Refines pkt ∧
            upperSendSse now ⟨snode.frm, snode.escaped⟩ smac dmac msg se =
              (tryLowerSend now { se with seq := se.seq + 1, pktList := se.pktList ++ [pkt] },
                (r : ℤ))) ∧
          (msg.length ≤ maxSliceNum * sliceDataLen → dataLen smac dmac se.seq msg ≤ linkMtu →
            r = msg.length) := by
  have hstart := start_eq snode msg
  have h₀ := encodeInv_start hmsg hstart
  refine ⟨_, hstart, fun n left hrun => ?_⟩
  -- the last iteration begins with the invariant
  obtain ⟨s, hreach, hlast⟩ := runLoop_last hrun
  have h : EncodeInv msg s :=
    hreach.invariant (fun _ _ hs hcont => (hs.continues smac dmac se.seq hcont).1) h₀
  rw [h.encode_eq] at hlast
  split_ifs at hlast with hfits
  obtain rfl := Sum.inl.inj hlast
  have hposted := h.posted smac dmac se.seq hfits
  -- the same run on the model of the queue
  obtain ⟨p, pkt, hsend, -, -, -⟩ :=
    upperSendSse_spec now ⟨snode.frm, snode.escaped⟩ smac dmac hmsg se
  have hlen := (upperSendSse_length now ⟨snode.frm, snode.escaped⟩ smac dmac hmsg se).1
  rw [upperSendSse, fillSlices_eq] at hsend hlen
  simp only [List.length_map, List.length_range] at hsend hlen
  generalize hencode : encodeLoop smac dmac se.seq msg
    ((List.range (min (sliceCount msg.length) maxSliceNum)).map (sliceOf msg))
    (min (sliceCount msg.length) maxSliceNum) (min msg.length (sliceDataLen * maxSliceNum))
    (min (sliceCount msg.length) maxSliceNum) snode.escaped = result at hsend hlen
  cases result with
  | none =>
    have hbad : (-1 : ℤ) = p.payload.length := congrArg Prod.snd hsend
    omega
  | some left' =>
    obtain ⟨r', pkt'⟩ := left'
    obtain ⟨node, hrun', hrefines⟩ := runLoop_encode h₀ (Nat.le_refl _) hencode
    have hsame : Left.sent s.msglen (h.sentNode smac dmac se.seq) = Left.sent r' node := by
      have h₁ := runLoop_mono (Nat.le_max_left n (min (sliceCount msg.length) maxSliceNum)) hrun
      have h₂ := runLoop_mono (Nat.le_max_right n (min (sliceCount msg.length) maxSliceNum)) hrun'
      exact Option.some.inj (h₁.symm.trans h₂)
    obtain ⟨hr, hnode⟩ := Left.sent.inj hsame
    refine ⟨s.msglen, _, rfl, hposted, ⟨pkt', by rw [hnode]; exact hrefines, ?_⟩,
      fun hmax hall => ?_⟩
    · rw [upperSendSse, fillSlices_eq]
      simp only [List.length_map, List.length_range]
      rw [hencode, hr]
    · rw [hr]
      exact Nat.cast_inj.1 (hlen.2 ⟨by rw [Nat.mul_comm]; exact hmax, hall⟩)

theorem upper_send_posted_byte :
    ∃ s₀, start ⟨0, Buffer.fill _ 0, 0, Buffer.fill _ 0⟩ [1] = some s₀ ∧
      ∀ n left, runLoop (encode 1 2 (createSse 0).seq [1]) n s₀ = some left →
        ∃ node, left = .sent 1 node ∧
          ∃ fh mh data, node.hdrs = some (fh, mh, data) ∧ Posted [1] 1 node fh mh data := by
  obtain ⟨s₀, hstart, hrun⟩ := upper_send_posted 0 1 2 (createSse 0)
    ⟨0, Buffer.fill _ 0, 0, Buffer.fill _ 0⟩ (List.cons_ne_nil 1 [])
  refine ⟨s₀, hstart, fun n left hleft => ?_⟩
  obtain ⟨r, node, rfl, hposted, -, hall⟩ := hrun n left hleft
  obtain rfl : r = 1 := hall (by decide) (by decide +kernel)
  exact ⟨node, rfl, hposted⟩

end Upper

end Ipcf
