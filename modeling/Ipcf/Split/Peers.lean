import Ipcf.Split.Queue
import Ipcf.Split.Receives

/-!
# The two sides of a transfer

A sender and a receiver as the protocol sees them, for the runs of two endpoints.  The frames of a
sender are, as far as their receiver can tell, frames of a packet (`FrameOf`); those of a receiver
acknowledge a packet (`AckOf`), in full only if `done`, which the runs below fill in.

`SenderInv` is what holds of a sender that talks to one peer: its only session holds the packets
that are still to be acknowledged, the oldest in front, and every frame it queues is one of the
packet in front.  `ReceiverStep` is what a frame of a packet can do to the receiver: open a
session, leave it in place, or finish it and submit the payload.
-/

namespace Ipcf

/-! ## Frames -/

/-- What the receiver accepts the bytes as: a frame of the packet. -/
inductive FrameOf (smac dmac : UInt8) (p : Packet) (f : Bytes) : Prop
  | head (h : accept f = some (.data (p.hdrs smac dmac).1 (p.hdrs smac dmac).2 []))
  | ackReq {fh : FrmHdr} {mh : MsgHdr} (h : accept f = some (.ackReq fh mh)) (src : fh.src = smac)
      (dst : fh.dst = dmac)
  | patch {fh : FrmHdr} {mh : MsgHdr} {data : Bytes} (h : accept f = some (.patch fh mh data))
      (src : fh.src = smac) (dst : fh.dst = dmac) (seq : mh.seq = p.seq)
      (slices : ∀ j < patchSlices mh data, SliceFrom p (sliceAt data j))

/-- What the sender accepts the bytes as: an acknowledgement of the packet, a full one only
if `done`. -/
inductive AckOf (smac dmac : UInt8) (p : Packet) (done : Prop) (f : Bytes) : Prop
  | all {fh : FrmHdr} {mh : MsgHdr} (h : accept f = some (.ackAll fh mh)) (src : fh.src = dmac)
      (dst : fh.dst = smac) (seq : mh.seq = p.seq) (complete : done)
  | part {fh : FrmHdr} {mh : MsgHdr} {req : Bytes} (h : accept f = some (.ackPart fh mh req))
      (src : fh.src = dmac) (dst : fh.dst = smac) (seq : mh.seq = p.seq)
      (range : ∀ k ∈ req, k.toNat < p.slices)

lemma AckOf.mono {smac dmac : UInt8} {p : Packet} {done done' : Prop} {f : Bytes}
    (h : AckOf smac dmac p done f) (hdone : done → done') : AckOf smac dmac p done' f := by
  cases h with
  | all h src dst seq complete => exact .all h src dst seq (hdone complete)
  | part h src dst seq range => exact .part h src dst seq range

/-- A PATCH frame of a packet has its sequence number. -/
lemma FrameOf.patch_seq {smac dmac : UInt8} {p : Packet} {f : Bytes} (h : FrameOf smac dmac p f)
    {fh : FrmHdr} {mh : MsgHdr} {data : Bytes} (haccept : accept f = some (.patch fh mh data)) :
    mh.seq = p.seq := by
  cases h with
  | head h => cases haccept.symm.trans h
  | ackReq h => cases haccept.symm.trans h
  | patch h _ _ hseq =>
    obtain rfl := (Accepted.patch.inj (Option.some.inj (haccept.symm.trans h))).2.1
    exact hseq

/-- And so has a request for slices of it. -/
lemma AckOf.part_seq {smac dmac : UInt8} {p : Packet} {done : Prop} {f : Bytes}
    (h : AckOf smac dmac p done f) {fh : FrmHdr} {mh : MsgHdr} {req : Bytes}
    (haccept : accept f = some (.ackPart fh mh req)) : mh.seq = p.seq := by
  cases h with
  | all h => cases haccept.symm.trans h
  | part h _ _ hseq =>
    obtain rfl := (Accepted.ackPart.inj (Option.some.inj (haccept.symm.trans h))).2.1
    exact hseq

section

variable {smac dmac : UInt8} {p : Packet} {pkt : SendNode}

/-- An acknowledgement from the peer with the sequence number of the packet is for its node. -/
lemma SendNode.Carries.acked_by (h : pkt.Carries smac dmac p) {fh : FrmHdr} {mh : MsgHdr}
    (hsrc : fh.src = dmac) (hdst : fh.dst = smac) (hseq : mh.seq = p.seq) :
    pkt.fh.src = fh.dst ∧ pkt.fh.dst = fh.src ∧ pkt.mh.seq = mh.seq :=
  ⟨by rw [h.fh_src, hdst], by rw [h.fh_dst, hsrc], by rw [h.mh_seq, hseq]⟩

lemma frameOf_head (smac dmac : UInt8) (p : Packet) :
    FrameOf smac dmac p (framed (p.head smac dmac)) :=
  .head (p.accept_head smac dmac)

lemma SendNode.Carries.frameOf_sendAckReq (h : pkt.Carries smac dmac p) {stack : Stack} {se : Sse}
    {f : Bytes} (hf : f ∈ sendAckReq stack pkt.fh.dst pkt.fh.src se) : FrameOf smac dmac p f := by
  rw [sendAckReq, h.fh_src, h.fh_dst,
    putEscaped_fits _ (escapedLen_ackFrame_le _ _ _ _ _ (by simp)), List.mem_singleton] at hf
  rw [hf]
  exact .ackReq (accept_ackr ..) rfl rfl

/-- The answer to requests that are all in range is a frame of the packet, whether or not it
fits. -/
lemma SendNode.Carries.frameOf_sendPatch (h : pkt.Carries smac dmac p) {stack : Stack} {req : Bytes}
    (hreq : ∀ k ∈ req, k.toNat < p.slices) {f : Bytes} (hf : f ∈ sendPatch stack pkt req) :
    FrameOf smac dmac p f := by
  obtain ⟨himage, hcount⟩ := patchImage_carries h stack.buf hreq
  rw [sendPatch, patchFrame_eq h.length_slice, himage, hcount] at hf
  set ss := (req.take maxSliceNum).map fun k => sliceOf p.payload k.toNat with hss
  have hlen : (req.take maxSliceNum).length = ss.length := by rw [hss, List.length_map]
  have hmem : ∀ s ∈ ss, ∃ k < p.slices, s = sliceOf p.payload k := by
    intro s hs
    obtain ⟨k, hk, rfl⟩ := List.mem_map.1 hs
    exact ⟨k.toNat, hreq k (List.mem_of_mem_take hk), rfl⟩
  rw [hlen] at hf
  split_ifs at hf with hnil
  · simp at hf
  · have hne : ss ≠ [] := fun h => hnil (by rw [h]; rfl)
    obtain ⟨data, haccept, hdata, hslices, -⟩ := accept_putEscaped_patch smac dmac p.seq hne
      (fun s hs => by obtain ⟨k, -, rfl⟩ := hmem s hs; exact length_sliceOf _ _)
      (fun s hs => by obtain ⟨k, -, rfl⟩ := hmem s hs; exact sliceCsumOk_sliceOf _ _) hf
    refine .patch haccept rfl rfl rfl fun j hj => ?_
    have hle : data.length / sliceLen ≤ ss.length := by
      have := Nat.div_le_div_right (c := sliceLen) hdata
      rwa [Nat.mul_div_cancel_left _ (by decide)] at this
    have hj' : j < data.length / sliceLen := by
      unfold patchSlices at hj
      split_ifs at hj with hlt
      · exact Nat.lt_trans hj hlt
      · exact hj
    rcases hslices j hj' with heq | hbad
    · right
      have hjss : j < ss.length := Nat.lt_of_lt_of_le hj' hle
      rw [heq, List.getD_eq_getElem?_getD, List.getElem?_eq_getElem hjss]
      exact hmem _ (List.getElem_mem hjss)
    · exact .inl hbad

end

/-! ## The sessions of a sender -/

/-- The session holds nodes for the packets, in this order. -/
def Holds (smac dmac : UInt8) (qs : List Packet) (se : Sse) : Prop :=
  List.Forall₂ (fun pkt p => SendNode.Carries pkt smac dmac p) se.pktList qs

/-- A frame of the packet in front. -/
def FromFront (smac dmac : UInt8) (qs : List Packet) (f : Bytes) : Prop :=
  ∃ p qs', qs = p :: qs' ∧ FrameOf smac dmac p f

section

variable {smac dmac : UInt8} {qs : List Packet} {se : Sse}

lemma Holds.cons {pkt : SendNode} {pkts : List SendNode} (h : Holds smac dmac qs se)
    (hlist : se.pktList = pkt :: pkts) :
    ∃ p qs', qs = p :: qs' ∧ pkt.Carries smac dmac p ∧
      List.Forall₂ (fun pkt p => SendNode.Carries pkt smac dmac p) pkts qs' := by
  rw [Holds, hlist] at h
  obtain ⟨p, qs', hpkt, hpkts, rfl⟩ := List.forall₂_cons_left_iff.1 h
  exact ⟨p, qs', rfl, hpkt, hpkts⟩

lemma holds_tryLowerSend (h : Holds smac dmac qs se) (now : ℤ) :
    Holds smac dmac qs (tryLowerSend now se).1 ∧
      ∀ f ∈ (tryLowerSend now se).2, FromFront smac dmac qs f := by
  refine ⟨by rw [Holds, tryLowerSend_pktList]; exact h, fun f hf => ?_⟩
  rcases tryLowerSend_cases now se with ⟨-, heq⟩ | ⟨pkt, pkts, hlist, -, heq⟩
  · simp [heq] at hf
  · obtain ⟨p, qs', rfl, hpkt, -⟩ := h.cons hlist
    rw [heq, List.mem_singleton] at hf
    rw [hf, hpkt.first]
    exact ⟨p, qs', rfl, frameOf_head smac dmac p⟩

/-- A full acknowledgement does nothing, or it removes the packet in front, whose sequence number
it names. -/
lemma holds_procAckAllSse (h : Holds smac dmac qs se) (now : ℤ) (fh : FrmHdr) (mh : MsgHdr) :
    (procAckAllSse now fh mh se).1.seq = se.seq ∧
      ∃ qs', Holds smac dmac qs' (procAckAllSse now fh mh se).1 ∧
        (∀ f ∈ (procAckAllSse now fh mh se).2, FromFront smac dmac qs' f) ∧
        ((qs' = qs ∧ (procAckAllSse now fh mh se).1.pktList = se.pktList) ∨
          ∃ p, qs = p :: qs' ∧ p.seq = mh.seq ∧
            (procAckAllSse now fh mh se).1.pktList = se.pktList.tail) := by
  rcases procAckAllSse_cases now fh mh se with ⟨-, heq⟩ | ⟨pkt, pkts, hlist, -, -, hseq, heq⟩
  · rw [heq]
    exact ⟨rfl, qs, h, by simp, .inl ⟨rfl, rfl⟩⟩
  · obtain ⟨p, qs', rfl, hpkt, hpkts⟩ := h.cons hlist
    rw [heq, tryLowerSend_seq]
    have hrest : Holds smac dmac qs' { se with
        pktList := pkts, isWaiting := false, ackTimeout := -1, dataRetry := 0, ackRetry := 0 } :=
      hpkts
    obtain ⟨hholds, hframes⟩ := holds_tryLowerSend hrest now
    refine ⟨rfl, qs', hholds, hframes, .inr ⟨p, rfl, by rw [← hpkt.mh_seq, hseq], ?_⟩⟩
    rw [tryLowerSend_pktList, hlist, List.tail_cons]

/-- A partial acknowledgement is answered for the packet in front, when the requests are for
slices of it. -/
lemma holds_procAckPartSse (h : Holds smac dmac qs se) (now : ℤ) (stack : Stack) (fh : FrmHdr)
    (mh : MsgHdr) {req : Bytes}
    (hreq : ∀ p qs', qs = p :: qs' → p.seq = mh.seq → ∀ k ∈ req, k.toNat < p.slices) :
    (procAckPartSse now stack fh mh req se).1.seq = se.seq ∧
      Holds smac dmac qs (procAckPartSse now stack fh mh req se).1 ∧
        ∀ f ∈ (procAckPartSse now stack fh mh req se).2, FromFront smac dmac qs f := by
  rcases procAckPartSse_cases now stack fh mh req se with
    ⟨-, heq⟩ | ⟨pkt, pkts, hlist, -, -, hseq, heq⟩
  · rw [heq]
    exact ⟨rfl, h, by simp⟩
  · obtain ⟨p, qs', rfl, hpkt, -⟩ := h.cons hlist
    rw [heq]
    refine ⟨rfl, h, fun f hf => ⟨p, qs', rfl, ?_⟩⟩
    exact hpkt.frameOf_sendPatch (hreq p qs' rfl (by rw [← hpkt.mh_seq, hseq])) hf

/-- The timer drops the packet in front, or nothing. -/
lemma holds_procSseAckTimeout (h : Holds smac dmac qs se) (now : ℤ) (stack : Stack) :
    (procSseAckTimeout now stack se).1.seq = se.seq ∧
      ∃ qs', qs' <:+ qs ∧ Holds smac dmac qs' (procSseAckTimeout now stack se).1 ∧
        ∀ f ∈ (procSseAckTimeout now stack se).2, FromFront smac dmac qs' f ∧
          (procSseAckTimeout now stack se).1.idleTimeout = now + idleTimeout := by
  cases hlist : se.pktList with
  | nil =>
    have heq : procSseAckTimeout now stack se = (se, []) := by
      simp only [procSseAckTimeout, hlist]
    rw [heq]
    exact ⟨rfl, qs, List.suffix_refl _, h, by simp⟩
  | cons pkt pkts =>
    obtain ⟨p, qs', rfl, hpkt, hpkts⟩ := h.cons hlist
    rcases procSseAckTimeout_cases now stack hlist with ⟨-, heq⟩ | ⟨-, -, heq⟩ | ⟨-, -, heq⟩
    · rw [heq]
      exact ⟨rfl, p :: qs', List.suffix_refl _, h,
        fun f hf => ⟨⟨p, qs', rfl, hpkt.frameOf_sendAckReq hf⟩, rfl⟩⟩
    · have hrest : Holds smac dmac qs' { se with
          idleTimeout := now + idleTimeout, pktList := pkts, isWaiting := false, ackTimeout := -1,
          dataRetry := 0, ackRetry := 0 } := hpkts
      obtain ⟨hholds, hframes⟩ := holds_tryLowerSend hrest now
      rw [heq, tryLowerSend_seq]
      refine ⟨rfl, qs', List.suffix_cons p qs', hholds, fun f hf => ⟨hframes f hf, ?_⟩⟩
      rw [tryLowerSend_idleTimeout]
    · have hsame : Holds smac dmac (p :: qs') { se with
          idleTimeout := now + idleTimeout, dataRetry := se.dataRetry + 1, isWaiting := false,
          ackRetry := 0 } := h
      obtain ⟨hholds, hframes⟩ := holds_tryLowerSend hsame now
      rw [heq, tryLowerSend_seq]
      refine ⟨rfl, p :: qs', List.suffix_refl _, hholds, fun f hf => ⟨hframes f hf, ?_⟩⟩
      rw [tryLowerSend_idleTimeout]

/-- A session that the timer frees has queued nothing: what queues a frame keeps the session. -/
lemma holds_tickSse (h : Holds smac dmac qs se) (now : ℤ) (stack : Stack) :
    (∃ se' qs', (tickSse now stack (some se)).1 = some se' ∧ se'.seq = se.seq ∧ qs' <:+ qs ∧
        Holds smac dmac qs' se' ∧
        ∀ f ∈ (tickSse now stack (some se)).2, FromFront smac dmac qs' f) ∨
      tickSse now stack (some se) = (none, []) := by
  simp only [tickSse]
  by_cases hfire : se.ackTimeout > 0 ∧ now ≥ se.ackTimeout
  · simp only [if_pos hfire]
    obtain ⟨hseq, qs', hsuffix, hholds, hframes⟩ := holds_procSseAckTimeout h now stack
    by_cases hfree : now ≥ (procSseAckTimeout now stack se).1.idleTimeout
    · right
      rw [if_pos hfree]
      have hnone : (procSseAckTimeout now stack se).2 = [] := by
        rw [List.eq_nil_iff_forall_not_mem]
        intro f hf
        rw [(hframes f hf).2, idleTimeout] at hfree
        omega
      rw [hnone]
    · left
      rw [if_neg hfree]
      exact ⟨_, qs', rfl, hseq, hsuffix, hholds, fun f hf => (hframes f hf).1⟩
  · simp only [if_neg hfire]
    by_cases hfree : now ≥ se.idleTimeout
    · right
      rw [if_pos hfree]
    · left
      rw [if_neg hfree]
      exact ⟨se, qs, rfl, rfl, List.suffix_refl _, h, by simp⟩

end

/-! ## A sender that talks to one peer -/

/-- The sequence number of the next packet for `k`. -/
def nextSeq (k : UInt8) (a : Split) : UInt8 := ((a.sse k).map Sse.seq).getD 0

/-- The only session is the one for `dmac`, and holds the packets `qs`. -/
structure SenderInv (smac dmac : UInt8) (qs : List Packet) (a : Split) : Prop where
  only : ∀ k, k ≠ dmac → a.sse k = none
  holds : ∀ se, a.sse dmac = some se → Holds smac dmac qs se
  empty : a.sse dmac = none → qs = []

/-- What an operation of the sender queues: frames of the packet in front afterwards. -/
def QueuesFront (smac dmac : UInt8) (qs : List Packet) (a a' : Split) : Prop :=
  ∃ queued, a'.lowerSendList = a.lowerSendList ++ queued ∧
    ∀ f ∈ queued, FromFront smac dmac qs f

section

variable {smac dmac : UInt8} {qs : List Packet} {a : Split}

lemma senderInv_none (honly : ∀ k, k ≠ dmac → a.sse k = none) (hnone : a.sse dmac = none) :
    SenderInv smac dmac [] a where
  only := honly
  holds := by
    intro se hse
    rw [hnone] at hse
    cases hse
  empty := fun _ => rfl

lemma senderInv_some (honly : ∀ k, k ≠ dmac → a.sse k = none) {se : Sse}
    (hsome : a.sse dmac = some se) (hse : Holds smac dmac qs se) : SenderInv smac dmac qs a where
  only := honly
  holds := by
    intro se' hse'
    rw [hsome] at hse'
    rw [← Option.some.inj hse']
    exact hse
  empty := by
    intro hnone
    rw [hsome] at hnone
    cases hnone

lemma senderInv_init (smac dmac : UInt8) : SenderInv smac dmac [] splitInit :=
  senderInv_none (fun _ _ => rfl) rfl

lemma senderInv_sent (h : SenderInv smac dmac qs a) {qs' : List Packet} {r : Sse × List Bytes}
    (hr : Holds smac dmac qs' r.1) : SenderInv smac dmac qs' (a.sent dmac r) := by
  refine senderInv_some (fun k hk => ?_) (by rw [sent_sse, if_pos rfl]) hr
  rw [sent_sse, if_neg hk]
  exact h.only k hk

lemma nextSeq_sent (a : Split) (k : UInt8) (r : Sse × List Bytes) :
    nextSeq k (a.sent k r) = r.1.seq := by
  rw [nextSeq, sent_sse, if_pos rfl]
  rfl

lemma nextSeq_sent_same {se : Sse} {k : UInt8} (hget : a.sse k = some se) {r : Sse × List Bytes}
    (hseq : r.1.seq = se.seq) : nextSeq k (a.sent k r) = nextSeq k a := by
  rw [nextSeq_sent, hseq, nextSeq, hget]
  rfl

/-- The session that `upper_send` finds, or makes. -/
lemma seq_getSse (now : ℤ) (k : UInt8) (a : Split) :
    ((getSse now k a).getD (createSse now)).seq = nextSeq k a := by
  rw [getSse, nextSeq]
  cases a.sse k with
  | none => rfl
  | some se => rfl

lemma SenderInv.holds_getSse (h : SenderInv smac dmac qs a) (now : ℤ) :
    Holds smac dmac qs ((getSse now dmac a).getD (createSse now)) := by
  rw [getSse]
  cases hget : a.sse dmac with
  | none =>
    rw [h.empty hget]
    exact List.Forall₂.nil
  | some se => exact h.holds se hget

/-- What `upper_send` does to a sender: the packet goes to the end of the queue. -/
lemma SenderInv.upperSend_eq (h : SenderInv smac dmac qs a) (now : ℤ) (stack : Stack) {msg : Bytes}
    (hmsg : msg ≠ []) :
    ∃ (se : Sse) (p : Packet), se.seq = nextSeq dmac a ∧ p.seq = nextSeq dmac a ∧
      p.payload = msg.take p.payload.length ∧
      se.isWaiting = ((getSse now dmac a).getD (createSse now)).isWaiting ∧ ∃ pkt,
        upperSend now stack smac dmac msg a = (a.sent dmac (tryLowerSend now
          { se with seq := se.seq + 1, pktList := se.pktList ++ [pkt] }),
            (p.payload.length : ℤ)) ∧
        Holds smac dmac (qs ++ [p])
          { se with seq := se.seq + 1, pktList := se.pktList ++ [pkt] } := by
  obtain ⟨se, p, pkt, rfl, hret, hseq, htake, hcarries⟩ :=
    upperSend_spec now stack smac dmac hmsg a
  exact ⟨_, p, seq_getSse now dmac a, hseq.trans (seq_getSse now dmac a), htake, rfl, pkt, hret,
    List.rel_append (h.holds_getSse now) (List.Forall₂.cons hcarries List.Forall₂.nil)⟩

/-- A message is accepted as the next packet, behind those that wait. -/
lemma senderInv_upperSend (h : SenderInv smac dmac qs a) (now : ℤ) (stack : Stack) {msg : Bytes}
    (hmsg : msg ≠ []) :
    ∃ p : Packet, (upperSend now stack smac dmac msg a).2 = p.payload.length ∧
      p.payload = msg.take p.payload.length ∧ p.seq = nextSeq dmac a ∧
      nextSeq dmac (upperSend now stack smac dmac msg a).1 = p.seq + 1 ∧
      SenderInv smac dmac (qs ++ [p]) (upperSend now stack smac dmac msg a).1 ∧
      QueuesFront smac dmac (qs ++ [p]) a (upperSend now stack smac dmac msg a).1 := by
  obtain ⟨se, p, hnext, hseq, htake, -, pkt, hret, hnew⟩ := h.upperSend_eq now stack hmsg
  obtain ⟨hholds, hframes⟩ := holds_tryLowerSend hnew now
  rw [hret]
  refine ⟨p, rfl, htake, hseq, ?_, senderInv_sent h hholds, ⟨_, rfl, hframes⟩⟩
  rw [nextSeq_sent, tryLowerSend_seq, hseq, ← hnext]

/-- An acknowledgement removes the packet in front, whose sequence number it names, or leaves the
queue as it is.  A partial one must be for that very packet. -/
lemma senderInv_ack (h : SenderInv smac dmac qs a) (now : ℤ) (stack : Stack) {q : Packet}
    {done : Prop} {raw : Bytes} (hack : AckOf smac dmac q done raw)
    (hpart : ∀ fh mh req, accept raw = some (.ackPart fh mh req) →
      ∀ p qs', qs = p :: qs' → p.seq = q.seq → p = q) :
    ∃ qs', SenderInv smac dmac qs' (lowerPut now stack raw a).1 ∧
      nextSeq dmac (lowerPut now stack raw a).1 = nextSeq dmac a ∧
      ((a.sse dmac).isSome → ((lowerPut now stack raw a).1.sse dmac).isSome) ∧
      QueuesFront smac dmac qs' a (lowerPut now stack raw a).1 ∧
      ((qs' = qs ∧ ((lowerPut now stack raw a).1.sse dmac).map Sse.pktList =
          (a.sse dmac).map Sse.pktList) ∨
        ∃ p, qs = p :: qs' ∧ p.seq = q.seq ∧ done ∧
          ((lowerPut now stack raw a).1.sse dmac).map Sse.pktList =
            (a.sse dmac).map fun se => se.pktList.tail) := by
  rw [lowerPut_eq]
  cases hack with
  | @all fh mh haccept hsrc hdst hseq hdone =>
    simp only [haccept]
    rw [act_ackAll, hsrc]
    cases hget : a.sse dmac with
    | none => exact ⟨qs, h, rfl, by simp [hget], ⟨[], by simp, by simp⟩, .inl ⟨rfl, by simp [hget]⟩⟩
    | some se =>
      have htouched : Holds smac dmac qs { se with idleTimeout := now + idleTimeout } :=
        h.holds se hget
      obtain ⟨hnext, qs', hholds, hframes, hres⟩ := holds_procAckAllSse htouched now fh mh
      refine ⟨qs', senderInv_sent h hholds, nextSeq_sent_same hget hnext, by simp,
        ⟨_, rfl, hframes⟩, ?_⟩
      rcases hres with ⟨hqs, hlist⟩ | ⟨p, hqs, hp, hlist⟩
      · left
        refine ⟨hqs, ?_⟩
        simp only [sent_sse, if_true, Option.map_some, hlist]
      · right
        refine ⟨p, hqs, by rw [hp, hseq], hdone, ?_⟩
        simp only [sent_sse, if_true, Option.map_some, hlist]
  | @part fh mh req haccept hsrc hdst hseq hrange =>
    simp only [haccept]
    rw [act_ackPart, hsrc]
    cases hget : a.sse dmac with
    | none => exact ⟨qs, h, rfl, by simp [hget], ⟨[], by simp, by simp⟩, .inl ⟨rfl, by simp [hget]⟩⟩
    | some se =>
      have htouched : Holds smac dmac qs { se with idleTimeout := now + idleTimeout } :=
        h.holds se hget
      have hreq : ∀ p qs', qs = p :: qs' → p.seq = mh.seq → ∀ k ∈ req, k.toNat < p.slices := by
        intro p qs' hqs hp
        rw [hpart fh mh req haccept p qs' hqs (by rw [hp, hseq])]
        exact hrange
      obtain ⟨hnext, hholds, hframes⟩ := holds_procAckPartSse htouched now stack fh mh hreq
      refine ⟨qs, senderInv_sent h hholds, nextSeq_sent_same hget hnext, by simp,
        ⟨_, rfl, hframes⟩, .inl ⟨rfl, ?_⟩⟩
      simp only [sent_sse, if_true, Option.map_some, procAckPartSse_pktList]

/-- The timer looks at the one session only. -/
lemma procTimer_only (h : SenderInv smac dmac qs a) (now : ℤ) (stack : UInt8 → Stack) :
    (procTimer now stack a).lowerSendList =
      a.lowerSendList ++ (tickSse now (stack dmac) (a.sse dmac)).2 := by
  rw [procTimer_lowerSendList, flatMap_single (k := dmac) _ nodup_macs (mem_macs dmac)]
  intro k hk
  rw [h.only k hk]
  rfl

/-- The timer drops packets in front, or all of them with the session. -/
lemma senderInv_procTimer (h : SenderInv smac dmac qs a) (now : ℤ) (stack : UInt8 → Stack) :
    ∃ qs', qs' <:+ qs ∧ SenderInv smac dmac qs' (procTimer now stack a) ∧
      (((a.sse dmac).isSome → ((procTimer now stack a).sse dmac).isSome) →
        nextSeq dmac (procTimer now stack a) = nextSeq dmac a) ∧
      QueuesFront smac dmac qs' a (procTimer now stack a) := by
  have honly : ∀ k, k ≠ dmac → (procTimer now stack a).sse k = none := by
    intro k hk
    rw [procTimer_sse, h.only k hk]
    rfl
  have hsse := procTimer_sse now stack a dmac
  have hlist := procTimer_only h now stack
  cases hget : a.sse dmac with
  | none =>
    rw [hget] at hsse hlist
    refine ⟨[], List.nil_suffix, senderInv_none honly hsse, fun _ => ?_,
      ⟨_, hlist, by simp [tickSse]⟩⟩
    rw [nextSeq, hsse, nextSeq, hget]
    rfl
  | some se =>
    rw [hget] at hsse hlist
    rcases holds_tickSse (h.holds se hget) now (stack dmac) with
      ⟨se', qs', hse', hseq, hsuffix, hholds, hframes⟩ | hfree
    · rw [hse'] at hsse
      refine ⟨qs', hsuffix, senderInv_some honly hsse hholds, fun _ => ?_, ⟨_, hlist, hframes⟩⟩
      rw [nextSeq, hsse, nextSeq, hget]
      exact hseq
    · rw [hfree] at hsse hlist
      refine ⟨[], List.nil_suffix, senderInv_none honly hsse, fun hkept => ?_,
        ⟨_, hlist, by simp⟩⟩
      have hsome := hkept rfl
      rw [hsse] at hsome
      cases hsome

end

/-! ## A receiver and a frame of a packet -/

/-- The session receives the packet, and is completed when nothing is missing. -/
structure Serves (q : Packet) (se : Rse) : Prop where
  receives : Receives q se
  completed : Full q se ↔ se.completed = true

/-- What an operation of the receiver queues: acknowledgements of the packet. -/
def QueuesAcks (smac dmac : UInt8) (q : Packet) (done : Prop) (b b' : Split) : Prop :=
  ∃ queued, b'.lowerSendList = b.lowerSendList ++ queued ∧
    ∀ f ∈ queued, AckOf smac dmac q done f

/-- The bytes are accepted as a DATA frame. -/
def isData (raw : Bytes) : Bool :=
  match accept raw with
  | some (.data _ _ _) => true
  | _ => false

/-- What a frame of the packet `p` does to a receiver whose session, if there is one, is for `q`. -/
inductive ReceiverStep (smac dmac : UInt8) (p q : Packet) (raw : Bytes) (b b' : Split) : Prop
  | none (other : isData raw = false) (eq : b' = b) (before : b.rse smac = Option.none)
  | opened {se' : Rse} (data : isData raw = true) (rse : b'.rse smac = some se')
      (serves : Serves p se') (pending : se'.completed = false)
      (upper : b'.upperRecvList = b.upperRecvList) (acks : QueuesAcks smac dmac p False b b')
  | kept {se se' : Rse} (other : isData raw = false) (before : b.rse smac = some se)
      (rse : b'.rse smac = some se') (serves : Serves q se')
      (completed : se'.completed = se.completed)
      (upper : b'.upperRecvList = b.upperRecvList)
      (acks : QueuesAcks smac dmac q (se'.completed = true) b b')
  | finished {se se' : Rse} (other : isData raw = false) (before : b.rse smac = some se)
      (pending : se.completed = false) (rse : b'.rse smac = some se') (serves : Serves p se')
      (completed : se'.completed = true)
      (same : q = p) (upper : b'.upperRecvList = b.upperRecvList ++ [p.payload])
      (acks : QueuesAcks smac dmac p True b b')

section

variable {smac dmac : UInt8} {p q : Packet} {se : Rse} {fh : FrmHdr}

lemma Serves.touch (h : Serves q se) (t : ℤ) : Serves q { se with idleTimeout := t } :=
  ⟨h.receives.update t se.completed, h.completed⟩

lemma ackOf_acka (hsrc : fh.src = smac) (hdst : fh.dst = dmac) (q : Packet) {done : Prop}
    (hdone : done) :
    AckOf smac dmac q done (framed (ackFrame fh.src fh.dst frameTypeAcka 0 q.seq [])) :=
  .all (accept_acka ..) hdst hsrc rfl hdone

lemma ackOf_ackp (hsrc : fh.src = smac) (hdst : fh.dst = dmac) {req : Bytes} (hne : req ≠ [])
    (hlen : req.length ≤ 256) (hrange : ∀ k ∈ req, k.toNat < q.slices) (done : Prop) :
    AckOf smac dmac q done (framed (ackFrame fh.src fh.dst frameTypeAckp 0 q.seq req)) :=
  .part (accept_ackp _ _ _ hne hlen) hdst hsrc rfl hrange

/-- What a session acknowledges is the packet it serves. -/
lemma Serves.ackOf_sendAck (h : Serves q se) (hsrc : fh.src = smac) (hdst : fh.dst = dmac)
    {stack : Stack} {f : Bytes} (hf : f ∈ (sendAck stack fh.src fh.dst se).1) :
    AckOf smac dmac q (se.completed = true) f := by
  by_cases hfull : Full q se
  · rw [h.receives.sendAck_full stack fh hfull, List.mem_singleton] at hf
    rw [hf]
    exact ackOf_acka hsrc hdst q (h.completed.1 hfull)
  · obtain ⟨req, hack, -, hne, hlen, hrange⟩ := h.receives.sendAck_missing stack fh hfull
    rw [hack, List.mem_singleton] at hf
    rw [hf]
    exact ackOf_ackp hsrc hdst hne hlen hrange _

/-- The headers of a packet open a session for it, with nothing received. -/
lemma receiverStep_head (now : ℤ) (stack : Stack) {raw : Bytes} (b : Split)
    (haccept : accept raw = some (.data (p.hdrs smac dmac).1 (p.hdrs smac dmac).2 [])) :
    ReceiverStep smac dmac p q raw b
      (b.act now stack (.data (p.hdrs smac dmac).1 (p.hdrs smac dmac).2 [])) := by
  have hsrc : (p.hdrs smac dmac).1.src = smac := by rw [p.hdrs_eq]; rfl
  have hdst : (p.hdrs smac dmac).1.dst = dmac := by rw [p.hdrs_eq]; rfl
  rw [Split.act, hsrc]
  obtain ⟨hreceives, hbits, hpending, hsub, hqueued⟩ := receives_data stack
    (p.hdrs smac dmac).1 p smac dmac ((getRse now smac b).getD (resetRse now))
  refine .opened (by rw [isData, haccept]) (by rw [received_rse, if_pos rfl])
    ⟨hreceives, ?_⟩ hpending ?_ ⟨_, rfl, ?_⟩
  · constructor
    · intro hfull
      have := hfull 0 p.slices_pos
      rw [hbits 0] at this
      cases this
    · intro hdone
      rw [hpending] at hdone
      cases hdone
  · rw [received_upperRecvList, hsub, List.append_nil]
  · intro f hf
    rw [hqueued, List.mem_singleton] at hf
    rw [hf]
    have hle := p.slices_le
    have hpos := p.slices_pos
    rw [maxSliceNum_eq] at hle
    refine ackOf_ackp hsrc hdst ?_ ?_ ?_ _
    · intro hnil
      have := congrArg List.length hnil
      simp only [List.length_map, List.length_range, List.length_nil] at this
      omega
    · rw [List.length_map, List.length_range]
      omega
    · intro k hk
      obtain ⟨i, hi, rfl⟩ := List.mem_map.1 hk
      rw [List.mem_range] at hi
      rw [Packet.toNat_ofNat hi]
      exact hi

/-- A session that is asked for an acknowledgement stays as it is. -/
lemma receiverStep_ackReq (now : ℤ) (stack : Stack) {raw : Bytes} {b : Split} {mh : MsgHdr}
    (haccept : accept raw = some (.ackReq fh mh)) (hsrc : fh.src = smac) (hdst : fh.dst = dmac)
    (hget : b.rse smac = some se)
    (hserves : Serves q { se with idleTimeout := now + idleTimeout }) :
    ReceiverStep smac dmac p q raw b (b.received smac
      (procAckReqRse stack fh mh { se with idleTimeout := now + idleTimeout })) := by
  obtain ⟨hse, hsub, hqueued⟩ := receives_ackReq stack fh hserves.receives mh
  refine .kept (by rw [isData, haccept]) hget (by rw [received_rse, if_pos rfl]) (hse ▸ hserves)
    (by rw [hse]) ?_ ⟨_, rfl, ?_⟩
  · rw [received_upperRecvList, hsub, List.append_nil]
  · intro f hf
    rw [hqueued] at hf
    split_ifs at hf
    · rw [hse]
      exact hserves.ackOf_sendAck hsrc hdst hf
    · cases hf

/-- Slices finish the session of their packet or leave it pending; nothing else changes. -/
lemma receiverStep_patch (now : ℤ) (stack : Stack) {raw : Bytes} {b : Split} {mh : MsgHdr}
    {data : Bytes} (haccept : accept raw = some (.patch fh mh data)) (hsrc : fh.src = smac)
    (hdst : fh.dst = dmac) (hseq : mh.seq = p.seq)
    (hslices : ∀ j < patchSlices mh data, SliceFrom p (sliceAt data j))
    (hget : b.rse smac = some se) (hserves : Serves q { se with idleTimeout := now + idleTimeout })
    (hsame : se.completed = false → q.seq = p.seq → q = p) :
    ReceiverStep smac dmac p q raw b (b.received smac
      (procPatchRse stack fh mh data { se with idleTimeout := now + idleTimeout })) := by
  have hother : isData raw = false := by rw [isData, haccept]
  have hfrom : se.completed = false → mh.seq = q.seq → ∀ j < patchSlices mh data,
      SliceFrom q (sliceAt data j) := by
    intro hpending hq
    obtain rfl := hsame hpending (by rw [← hq, hseq])
    exact hslices
  have hdata : data.length ≤ linkMtu := accept_length haccept
  rcases receives_patch stack fh hserves.receives hdata hfrom with
    ⟨-, heq⟩ | ⟨hq, hpending, se', hse', hnew, hres⟩
  · simp only [heq]
    exact .kept hother hget (by rw [received_rse, if_pos rfl]) hserves rfl (by simp)
      ⟨[], by simp, by simp⟩
  · obtain rfl := hsame hpending (by rw [← hq, hseq])
    rcases hres with ⟨hfull, hse, hqueued, hsub⟩ | ⟨hmissing, hse, hqueued, hsub⟩
    · refine .finished hother hget hpending (by rw [received_rse, if_pos rfl]) ?_ (by rw [hse]) rfl
        (by rw [received_upperRecvList, hsub]) ⟨_, rfl, ?_⟩
      · rw [hse]
        exact ⟨hnew.update se'.idleTimeout true, fun _ => rfl, fun _ => hfull⟩
      · intro f hf
        rw [hqueued, List.mem_singleton] at hf
        rw [hf]
        exact ackOf_acka hsrc hdst q trivial
    · have hcompleted : se'.completed = se.completed := by rw [hse', patchRse_completed]
      refine .kept hother hget (by rw [received_rse, if_pos rfl]) ?_ (by rw [hse, hcompleted])
        (by rw [received_upperRecvList, hsub, List.append_nil]) ⟨_, rfl, by simp [hqueued]⟩
      rw [hse]
      refine ⟨hnew, fun hfull => absurd hfull hmissing, fun hdone => ?_⟩
      rw [hcompleted, hpending] at hdone
      cases hdone

/-- **A receiver that is sent a frame of a packet.**  Slices are stored only for the packet that
the session is for. -/
lemma receiverStep (now : ℤ) (stack : Stack) {raw : Bytes} {b : Split}
    (hf : FrameOf smac dmac p raw) (hs : ∀ se, b.rse smac = some se → Serves q se)
    (hpatch : ∀ fh mh data, accept raw = some (.patch fh mh data) → ∀ se, b.rse smac = some se →
      se.completed = false → q.seq = p.seq → q = p) :
    (lowerPut now stack raw b).1.sse = b.sse ∧
      ReceiverStep smac dmac p q raw b (lowerPut now stack raw b).1 := by
  rw [lowerPut_eq]
  cases hf with
  | head haccept =>
    simp only [haccept]
    exact ⟨rfl, receiverStep_head now stack b haccept⟩
  | @ackReq fh mh haccept hsrc hdst =>
    simp only [haccept]
    rw [act_ackReq, hsrc]
    cases hget : b.rse smac with
    | none => exact ⟨rfl, .none (by rw [isData, haccept]) rfl hget⟩
    | some se =>
      exact ⟨rfl, receiverStep_ackReq now stack haccept hsrc hdst hget ((hs se hget).touch _)⟩
  | @patch fh mh data haccept hsrc hdst hseq hslices =>
    simp only [haccept]
    rw [act_patch, hsrc]
    cases hget : b.rse smac with
    | none => exact ⟨rfl, .none (by rw [isData, haccept]) rfl hget⟩
    | some se =>
      exact ⟨rfl, receiverStep_patch now stack haccept hsrc hdst hseq hslices hget
        ((hs se hget).touch _) (hpatch fh mh data haccept se hget)⟩

end

end Ipcf
