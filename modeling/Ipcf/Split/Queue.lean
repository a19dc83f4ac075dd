import Ipcf.Split.Patch
import Ipcf.Split.Reassembly
import Ipcf.Split.Run
import Mathlib.Data.List.Infix

/-!
# The queue of a send session

What each function of `Split/Send.lean` can do, stated once: `tryLowerSend_cases`,
`procAckAllSse_cases`, `procAckPartSse_cases` and `procSseAckTimeout_cases` are all the ways a
send session changes, and later proofs split on them instead of unfolding the functions.

Packets enter a queue at its end, through `upper_send`, and leave it at its front, so a queue
only ever holds nodes that carry a packet (`carried_run`), in any run at all.
-/

namespace Ipcf

/-! ## What a function of one session can do -/

/-- What `try_lower_send` does: nothing, or it sends the front and waits. -/
lemma tryLowerSend_cases (now : ℤ) (se : Sse) :
    ((se.pktList = [] ∨ se.isWaiting = true) ∧ tryLowerSend now se = (se, [])) ∨
      ∃ pkt pkts, se.pktList = pkt :: pkts ∧ se.isWaiting = false ∧
        tryLowerSend now se = ({ se with ackTimeout := now + ackTimeout, isWaiting := true },
          [dataNode pkt.escaped.cells pkt.escLen.toNat]) := by
  unfold tryLowerSend
  cases hlist : se.pktList with
  | nil => exact .inl ⟨.inl rfl, rfl⟩
  | cons pkt pkts =>
    cases hwait : se.isWaiting with
    | true => exact .inl ⟨.inr rfl, rfl⟩
    | false => exact .inr ⟨pkt, pkts, rfl, rfl, rfl⟩

@[simp] lemma tryLowerSend_pktList (now : ℤ) (se : Sse) :
    (tryLowerSend now se).1.pktList = se.pktList := by
  rcases tryLowerSend_cases now se with ⟨-, h⟩ | ⟨pkt, pkts, -, -, h⟩ <;> rw [h]

@[simp] lemma tryLowerSend_idleTimeout (now : ℤ) (se : Sse) :
    (tryLowerSend now se).1.idleTimeout = se.idleTimeout := by
  rcases tryLowerSend_cases now se with ⟨-, h⟩ | ⟨pkt, pkts, -, -, h⟩ <;> rw [h]

@[simp] lemma tryLowerSend_seq (now : ℤ) (se : Sse) :
    (tryLowerSend now se).1.seq = se.seq := by
  rcases tryLowerSend_cases now se with ⟨-, h⟩ | ⟨pkt, pkts, -, -, h⟩ <;> rw [h]

/-- The first frame of a packet is its headers. -/
lemma SendNode.Carries.first_eq {pkt : SendNode} {smac dmac : UInt8} {p : Packet}
    (h : pkt.Carries smac dmac p) :
    dataNode pkt.escaped.cells pkt.escLen.toNat = framed (pkt.fh.bytes ++ pkt.mh.bytes) := by
  rw [h.first, Packet.head, ← h.hdrs]

/-- What a full acknowledgement does: nothing, or it removes the front and sends the next one. -/
lemma procAckAllSse_cases (now : ℤ) (fh : FrmHdr) (mh : MsgHdr) (se : Sse) :
    ((∀ pkt pkts, se.pktList = pkt :: pkts → pkt.fh.src = fh.dst → pkt.fh.dst = fh.src →
        pkt.mh.seq ≠ mh.seq) ∧ procAckAllSse now fh mh se = (se, [])) ∨
      ∃ pkt pkts, se.pktList = pkt :: pkts ∧ pkt.fh.src = fh.dst ∧ pkt.fh.dst = fh.src ∧
        pkt.mh.seq = mh.seq ∧
        procAckAllSse now fh mh se = tryLowerSend now { se with
          pktList := pkts, isWaiting := false, ackTimeout := -1, dataRetry := 0,
          ackRetry := 0 } := by
  unfold procAckAllSse
  cases hlist : se.pktList with
  | nil => exact .inl ⟨by simp, rfl⟩
  | cons pkt pkts =>
    simp only
    by_cases hmac : pkt.fh.src ≠ fh.dst ∨ pkt.fh.dst ≠ fh.src
    · left
      rw [if_pos hmac]
      refine ⟨?_, rfl⟩
      rintro _ _ ⟨rfl, rfl⟩ hsrc hdst
      exact absurd hmac (by simp [hsrc, hdst])
    · rw [if_neg hmac]
      rw [not_or, not_not, not_not] at hmac
      by_cases hseq : pkt.mh.seq = mh.seq
      · right
        rw [if_pos hseq]
        exact ⟨pkt, pkts, rfl, hmac.1, hmac.2, hseq, rfl⟩
      · left
        rw [if_neg hseq]
        refine ⟨?_, rfl⟩
        rintro _ _ ⟨rfl, rfl⟩ - -
        exact hseq

/-- What a partial acknowledgement does: nothing, or it answers with a PATCH frame of the front. -/
lemma procAckPartSse_cases (now : ℤ) (stack : Stack) (fh : FrmHdr) (mh : MsgHdr) (data : Bytes)
    (se : Sse) :
    ((∀ pkt pkts, se.pktList = pkt :: pkts → pkt.fh.src = fh.dst → pkt.fh.dst = fh.src →
        pkt.mh.seq ≠ mh.seq) ∧ procAckPartSse now stack fh mh data se = (se, [])) ∨
      ∃ pkt pkts, se.pktList = pkt :: pkts ∧ pkt.fh.src = fh.dst ∧ pkt.fh.dst = fh.src ∧
        pkt.mh.seq = mh.seq ∧
        procAckPartSse now stack fh mh data se =
          ({ se with ackTimeout := now + ackTimeout, ackRetry := 0 },
            sendPatch stack pkt data) := by
  unfold procAckPartSse
  cases hlist : se.pktList with
  | nil => exact .inl ⟨by simp, rfl⟩
  | cons pkt pkts =>
    simp only
    by_cases hmac : pkt.fh.src ≠ fh.dst ∨ pkt.fh.dst ≠ fh.src
    · left
      rw [if_pos hmac]
      refine ⟨?_, rfl⟩
      rintro _ _ ⟨rfl, rfl⟩ hsrc hdst
      exact absurd hmac (by simp [hsrc, hdst])
    · rw [if_neg hmac]
      rw [not_or, not_not, not_not] at hmac
      by_cases hseq : pkt.mh.seq = mh.seq
      · right
        rw [if_neg (not_not.2 hseq)]
        exact ⟨pkt, pkts, rfl, hmac.1, hmac.2, hseq, rfl⟩
      · left
        rw [if_pos hseq]
        refine ⟨?_, rfl⟩
        rintro _ _ ⟨rfl, rfl⟩ - -
        exact hseq

/-- What an acknowledgement timeout does: ask for the acknowledgement again, drop the front, or
send the headers of the front again. -/
lemma procSseAckTimeout_cases (now : ℤ) (stack : Stack) {se : Sse} {pkt : SendNode}
    {pkts : List SendNode} (hlist : se.pktList = pkt :: pkts) :
    (se.ackRetry + 1 ≤ maxRetryTimes ∧ procSseAckTimeout now stack se =
      ({ se with idleTimeout := now + idleTimeout, ackRetry := se.ackRetry + 1 },
        sendAckReq stack pkt.fh.dst pkt.fh.src se)) ∨
    (maxRetryTimes < se.ackRetry + 1 ∧ maxRetryTimes < se.dataRetry + 1 ∧
      procSseAckTimeout now stack se = tryLowerSend now { se with
        idleTimeout := now + idleTimeout, pktList := pkts, isWaiting := false, ackTimeout := -1,
        dataRetry := 0, ackRetry := 0 }) ∨
    (maxRetryTimes < se.ackRetry + 1 ∧ se.dataRetry + 1 ≤ maxRetryTimes ∧
      procSseAckTimeout now stack se = tryLowerSend now { se with
        idleTimeout := now + idleTimeout, dataRetry := se.dataRetry + 1, isWaiting := false,
        ackRetry := 0 }) := by
  simp only [procSseAckTimeout, hlist]
  by_cases h1 : se.ackRetry + 1 ≤ maxRetryTimes
  · left
    rw [if_pos h1]
    exact ⟨h1, rfl⟩
  · right
    rw [if_neg h1]
    by_cases h2 : maxRetryTimes < se.dataRetry + 1
    · left
      rw [if_pos h2]
      exact ⟨Nat.lt_of_not_le h1, h2, rfl⟩
    · right
      rw [if_neg h2]
      exact ⟨Nat.lt_of_not_le h1, Nat.le_of_not_lt h2, rfl⟩

/-! ## The types of the queued frames -/

lemma frameType_sendPatch {stack : Stack} {pkt : SendNode} {smac dmac : UInt8}
    {p : Packet} (hpkt : pkt.Carries smac dmac p) {req f : Bytes}
    (hf : f ∈ sendPatch stack pkt req) :
    frameType f = some frameTypePatch := by
  rw [sendPatch, patchFrame_eq hpkt.length_slice] at hf
  split_ifs at hf
  · simp at hf
  · simp only [patchImage, patchHead, List.append_assoc] at hf
    exact frameType_putEscaped hf

lemma frameType_ackFrame {escaped : Buffer UInt8 linkMtu} {dst src type reserved seq : UInt8}
    {data f : Bytes} (hf : f ∈ putEscaped escaped (ackFrame dst src type reserved seq data)) :
    frameType f = some type := by
  rw [ackFrame, List.append_assoc] at hf
  exact frameType_putEscaped hf

/-! ## Queues hold packets -/

/-- Every node of the queue carries a packet to `k`. -/
def Carried (k : UInt8) (pktList : List SendNode) : Prop :=
  ∀ pkt ∈ pktList, ∃ smac p, pkt.Carries smac k p

lemma Carried.suffix {k : UInt8} {pkts pkts' : List SendNode} (h : Carried k pkts)
    (hs : pkts' <:+ pkts) : Carried k pkts' := fun pkt hpkt => h pkt (hs.subset hpkt)

lemma procAckAllSse_suffix (now : ℤ) (fh : FrmHdr) (mh : MsgHdr) (se : Sse) :
    (procAckAllSse now fh mh se).1.pktList <:+ se.pktList := by
  rcases procAckAllSse_cases now fh mh se with ⟨-, h⟩ | ⟨pkt, pkts, hlist, -, -, -, h⟩
  · rw [h]
  · rw [h, tryLowerSend_pktList, hlist]
    exact List.suffix_cons pkt pkts

lemma procAckPartSse_pktList (now : ℤ) (stack : Stack) (fh : FrmHdr) (mh : MsgHdr)
    (data : Bytes) (se : Sse) :
    (procAckPartSse now stack fh mh data se).1.pktList = se.pktList := by
  rcases procAckPartSse_cases now stack fh mh data se with ⟨-, h⟩ | ⟨pkt, pkts, -, -, -, -, h⟩ <;>
    rw [h]

lemma procSseAckTimeout_suffix (now : ℤ) (stack : Stack) (se : Sse) :
    (procSseAckTimeout now stack se).1.pktList <:+ se.pktList := by
  cases hlist : se.pktList with
  | nil =>
    have h : procSseAckTimeout now stack se = (se, []) := by
      simp only [procSseAckTimeout, hlist]
    rw [h, hlist]
  | cons pkt pkts =>
    rw [← hlist]
    rcases procSseAckTimeout_cases now stack hlist with ⟨-, h⟩ | ⟨-, -, h⟩ | ⟨-, -, h⟩
    · rw [h]
    · rw [h, tryLowerSend_pktList, hlist]
      exact List.suffix_cons pkt pkts
    · rw [h, tryLowerSend_pktList]

lemma tickSse_suffix (now : ℤ) (stack : Stack) (se : Sse) {se' : Sse}
    (h : (tickSse now stack (some se)).1 = some se') : se'.pktList <:+ se.pktList := by
  simp only [tickSse] at h
  by_cases hfire : se.ackTimeout > 0 ∧ now ≥ se.ackTimeout
  · simp only [if_pos hfire] at h
    split_ifs at h
    rw [← Option.some.inj h]
    exact procSseAckTimeout_suffix now stack se
  · simp only [if_neg hfire] at h
    split_ifs at h
    rw [← Option.some.inj h]

/-- The frame has one of the types that a sender uses. -/
def SenderType (f : Bytes) : Prop :=
  frameType f = some frameTypeData ∨ frameType f = some frameTypeAckr ∨
    frameType f = some frameTypePatch

/-- The frame is the DATA frame of a packet to `k`. -/
def IsHead (k : UInt8) (f : Bytes) : Prop :=
  ∃ (smac : UInt8) (p : Packet), f = framed (p.head smac k)

lemma IsHead.frameType_eq {k : UInt8} {f : Bytes} (h : IsHead k f) :
    frameType f = some frameTypeData := by
  obtain ⟨smac, p, rfl⟩ := h
  rw [frameType, recvBuf_framed (p.escapedLen_head_le smac k), Packet.head,
    FrmHdr.read_bytes_append, p.hdrs_eq]
  rfl

lemma IsHead.senderType {k : UInt8} {f : Bytes} (h : IsHead k f) : SenderType f :=
  .inl h.frameType_eq

section

variable {now : ℤ} {stack : Stack} {k : UInt8} {se : Sse} (h : Carried k se.pktList) {f : Bytes}

include h

lemma isHead_tryLowerSend (hf : f ∈ (tryLowerSend now se).2) : IsHead k f := by
  rcases tryLowerSend_cases now se with ⟨-, heq⟩ | ⟨pkt, pkts, hlist, -, heq⟩
  · simp [heq] at hf
  · obtain ⟨smac, p, hpkt⟩ := h pkt (by simp [hlist])
    rw [heq, List.mem_singleton] at hf
    exact ⟨smac, p, hf.trans hpkt.first⟩

lemma isHead_procAckAllSse {fh : FrmHdr} {mh : MsgHdr} (hf : f ∈ (procAckAllSse now fh mh se).2) :
    IsHead k f := by
  rcases procAckAllSse_cases now fh mh se with ⟨-, heq⟩ | ⟨pkt, pkts, hlist, -, -, -, heq⟩
  · simp [heq] at hf
  · rw [heq] at hf
    refine isHead_tryLowerSend (h.suffix ?_) hf
    rw [hlist]
    exact List.suffix_cons pkt pkts

/-- The timer asks again, or sends a packet. -/
lemma queued_procSseAckTimeout (hf : f ∈ (procSseAckTimeout now stack se).2) :
    IsHead k f ∨ ∃ dst src, f ∈ sendAckReq stack dst src se := by
  cases hlist : se.pktList with
  | nil => simp [procSseAckTimeout, hlist] at hf
  | cons pkt pkts =>
    rcases procSseAckTimeout_cases now stack hlist with ⟨-, heq⟩ | ⟨-, -, heq⟩ | ⟨-, -, heq⟩
    · rw [heq] at hf
      exact .inr ⟨_, _, hf⟩
    · rw [heq] at hf
      refine .inl (isHead_tryLowerSend (h.suffix ?_) hf)
      rw [hlist]
      exact List.suffix_cons pkt pkts
    · rw [heq] at hf
      refine .inl (isHead_tryLowerSend ?_ hf)
      exact h

end

lemma senderType_procAckPartSse {now : ℤ} {stack : Stack} {k : UInt8} {fh : FrmHdr} {mh : MsgHdr}
    {data : Bytes} {se : Sse} (h : Carried k se.pktList) {f : Bytes}
    (hf : f ∈ (procAckPartSse now stack fh mh data se).2) : SenderType f := by
  rcases procAckPartSse_cases now stack fh mh data se with
    ⟨-, heq⟩ | ⟨pkt, pkts, hlist, -, -, -, heq⟩
  · simp [heq] at hf
  · obtain ⟨smac, p, hpkt⟩ := h pkt (by simp [hlist])
    rw [heq] at hf
    exact .inr (.inr (frameType_sendPatch hpkt hf))

lemma senderType_tickSse {now : ℤ} {stack : Stack} {k : UInt8} {se : Sse}
    (h : Carried k se.pktList) {f : Bytes} (hf : f ∈ (tickSse now stack (some se)).2) :
    SenderType f := by
  simp only [tickSse] at hf
  split_ifs at hf
  · rcases queued_procSseAckTimeout h hf with hhead | ⟨dst, src, hask⟩
    · exact hhead.senderType
    · exact .inr (.inl (frameType_ackFrame hask))
  · simp at hf

/-- Every queue of the state holds packets. -/
def CarriedInv (s : Split) : Prop := ∀ k se, s.sse k = some se → Carried k se.pktList

lemma carriedInv_sent {s : Split} (h : CarriedInv s) {k : UInt8} {r : Sse × List Bytes}
    (hr : Carried k r.1.pktList) : CarriedInv (s.sent k r) := by
  intro i se hse
  rw [sent_sse] at hse
  split_ifs at hse with hi
  · rw [hi, ← Option.some.inj hse]
    exact hr
  · exact h i se hse

lemma carriedInv_act {s : Split} (h : CarriedInv s) (now : ℤ) (stack : Stack) (a : Accepted) :
    CarriedInv (s.act now stack a) := by
  cases a with
  | data fh mh data => exact h
  | ackReq fh mh =>
    rw [act_ackReq]
    cases s.rse fh.src <;> exact h
  | patch fh mh data =>
    rw [act_patch]
    cases s.rse fh.src <;> exact h
  | ackAll fh mh =>
    rw [act_ackAll]
    cases hget : s.sse fh.src with
    | none => exact h
    | some se =>
      exact carriedInv_sent h (Carried.suffix (h _ se hget) (procAckAllSse_suffix now fh mh _))
  | ackPart fh mh data =>
    rw [act_ackPart]
    cases hget : s.sse fh.src with
    | none => exact h
    | some se =>
      apply carriedInv_sent h
      rw [procAckPartSse_pktList]
      exact h _ se hget

lemma carriedInv_step {s : Split} (h : CarriedInv s) (e : Event) : CarriedInv (s.step e) := by
  cases hop : e.op with
  | upperSend smac dmac msg =>
    rw [step_upperSend hop]
    by_cases hmsg : msg = []
    · rw [hmsg]
      exact h
    · obtain ⟨se, p, pkt, hse, hret, -, -, hcarries⟩ :=
        upperSend_spec e.now (e.stack 0) smac dmac hmsg s
      rw [hret]
      apply carriedInv_sent h
      rw [tryLowerSend_pktList]
      intro pkt' hpkt'
      rcases List.mem_append.1 hpkt' with hold | hnew
      · cases hget : s.sse dmac with
        | none =>
          rw [hse, getSse, hget] at hold
          simp [createSse] at hold
        | some se' =>
          rw [hse, getSse, hget] at hold
          exact h _ _ hget pkt' hold
      · rw [List.mem_singleton.1 hnew]
        exact ⟨smac, p, hcarries⟩
  | lowerPut raw =>
    cases haccept : accept raw with
    | none =>
      rw [step_rejected hop haccept]
      exact h
    | some a =>
      rw [step_accepted hop haccept]
      exact carriedInv_act h _ _ a
  | procTimer =>
    intro k se hse
    rw [step_procTimer hop, procTimer_sse] at hse
    cases hget : s.sse k with
    | none =>
      rw [hget] at hse
      simp [tickSse] at hse
    | some se' =>
      rw [hget] at hse
      exact (h _ _ hget).suffix (tickSse_suffix _ _ _ hse)

lemma carried_run (es : List Event) : CarriedInv (run es) := by
  refine run_induction CarriedInv (P := fun _ => True) ?_ (fun s e _ h => carriedInv_step h e) es
    (by simp)
  intro k se hse
  simp [splitInit] at hse

end Ipcf
