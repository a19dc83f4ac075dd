import Ipcf.Split.Receives
import Ipcf.Split.Session

/-!
# Requests for an acknowledgement

`send_ack_req` takes the sequence number of the request from the counter of the session, less one:
the number of the packet that was queued last.  The packet that waits for its acknowledgement is
the one that was queued first.  They are the same packet when the queue holds one packet, and have
the same number once in 256 (`ackr_names_front_iff`); a receiver that holds the front ignores the
request else.
-/

namespace Ipcf

section

variable {k : UInt8} {e : Event}

/-- A request is sent for a timeout only, and this is the request. -/
lemma stepSse_ackr {o : Option Sse} (h : ∀ se, o = some se → SseSound k se) {f : Bytes}
    (hf : f ∈ (stepSse k e o).2) (htype : frameType f = some frameTypeAckr) :
    e.op = .procTimer ∧ ∃ se pkt pkts, o = some se ∧ se.due e.now = true ∧
      se.pktList = pkt :: pkts ∧ f ∈ sendAckReq (e.stack k) pkt.fh.dst pkt.fh.src se := by
  have hmem : Happening.ackr ∈ sends k e o :=
    List.mem_filterMap.2 ⟨f, hf, happening_ackr htype⟩
  have hchange := sseChange_stepSse k e h
  generalize hafter : (stepSse k e o).1 = o' at hchange
  generalize hsends : sends k e o = ss at hchange hmem
  generalize heard k e o = hs at hchange
  generalize e.sendsTo k = accepts at hchange
  have hfirst : ∀ pkts, Happening.ackr ∉ firstSent pkts := by
    intro pkts
    unfold firstSent
    split_ifs <;> simp
  cases hchange with
  | absent => simp at hmem
  | kept => simp at hmem
  | freed => simp at hmem
  | started => simp at hmem
  | appended => simp at hmem
  | acked => exact absurd hmem (hfirst _)
  | partAcked t _ _ hsent => rcases hsent with rfl | rfl <;> simp at hmem
  | resent => simp at hmem
  | dropped => exact absurd hmem (hfirst _)
  | @asked se t hop hdue hne hretry =>
    obtain ⟨pkt, pkts, hlist⟩ := List.exists_cons_of_ne_nil hne
    refine ⟨hop, se, pkt, pkts, rfl, hdue, hlist, ?_⟩
    simp only [stepSse, hop, tickSse_due hdue hne] at hf
    rcases procSseAckTimeout_cases e.now (e.stack k) hlist with ⟨-, heq⟩ | ⟨h1, -⟩ | ⟨h1, -⟩
    · rw [heq] at hf
      exact hf
    · omega
    · omega

/-- The number of the front, and the number in the request, agree when the packets behind the
front are a multiple of 256. -/
lemma SseSound.front_seq_iff {se : Sse} (h : SseSound k se) {pkt : SendNode} {pkts : List SendNode}
    (hlist : se.pktList = pkt :: pkts) :
    se.seq - 1 = pkt.mh.seq ↔ se.pktList.length % 256 = 1 := by
  have hpos : 0 < se.pktList.length := by simp [hlist]
  have hfront := h.seqs 0 hpos
  have hget : se.pktList[0] = pkt := by simp [hlist]
  rw [hget, Nat.sub_zero] at hfront
  rw [hfront]
  constructor
  · intro heq
    have hone : UInt8.ofNat se.pktList.length = 1 := (sub_right_inj.1 heq).symm
    have := congrArg UInt8.toNat hone
    rwa [UInt8.toNat_ofNat'] at this
  · intro hmod
    congr 1
    apply UInt8.toNat_inj.1
    rw [UInt8.toNat_ofNat', hmod]
    rfl

end

/-- **Requests.** Every request for an acknowledgement that is queued in a run comes from a session
whose timer has run out, and it names the packet in front, so that a receiver that holds this
packet answers, if and only if the length of the queue is one, or one more than a multiple of
256. -/
theorem ackr_names_front_iff (es : List Event) (e : Event) {f : Bytes}
    (hf : f ∈ (run (es ++ [e])).lowerSendList.drop (run es).lowerSendList.length)
    (htype : frameType f = some frameTypeAckr) :
    ∃ k se pkt pkts fh mh, (run es).sse k = some se ∧ se.pktList = pkt :: pkts ∧
      e.op = .procTimer ∧ se.due e.now = true ∧
      accept f = some (.ackReq fh mh) ∧ fh.src = pkt.fh.src ∧ fh.dst = pkt.fh.dst ∧
      (mh.seq = pkt.mh.seq ↔ se.pktList.length % 256 = 1) ∧
      ∀ (stack : Stack) (rse : Rse), rse.seqExp = pkt.mh.seq → rse.nak = false →
        (procAckReqRse stack fh mh rse).queued =
          if se.pktList.length % 256 = 1 then (sendAck stack fh.src fh.dst rse).1 else [] := by
  obtain ⟨-, acks, hlist, hacks⟩ := sessions_step (run es) e
  rw [run_concat, hlist, List.append_assoc, List.drop_left, List.mem_append] at hf
  rcases hf with hf | hf
  · obtain ⟨k, -, hf⟩ := List.mem_flatMap.1 hf
    obtain ⟨hop, se, pkt, pkts, hse, hdue, hlist, hf⟩ :=
      stepSse_ackr (sseSound_run es k) hf htype
    rw [sendAckReq, putEscaped_fits _ (escapedLen_ackFrame_le _ _ _ _ _ (by simp)),
      List.mem_singleton] at hf
    have hseq := (sseSound_run es k se hse).front_seq_iff hlist
    refine ⟨k, se, pkt, pkts,
      frmHdr pkt.fh.src pkt.fh.dst frameTypeAckr ((e.stack k).buf.get 3 0) frmMsgHdrLen,
      msgHdr 0xffffffff 0 (se.seq - 1) [], hse, hlist, hop, hdue, ?_, rfl, rfl, ?_, ?_⟩
    · rw [hf, accept_ackr]
    · rw [msgHdr_seq]
      exact hseq
    · intro stack rse hexp _
      rw [procAckReqRse, hexp, msgHdr_seq]
      by_cases hmod : se.pktList.length % 256 = 1
      · rw [if_pos (hseq.2 hmod).symm, if_pos hmod]
      · rw [if_neg fun heq => hmod (hseq.1 heq.symm), if_neg hmod]
  · rcases hacks f hf with h | h <;> rw [h] at htype <;> exact absurd htype (by decide)

/-- One packet is queued, and its acknowledgement does not come. -/
theorem ackr_names_front_iff_one :
    ∃ es e f, f ∈ (run (es ++ [e])).lowerSendList.drop (run es).lowerSendList.length ∧
      ∃ k se pkt pkts fh mh, (run es).sse k = some se ∧ se.pktList = pkt :: pkts ∧
        accept f = some (.ackReq fh mh) ∧
        (mh.seq = pkt.mh.seq ↔ se.pktList.length % 256 = 1) := by
  set es : List Event := [⟨1, default, .upperSend 1 2 [7]⟩]
  set e : Event := ⟨4000, default, .procTimer⟩
  have hany : ((run (es ++ [e])).lowerSendList.drop (run es).lowerSendList.length).any
      (fun f => frameType f == some frameTypeAckr) = true := by
    decide +kernel
  obtain ⟨f, hf, htype⟩ := List.any_eq_true.1 hany
  obtain ⟨k, se, pkt, pkts, fh, mh, hse, hlist, -, -, haccept, -, -, hiff, -⟩ :=
    ackr_names_front_iff es e hf (by simpa using htype)
  exact ⟨es, e, f, hf, k, se, pkt, pkts, fh, mh, hse, hlist, haccept, hiff⟩

/-- Two messages, and no acknowledgement of the first. -/
def twoQueued : List Event :=
  [⟨1, default, .upperSend 1 2 [7]⟩, ⟨2, default, .upperSend 1 2 [8]⟩]

/-- The frame is a request for the packet with the number `seq`. -/
def asksFor (seq : UInt8) (f : Bytes) : Bool :=
  match accept f with
  | some (.ackReq _ mh) => mh.seq == seq
  | _ => false

/-- Packet 0 is in front, and the request names packet 1. -/
theorem ackr_names_other :
    ∃ f fh mh se pkt, f ∈ (run (twoQueued ++ [⟨4000, default, .procTimer⟩])).lowerSendList.drop
        (run twoQueued).lowerSendList.length ∧
      accept f = some (.ackReq fh mh) ∧ (run twoQueued).sse 2 = some se ∧
      se.pktList.head? = some pkt ∧ mh.seq = 1 ∧ pkt.mh.seq = 0 := by
  have hany : ((run (twoQueued ++ [⟨4000, default, .procTimer⟩])).lowerSendList.drop
      (run twoQueued).lowerSendList.length).any (asksFor 1) = true := by
    decide +kernel
  have hfront : ((run twoQueued).sse 2).any
      (fun se => se.pktList.head?.any fun pkt => pkt.mh.seq == 0) = true := by
    decide +kernel
  obtain ⟨f, hf, hreq⟩ := List.any_eq_true.1 hany
  obtain ⟨se, hse, hpkts⟩ := (Option.any_eq_true _ _).1 hfront
  obtain ⟨pkt, hpkt, hseq⟩ := (Option.any_eq_true _ _).1 hpkts
  unfold asksFor at hreq
  split at hreq
  · rename_i fh mh haccept
    exact ⟨f, fh, mh, se, pkt, hf, haccept, hse, hpkt, by simpa using hreq, by simpa using hseq⟩
  · cases hreq

end Ipcf
