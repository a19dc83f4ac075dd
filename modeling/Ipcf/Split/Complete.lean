import Ipcf.Split.Queue

/-!
# Which frames are complete

A frame on `lower_send_list` is complete when it is what `en_frame` makes of some bytes that fit,
and these bytes pass the tests of the handler they are for.  Five pieces of code queue frames.
Four of them queue complete frames only, as their frames always fit: the headers of a packet, the
two acknowledgements and the request for one.  The fifth is `send_patch`: how long its frame is
once escaped depends on the slices that are asked for, and the test for a frame that is too long
compares an unsigned length with zero.

`frames_complete_iff` draws the line exactly: a call queues complete frames only, and nothing for a
frame that does not fit, if and only if the PATCH frame it is to answer with, if there is one,
fits.
-/

namespace Ipcf

/-- The output of a successful `en_frame`: its length is the value `en_frame` returned and at most
the MTU, `de_frame` reads it back with success, and what it reads is accepted by the handler it is
for, the two checksums included. -/
def Complete (f : Bytes) : Prop :=
  ∃ data, enFrame data linkMtu = ⟨f.length, data.length, f⟩ ∧ f.length ≤ linkMtu ∧
    deFrame f linkMtu = ⟨0, data⟩ ∧ (acceptBuf data).isSome = true

/-- The PATCH frame that an event is to be answered with: the event is a partial acknowledgement of
the front of the queue of its session, and asks for a slice that exists. -/
def Split.patchAnswer (s : Split) (e : Event) : Option Bytes :=
  match e.op with
  | .lowerPut raw =>
    match accept raw with
    | some (.ackPart fh mh data) =>
      match (s.sse fh.src).map Sse.pktList with
      | some (pkt :: _) =>
        if pkt.fh.src = fh.dst ∧ pkt.fh.dst = fh.src ∧ pkt.mh.seq = mh.seq ∧
            patchCount pkt data ≠ 0 then
          some (patchImage (e.stack 0).buf pkt data)
        else none
      | _ => none
    | _ => none
  | _ => none

lemma complete_framed {data : Bytes} (hfit : escapedLen data ≤ linkMtu)
    (haccept : (acceptBuf data).isSome = true) : Complete (framed data) := by
  have hshort := length_lt_escapedLen data
  refine ⟨data, ?_, ?_, deFrame_framed data (by omega), haccept⟩
  · rw [enFrame_eq data (by decide), if_pos hfit, length_framed]
  · rw [length_framed]
    exact hfit

/-- A complete frame ends in a break. -/
lemma Complete.getLast {f : Bytes} (h : Complete f) : f.getLast? = some breakChar := by
  obtain ⟨data, hen, hlen, -, -⟩ := h
  have hfit : escapedLen data ≤ linkMtu := by
    by_contra hfit
    rw [enFrame_eq data (by decide), if_neg hfit] at hen
    have := congrArg EnFrame.ret hen
    simp only at this
    omega
  rw [enFrame_eq data (by decide), if_pos hfit] at hen
  have hf : framed data = f := congrArg EnFrame.frm hen
  rw [← hf, framed, List.getLast?_concat]

/-! ## The builders whose frames always fit -/

lemma complete_head (smac dmac : UInt8) (p : Packet) : Complete (framed (p.head smac dmac)) := by
  have hfit := p.escapedLen_head_le smac dmac
  apply complete_framed hfit
  rw [← accept_framed hfit, p.accept_head]
  rfl

lemma complete_sendAck {stack : Stack} {dst src : UInt8} {se : Rse} {f : Bytes}
    (hf : f ∈ (sendAck stack dst src se).1) : Complete f := by
  have hlen := length_missing_le se.bitmap se.nSlices
  have hn := se.nSlices.toNat_lt
  rw [sendAck_eq] at hf
  split_ifs at hf with h1 h2 h3
  · simp at hf
  · have hfit := @escapedLen_ackFrame_le dst src frameTypeAcka 0 se.seqExp [] (by simp)
    rw [List.mem_singleton.1 hf]
    apply complete_framed hfit
    rw [← accept_framed hfit, accept_acka]
    rfl
  · simp at hf
  · have hle : (missing se.bitmap se.nSlices).1.length ≤ 256 := by omega
    have hfit := escapedLen_ackFrame_le dst src frameTypeAckp 0 se.seqExp hle
    rw [List.mem_singleton.1 hf]
    apply complete_framed hfit
    rw [← accept_framed hfit, accept_ackp dst src se.seqExp h3 hle]
    rfl

lemma complete_sendAckReq {stack : Stack} {dst src : UInt8} {se : Sse} {f : Bytes}
    (hf : f ∈ sendAckReq stack dst src se) : Complete f := by
  have hfit := @escapedLen_ackFrame_le dst src frameTypeAckr (stack.buf.get 3 0) (se.seq - 1) []
    (by simp)
  rw [sendAckReq, putEscaped_fits _ hfit, List.mem_singleton] at hf
  rw [hf]
  apply complete_framed hfit
  rw [← accept_framed hfit, accept_ackr]
  rfl

lemma IsHead.complete {k : UInt8} {f : Bytes} (h : IsHead k f) : Complete f := by
  obtain ⟨smac, p, rfl⟩ := h
  exact complete_head smac k p

/-! ## The PATCH frame -/

/-- A PATCH frame that fits is complete. -/
lemma complete_patchImage (tmp : Buffer UInt8 linkMtu) {pkt : SendNode} {smac dmac : UInt8}
    {p : Packet} (h : pkt.Carries smac dmac p) {req : Bytes} (hcount : patchCount pkt req ≠ 0)
    (hfit : escapedLen (patchImage tmp pkt req) ≤ linkMtu) :
    Complete (framed (patchImage tmp pkt req)) := by
  apply complete_framed hfit
  rw [patchImage, acceptBuf_patchHead]
  · rfl
  · have hblocks := length_patchBlocks h.length_slice tmp
      (show 0 + (req.take maxSliceNum).length ≤ maxSliceNum by simp)
    have hle : patchCount pkt req ≤ (req.take maxSliceNum).length := List.length_filter_le _ _
    rw [List.length_take, hblocks, Nat.min_eq_left (Nat.mul_le_mul_left _ hle)]
    exact Nat.le_mul_of_pos_right _ (Nat.pos_of_ne_zero hcount)

/-! ## One call -/

section

variable {s : Split} {e : Event}

/-- What is said of the frames `queued` in an event. -/
def SendsComplete (s : Split) (e : Event) (queued : List Bytes) : Prop :=
  (∀ f ∈ queued, Complete f) ∧
    ∀ frm, s.patchAnswer e = some frm → ¬ escapedLen frm ≤ linkMtu → queued = []

/-- The line between the events that send complete frames and those that do not. -/
def DrawsLine (s : Split) (e : Event) : Prop :=
  ∃ queued, (s.step e).lowerSendList = s.lowerSendList ++ queued ∧
    (SendsComplete s e queued ↔ ∀ frm, s.patchAnswer e = some frm → escapedLen frm ≤ linkMtu)

/-- An event that asks for no PATCH frame. -/
lemma drawsLine_of_complete {queued : List Bytes} (hnone : s.patchAnswer e = none)
    (hlist : (s.step e).lowerSendList = s.lowerSendList ++ queued)
    (hcomplete : ∀ f ∈ queued, Complete f) : DrawsLine s e := by
  refine ⟨queued, hlist, ?_⟩
  simp only [SendsComplete, hnone, reduceCtorEq, false_imp_iff, implies_true, and_true, iff_true]
  exact hcomplete

lemma drawsLine_none (hnone : s.patchAnswer e = none) (hstep : s.step e = s) : DrawsLine s e :=
  drawsLine_of_complete hnone (by rw [hstep]; exact (List.append_nil _).symm) (by simp)

/-- The answer to a partial acknowledgement, when the session exists. -/
lemma patchAnswer_ackPart {raw : Bytes} {fh : FrmHdr} {mh : MsgHdr} {data : Bytes} {se : Sse}
    (hop : e.op = .lowerPut raw) (haccept : accept raw = some (.ackPart fh mh data))
    (hget : s.sse fh.src = some se) :
    s.patchAnswer e = match se.pktList with
      | pkt :: _ =>
        if pkt.fh.src = fh.dst ∧ pkt.fh.dst = fh.src ∧ pkt.mh.seq = mh.seq ∧
            patchCount pkt data ≠ 0 then
          some (patchImage (e.stack 0).buf pkt data)
        else none
      | [] => none := by
  simp only [Split.patchAnswer, hop, haccept, hget, Option.map_some]
  cases se.pktList <;> rfl

lemma drawsLine_ackPart (h : CarriedInv s) {raw : Bytes} {fh : FrmHdr} {mh : MsgHdr} {data : Bytes}
    (hop : e.op = .lowerPut raw) (haccept : accept raw = some (.ackPart fh mh data)) :
    DrawsLine s e := by
  have hstep := step_accepted (s := s) hop haccept
  rw [act_ackPart] at hstep
  cases hget : s.sse fh.src with
  | none =>
    rw [hget] at hstep
    exact drawsLine_none (by simp [Split.patchAnswer, hop, haccept, hget]) hstep
  | some se =>
    simp only [hget] at hstep
    have hanswer := patchAnswer_ackPart hop haccept hget
    rcases procAckPartSse_cases e.now (e.stack 0) fh mh data
      { se with idleTimeout := e.now + idleTimeout } with
      ⟨hno, heq⟩ | ⟨pkt, pkts, hlist, hsrc, hdst, hseq, heq⟩
    · rw [heq] at hstep
      refine drawsLine_of_complete ?_ (by rw [hstep]; rfl) (by simp)
      rw [hanswer]
      cases hlist : se.pktList with
      | nil => rfl
      | cons pkt pkts =>
        apply if_neg
        rintro ⟨h1, h2, h3, -⟩
        exact hno pkt pkts hlist h1 h2 h3
    · replace hlist : se.pktList = pkt :: pkts := hlist
      obtain ⟨smac, p, hpkt⟩ := h _ _ hget pkt (by rw [hlist]; simp)
      have hqueued : (s.step e).lowerSendList =
          s.lowerSendList ++ sendPatch (e.stack 0) pkt data := by
        rw [hstep, heq]
        rfl
      rw [sendPatch, patchFrame_eq hpkt.length_slice] at hqueued
      rw [hlist] at hanswer
      by_cases hcount : patchCount pkt data = 0
      · rw [if_pos hcount] at hqueued
        refine drawsLine_of_complete ?_ hqueued (by simp)
        rw [hanswer]
        simp [hcount]
      · rw [if_neg hcount] at hqueued
        simp only [hsrc, hdst, hseq, hcount, ne_eq, not_false_eq_true, and_self, if_true] at hanswer
        simp only at hqueued
        by_cases hfit : escapedLen (patchImage (e.stack 0).buf pkt data) ≤ linkMtu
        · rw [putEscaped_fits _ hfit] at hqueued
          refine ⟨_, hqueued, ?_⟩
          simp only [SendsComplete, hanswer, Option.some.injEq, forall_eq', hfit, not_true_eq_false,
            false_imp_iff, and_true, iff_true]
          intro f hf
          rw [List.mem_singleton.1 hf]
          exact complete_patchImage _ hpkt hcount hfit
        · rw [putEscaped_overrun _ hfit] at hqueued
          refine ⟨_, hqueued, ?_⟩
          simp [SendsComplete, hanswer, hfit]

lemma drawsLine_act (h : CarriedInv s) {raw : Bytes} {a : Accepted} (hop : e.op = .lowerPut raw)
    (haccept : accept raw = some a) : DrawsLine s e := by
  have hstep := step_accepted (s := s) hop haccept
  cases a with
  | data fh mh data =>
    refine drawsLine_of_complete (by simp [Split.patchAnswer, hop, haccept])
      (by rw [hstep]; rfl) ?_
    intro f hf
    obtain ⟨se', hf'⟩ := procDataRse_queued _ _ _ _ (accept_length haccept) f hf
    exact complete_sendAck hf'
  | ackReq fh mh =>
    have hnone : s.patchAnswer e = none := by simp [Split.patchAnswer, hop, haccept]
    rw [act_ackReq] at hstep
    cases hget : s.rse fh.src with
    | none =>
      rw [hget] at hstep
      exact drawsLine_none hnone hstep
    | some se =>
      rw [hget] at hstep
      refine drawsLine_of_complete hnone (by rw [hstep]; rfl) ?_
      intro f hf
      exact complete_sendAck (procAckReqRse_queued _ _ _ _ f hf)
  | patch fh mh data =>
    have hnone : s.patchAnswer e = none := by simp [Split.patchAnswer, hop, haccept]
    rw [act_patch] at hstep
    cases hget : s.rse fh.src with
    | none =>
      rw [hget] at hstep
      exact drawsLine_none hnone hstep
    | some se =>
      rw [hget] at hstep
      refine drawsLine_of_complete hnone (by rw [hstep]; rfl) ?_
      intro f hf
      obtain ⟨se', hf'⟩ := procPatchRse_queued _ _ _ _ (accept_length haccept) f hf
      exact complete_sendAck hf'
  | ackAll fh mh =>
    have hnone : s.patchAnswer e = none := by simp [Split.patchAnswer, hop, haccept]
    rw [act_ackAll] at hstep
    cases hget : s.sse fh.src with
    | none =>
      rw [hget] at hstep
      exact drawsLine_none hnone hstep
    | some se =>
      rw [hget] at hstep
      refine drawsLine_of_complete hnone (by rw [hstep]; rfl) ?_
      intro f hf
      have hcarried : Carried fh.src
          { se with idleTimeout := e.now + idleTimeout }.pktList := h _ se hget
      exact (isHead_procAckAllSse hcarried hf).complete
  | ackPart fh mh data => exact drawsLine_ackPart h hop haccept

lemma drawsLine_step (h : CarriedInv s) : DrawsLine s e := by
  cases hop : e.op with
  | upperSend smac dmac msg =>
    have hnone : s.patchAnswer e = none := by simp [Split.patchAnswer, hop]
    have hstep := step_upperSend (s := s) hop
    by_cases hmsg : msg = []
    · rw [hmsg, upperSend_nil] at hstep
      exact drawsLine_none hnone hstep
    · have hcarried := carriedInv_step h e
      obtain ⟨se, p, pkt, -, hret, -, -, -⟩ := upperSend_spec e.now (e.stack 0) smac dmac hmsg s
      rw [hret] at hstep
      refine drawsLine_of_complete hnone (by rw [hstep]; rfl) ?_
      intro f hf
      have hsent := hcarried dmac _ (by rw [hstep, sent_sse, if_pos rfl])
      rw [tryLowerSend_pktList] at hsent
      exact (isHead_tryLowerSend hsent hf).complete
  | lowerPut raw =>
    cases haccept : accept raw with
    | none =>
      exact drawsLine_none (by simp [Split.patchAnswer, hop, haccept]) (step_rejected hop haccept)
    | some a => exact drawsLine_act h hop haccept
  | procTimer =>
    refine drawsLine_of_complete (by simp [Split.patchAnswer, hop])
      (by rw [step_procTimer hop, procTimer_lowerSendList]) ?_
    intro f hf
    obtain ⟨k, -, hf⟩ := List.mem_flatMap.1 hf
    cases hget : s.sse k with
    | none =>
      rw [hget] at hf
      simp [tickSse] at hf
    | some se =>
      rw [hget] at hf
      simp only [tickSse] at hf
      split_ifs at hf
      · rcases queued_procSseAckTimeout (h _ _ hget) hf with hhead | ⟨dst, src, hask⟩
        · exact hhead.complete
        · exact complete_sendAckReq hask
      · simp at hf

end

/-- **Complete frames.** In every reachable state and for every event, the frames that are queued
are complete, and nothing is queued for a frame that does not fit, exactly when the PATCH frame
that the event is to be answered with, if there is one, fits into the MTU. -/
theorem frames_complete_iff (es : List Event) (e : Event) :
    ∃ queued, (run (es ++ [e])).lowerSendList = (run es).lowerSendList ++ queued ∧
      (((∀ f ∈ queued, Complete f) ∧
          ∀ frm, (run es).patchAnswer e = some frm → ¬ escapedLen frm ≤ linkMtu → queued = []) ↔
        ∀ frm, (run es).patchAnswer e = some frm → escapedLen frm ≤ linkMtu) := by
  rw [run_concat]
  exact drawsLine_step (carried_run es)

/-- A peer that asks 27 times for a slice full of break characters is sent a frame that is cut in
the middle. -/
theorem frame_incomplete :
    ¬ ∀ (es : List Event) (e : Event) (queued : List Bytes),
      (run (es ++ [e])).lowerSendList = (run es).lowerSendList ++ queued →
        ∀ f ∈ queued, Complete f := by
  intro h
  have hbad : ∃ f ∈ (run ([⟨1, default, .upperSend 1 2 (List.replicate 32 breakChar)⟩] ++
        [⟨1, default, .lowerPut
          (framed (ackFrame 1 2 frameTypeAckp 0 0 (List.replicate 27 0)))⟩])).lowerSendList,
      f ∉ (run [⟨1, default, .upperSend 1 2 (List.replicate 32 breakChar)⟩]).lowerSendList ∧
        f.getLast? ≠ some breakChar := by
    decide +kernel
  obtain ⟨f, hf, hnew, hlast⟩ := hbad
  obtain ⟨queued, hqueued, -⟩ := drawsLine_step (e := ⟨1, default, .lowerPut
    (framed (ackFrame 1 2 frameTypeAckp 0 0 (List.replicate 27 0)))⟩)
    (carried_run [⟨1, default, .upperSend 1 2 (List.replicate 32 breakChar)⟩])
  rw [← run_concat] at hqueued
  rw [hqueued] at hf
  exact hlast (h _ _ queued hqueued f ((List.mem_append.1 hf).resolve_left hnew)).getLast

end Ipcf
