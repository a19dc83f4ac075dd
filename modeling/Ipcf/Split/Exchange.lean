import Ipcf.Split.Peers

/-!
# The exchange over a perfect link

Two endpoints on a link that loses nothing and keeps the order, without timers.  Messages are
handed to A, and frames are moved one at a time, until both sides have nothing left to send.  A
packet goes through four frames: its headers (DATA), the request for all of its slices (ACKP), the
slices (PATCH), and the acknowledgement (ACKA).

The PATCH frame is the weak point.  What `upper_send` bounds is the escaped length of the headers
and slices in a DATA frame; the PATCH frame has the same slices behind other headers, with other
checksums, so it may need more escapes, and then its end is cut off.  The receiver does not answer
a PATCH frame that leaves a slice missing, and without timers nothing is ever sent again.
`exchange_transfers_iff` says exactly when everything arrives, and `patch_lost` is a run that gets
stuck.

At most one frame is on its way at any time.  `Phase` says which one, and counts the frames that
are still to be moved; `exchange_move` is the step.
-/

namespace Ipcf

/-- The escaped length of the PATCH frame for a payload with sequence number `seq`. -/
def patchLen (smac dmac seq : UInt8) (payload : Bytes) : ℕ :=
  escapedLen (patchHead smac dmac seq (sliceCount payload.length) ++
    ((List.range (sliceCount payload.length)).map (sliceOf payload)).flatten)

/-- The PATCH frame of the packet arrives: at most its closing break is cut off. -/
def Packet.PatchFits (smac dmac : UInt8) (p : Packet) : Prop :=
  patchLen smac dmac p.seq p.payload ≤ linkMtu + 1

/-! ## The link -/

/-- Two endpoints, and the calls of `upper_send` on A with their return values. -/
structure Link where
  a : Split
  b : Split
  calls : List (Bytes × ℤ)

/-- The circumstances of moving one frame: the clock and the local arrays of the side that gets
it, the buffer of `lower_fetch`, which has room for every frame, and which side goes first when
both have one. -/
structure Transfer where
  now : ℤ
  stack : Stack
  len : ℕ
  room : linkMtu ≤ len
  fromA : Bool

/-- A call of `upper_send`, or the move of a frame. -/
inductive LinkOp
  | upperSend (now : ℤ) (stack : Stack) (msg : Bytes)
  | move (t : Transfer)

namespace Link

def init : Link where
  a := splitInit
  b := splitInit
  calls := []

/-- The part of each message that `upper_send` said it would send. -/
def accepted (x : Link) : List Bytes :=
  x.calls.filterMap fun c => if 0 < c.2 then some (c.1.take c.2.toNat) else none

def upperSend (now : ℤ) (stack : Stack) (smac dmac : UInt8) (msg : Bytes) (x : Link) : Link :=
  let r := Ipcf.upperSend now stack smac dmac msg x.a
  { x with a := r.1, calls := x.calls ++ [(msg, r.2)] }

def moveA (t : Transfer) (x : Link) : Link :=
  let r := lowerFetch t.len x.a
  { x with a := r.1, b := (lowerPut t.now t.stack r.2.1 x.b).1 }

def moveB (t : Transfer) (x : Link) : Link :=
  let r := lowerFetch t.len x.b
  { x with b := r.1, a := (lowerPut t.now t.stack r.2.1 x.a).1 }

/-- Move a frame, if there is one. -/
def move (t : Transfer) (x : Link) : Link :=
  match x.a.lowerSendList, x.b.lowerSendList with
  | [], [] => x
  | _ :: _, [] => x.moveA t
  | [], _ :: _ => x.moveB t
  | _ :: _, _ :: _ => if t.fromA then x.moveA t else x.moveB t

def step (smac dmac : UInt8) (x : Link) : LinkOp → Link
  | .upperSend now stack msg => x.upperSend now stack smac dmac msg
  | .move t => x.move t

/-- The calls, with frames moved in between in any way. -/
def run (smac dmac : UInt8) (ops : List LinkOp) : Link := ops.foldl (step smac dmac) init

/-- The state after `k` more moves. -/
def exchange (env : ℕ → Transfer) (x : Link) : ℕ → Link
  | 0 => x
  | k + 1 => (exchange env x k).move (env k)

/-- The exchange has come to rest and everything is transferred: there is no frame left, B has
submitted what A accepted, in order and once, and A waits for nothing. -/
structure Transferred (dmac : UInt8) (x : Link) : Prop where
  quietA : x.a.lowerSendList = []
  quietB : x.b.lowerSendList = []
  submitted : x.b.upperRecvList = x.accepted
  forgotten : ∀ se, x.a.sse dmac = some se → se.pktList = [] ∧ se.isWaiting = false

end Link

/-! ## Moving the only frame -/

section

variable {t : Transfer} {x : Link} {f : Bytes}

lemma move_fromA (ha : x.a.lowerSendList = [f]) (hb : x.b.lowerSendList = [])
    (hlen : f.length ≤ linkMtu) :
    x.move t = { x with
      a := { x.a with lowerSendList := [] }
      b := (lowerPut t.now t.stack f x.b).1 } := by
  have hroom : f.length ≤ t.len := Nat.le_trans hlen t.room
  rw [Link.move, ha, hb]
  simp only [Link.moveA, lowerFetch, ha, if_pos hroom]

lemma move_fromB (ha : x.a.lowerSendList = []) (hb : x.b.lowerSendList = [f])
    (hlen : f.length ≤ linkMtu) :
    x.move t = { x with
      b := { x.b with lowerSendList := [] }
      a := (lowerPut t.now t.stack f x.a).1 } := by
  have hroom : f.length ≤ t.len := Nat.le_trans hlen t.room
  rw [Link.move, ha, hb]
  simp only [Link.moveB, lowerFetch, hb, if_pos hroom]

lemma move_quiet (ha : x.a.lowerSendList = []) (hb : x.b.lowerSendList = []) : x.move t = x := by
  rw [Link.move, ha, hb]

lemma length_framed_le {data : Bytes} (h : escapedLen data ≤ linkMtu) :
    (framed data).length ≤ linkMtu := by
  rw [length_framed]
  exact h

end

/-! ## The receiver and the PATCH frame with all slices -/

section

variable {smac dmac : UInt8} {p : Packet}

/-- The session waits for all slices of the packet. -/
structure Awaits (p : Packet) (se : Rse) : Prop where
  receives : Receives p se
  empty : ∀ j, bit se.bitmap j = false
  pending : se.completed = false

lemma Awaits.touch {se : Rse} (h : Awaits p se) (t : ℤ) : Awaits p { se with idleTimeout := t } :=
  ⟨h.receives.update t se.completed, h.empty, h.pending⟩

/-- What arrives of the PATCH frame with all slices: each of them or one that fails its checksum,
and all of them intact exactly if the frame fits. -/
lemma accept_patch {escaped : Buffer UInt8 linkMtu} {f : Bytes}
    (hf : f ∈ putEscaped escaped (p.patch smac dmac)) :
    ∃ fh mh data, accept f = some (.patch fh mh data) ∧ fh.src = smac ∧ fh.dst = dmac ∧
      mh.seq = p.seq ∧ patchSlices mh data ≤ p.slices ∧
      (∀ j < patchSlices mh data,
        sliceAt data j = sliceOf p.payload j ∨ sliceCsumOk (sliceAt data j) = false) ∧
      (p.PatchFits smac dmac ↔
        ∀ j < p.slices, j < patchSlices mh data ∧ sliceCsumOk (sliceAt data j) = true) := by
  have hpos := p.slices_pos
  set ss := (List.range p.slices).map (sliceOf p.payload) with hss
  have hcount : ss.length = p.slices := by rw [hss, List.length_map, List.length_range]
  have hget : ∀ j < p.slices, ss.getD j [] = sliceOf p.payload j := by
    intro j hj
    rw [hss, List.getD_eq_getElem?_getD, List.getElem?_map, List.getElem?_range hj]
    rfl
  have hlen : ∀ s ∈ ss, s.length = sliceLen := by
    intro s hs
    obtain ⟨k, -, rfl⟩ := List.mem_map.1 hs
    exact length_sliceOf _ _
  have hok : ∀ s ∈ ss, sliceCsumOk s = true := by
    intro s hs
    obtain ⟨k, -, rfl⟩ := List.mem_map.1 hs
    exact sliceCsumOk_sliceOf _ _
  have hframe : p.patch smac dmac = patchHead smac dmac p.seq ss.length ++ ss.flatten := by
    rw [hcount]
    rfl
  have hescaped : escapedLen (patchHead smac dmac p.seq ss.length ++ ss.flatten) =
      patchLen smac dmac p.seq p.payload := by
    rw [hcount]
    rfl
  have hne : ss ≠ [] := by
    rw [← List.length_pos_iff, hcount]
    exact hpos
  rw [hframe] at hf
  obtain ⟨data, haccept, hshort, hslices, hend⟩ :=
    accept_putEscaped_patch smac dmac p.seq hne hlen hok hf
  rw [hescaped, hcount] at hend
  rw [hcount] at haccept hshort
  have hmhlen : (msgHdr 0xffffffff p.slices p.seq []).len.toNat = p.slices := by
    have hmax := p.slices_le
    rw [maxSliceNum_eq] at hmax
    rw [msgHdr_len, UInt16.toNat_ofNat']
    omega
  have hcut : data.length / sliceLen ≤ p.slices := by
    simp only [sliceLen] at *
    omega
  have hn : patchSlices (msgHdr 0xffffffff p.slices p.seq []) data = data.length / sliceLen := by
    rw [patchSlices, hmhlen, if_neg (Nat.not_lt.2 hcut)]
  refine ⟨_, _, data, haccept, rfl, rfl, rfl, hn ▸ hcut, fun j hj => ?_, ?_⟩
  · rw [hn] at hj
    rw [← hget j (Nat.lt_of_lt_of_le hj hcut)]
    exact hslices j hj
  · rw [Packet.PatchFits, hn]
    constructor
    · intro hfits j hj
      have hj' : j < ss.length := hcount.symm ▸ hj
      rw [if_pos hfits] at hend
      rw [hend, length_flatten_of_length hlen, hcount, Nat.mul_div_cancel_left _ (by decide),
        sliceAt_flatten hlen hj']
      exact ⟨hj, hok _ (List.getElem_mem hj')⟩
    · intro hall
      by_contra hover
      rw [if_neg hover] at hend
      obtain ⟨hlast, hgood⟩ := hall (p.slices - 1) (by omega)
      rcases hend with hmissing | hbad
      · omega
      · rw [hbad] at hgood
        cases hgood

/-- **The PATCH frame that answers the request for everything.**  If it fits, the payload is
submitted and acknowledged; if not, nothing is. -/
lemma awaits_patch (stack : Stack) {escaped : Buffer UInt8 linkMtu} {f : Bytes}
    (hf : f ∈ putEscaped escaped (p.patch smac dmac)) {se : Rse} (hse : Awaits p se) :
    ∃ fh mh data, accept f = some (.patch fh mh data) ∧ fh.src = smac ∧ fh.dst = dmac ∧
      ((p.PatchFits smac dmac ∧
          (procPatchRse stack fh mh data se).queued =
            [framed (ackFrame smac dmac frameTypeAcka 0 p.seq [])] ∧
          (procPatchRse stack fh mh data se).submitted = [p.payload]) ∨
        (¬ p.PatchFits smac dmac ∧ (procPatchRse stack fh mh data se).queued = [] ∧
          (procPatchRse stack fh mh data se).submitted = [])) := by
  obtain ⟨fh, mh, data, haccept, rfl, rfl, hseq, hle, hall, hfits⟩ := accept_patch hf
  have hfrom : ∀ j < patchSlices mh data, SliceFrom p (sliceAt data j) := by
    intro j hj
    rcases hall j hj with heq | hbad
    · exact .inr ⟨j, Nat.lt_of_lt_of_le hj hle, heq⟩
    · exact .inl hbad
  -- every slice is there exactly when the frame fits
  have hfull : Full p (patchRse se data (patchSlices mh data)).1 ↔
      p.PatchFits fh.src fh.dst := by
    rw [hfits]
    refine forall₂_congr fun j _ => ?_
    rw [receives_patchRse_bit hse.receives hle hall j, hse.empty]
    simp
  refine ⟨fh, mh, data, haccept, rfl, rfl, ?_⟩
  have hdata : data.length ≤ linkMtu := accept_length haccept
  rcases receives_patch stack fh hse.receives hdata (fun _ _ => hfrom) with
    ⟨hother, -⟩ | ⟨-, -, se', rfl, -, ⟨hdone, -, hqueued, hsub⟩ | ⟨hmissing, -, hqueued, hsub⟩⟩
  · rw [hseq, hse.pending] at hother
    rcases hother with hother | hother
    · exact absurd rfl hother
    · cases hother
  · exact .inl ⟨hfull.1 hdone, hqueued, hsub⟩
  · exact .inr ⟨fun hpatch => hmissing (hfull.2 hpatch), hqueued, hsub⟩

end

/-- The receiver is sent the headers of a packet: it waits for all slices, and asks for them. -/
lemma lowerPut_head (now : ℤ) (stack : Stack) (b : Split) (smac dmac : UInt8) (p : Packet) :
    ∃ se, Awaits p se ∧ (lowerPut now stack (framed (p.head smac dmac)) b).1 =
      { b with
        rse := Function.update b.rse smac (some se)
        lowerSendList := b.lowerSendList ++ [framed (ackFrame smac dmac frameTypeAckp 0 p.seq
          ((List.range p.slices).map UInt8.ofNat))]
        accesses := (lowerPut now stack (framed (p.head smac dmac)) b).1.accesses } := by
  have hsrc : (p.hdrs smac dmac).1.src = smac := by rw [p.hdrs_eq]; rfl
  have hdst : (p.hdrs smac dmac).1.dst = dmac := by rw [p.hdrs_eq]; rfl
  obtain ⟨hreceives, hempty, hpending, hsub, hqueued⟩ := receives_data stack
    (p.hdrs smac dmac).1 p smac dmac ((getRse now smac b).getD (resetRse now))
  rw [hsrc, hdst] at hqueued
  refine ⟨_, ⟨hreceives, hempty, hpending⟩, ?_⟩
  rw [lowerPut_eq]
  simp only [p.accept_head smac dmac]
  rw [Split.act, hsrc, Split.received, hsub, hqueued, List.append_nil]

/-! ## The sender -/

/-- The sender holds the packets `qs`, and waits for an acknowledgement if there is one to wait
for. -/
structure Waits (smac dmac : UInt8) (qs : List Packet) (a : Split) : Prop where
  sender : SenderInv smac dmac qs a
  waiting : ∀ se, a.sse dmac = some se → (se.isWaiting = true ↔ qs ≠ [])

section

variable {smac dmac : UInt8} {p : Packet} {qs : List Packet} {a : Split}

lemma Waits.congr (h : Waits smac dmac qs a) {a' : Split} (hsse : a'.sse = a.sse) :
    Waits smac dmac qs a' where
  sender :=
    { only := by rw [hsse]; exact h.sender.only
      holds := by rw [hsse]; exact h.sender.holds
      empty := by rw [hsse]; exact h.sender.empty }
  waiting := by rw [hsse]; exact h.waiting

lemma waits_sent (h : SenderInv smac dmac qs a) {qs' : List Packet} {r : Sse × List Bytes}
    (hholds : Holds smac dmac qs' r.1) (hwaiting : r.1.isWaiting = true ↔ qs' ≠ []) :
    Waits smac dmac qs' (a.sent dmac r) where
  sender := senderInv_sent h hholds
  waiting := by
    intro se hse
    rw [sent_sse, if_pos rfl] at hse
    rw [← Option.some.inj hse]
    exact hwaiting

/-- A packet that is queued has a session. -/
lemma SenderInv.session (h : SenderInv smac dmac (p :: qs) a) :
    ∃ se pkt pkts, a.sse dmac = some se ∧ se.pktList = pkt :: pkts ∧ pkt.Carries smac dmac p ∧
      List.Forall₂ (fun pkt p => SendNode.Carries pkt smac dmac p) pkts qs := by
  cases hget : a.sse dmac with
  | none => cases h.empty hget
  | some se =>
    obtain ⟨pkt, pkts, hpkt, hpkts, hlist⟩ := List.forall₂_cons_right_iff.1 (h.holds se hget)
    exact ⟨se, pkt, pkts, rfl, hlist, hpkt, hpkts⟩

/-- A session that waits for nothing sends the headers of the packet in front, if there is one. -/
lemma tryLowerSend_idle {se : Sse} (h : Holds smac dmac qs se) (hidle : se.isWaiting = false)
    (now : ℤ) :
    ((tryLowerSend now se).1.isWaiting = true ↔ qs ≠ []) ∧
      (tryLowerSend now se).2 = (qs.take 1).map fun p => framed (p.head smac dmac) := by
  rcases tryLowerSend_cases now se with ⟨hcond, heq⟩ | ⟨pkt, pkts, hlist, -, heq⟩
  · have hempty : se.pktList = [] := by
      rcases hcond with hcond | hcond
      · exact hcond
      · rw [hidle] at hcond
        cases hcond
    rw [Holds, hempty, List.forall₂_nil_left_iff] at h
    rw [heq, hidle, h]
    simp
  · obtain ⟨p, qs', rfl, hpkt, -⟩ := h.cons hlist
    rw [heq, hpkt.first]
    simp

/-- The session answers the request for all slices of the packet in front with its PATCH frame. -/
lemma lowerPut_ackp {se : Sse} {pkt : SendNode} {pkts : List SendNode} (hget : a.sse dmac = some se)
    (hlist : se.pktList = pkt :: pkts) (hpkt : pkt.Carries smac dmac p) (now : ℤ) (stack : Stack) :
    (lowerPut now stack (framed (ackFrame smac dmac frameTypeAckp 0 p.seq
      ((List.range p.slices).map UInt8.ofNat))) a).1 = a.sent dmac
        ({ se with
          idleTimeout := now + idleTimeout, ackTimeout := now + ackTimeout, ackRetry := 0 },
          putEscaped stack.escaped (p.patch smac dmac)) := by
  have hpos := p.slices_pos
  have hmax := p.slices_le
  rw [maxSliceNum_eq] at hmax
  have hne : (List.range p.slices).map UInt8.ofNat ≠ [] := by
    rw [← List.length_pos_iff, List.length_map, List.length_range]
    exact hpos
  have hlen : ((List.range p.slices).map UInt8.ofNat).length ≤ 256 := by
    rw [List.length_map, List.length_range]
    omega
  obtain ⟨fh, mh, haccept, hsrc, hdst, hseq⟩ : ∃ fh mh,
      accept (framed (ackFrame smac dmac frameTypeAckp 0 p.seq
        ((List.range p.slices).map UInt8.ofNat))) =
        some (.ackPart fh mh ((List.range p.slices).map UInt8.ofNat)) ∧
      fh.src = dmac ∧ fh.dst = smac ∧ mh.seq = p.seq :=
    ⟨_, _, accept_ackp smac dmac p.seq hne hlen, rfl, rfl, rfl⟩
  rw [lowerPut_eq]
  simp only [haccept]
  rw [act_ackPart, hsrc]
  simp only [hget]
  rcases procAckPartSse_cases now stack fh mh ((List.range p.slices).map UInt8.ofNat)
      { se with idleTimeout := now + idleTimeout } with
    ⟨hother, -⟩ | ⟨pkt', pkts', hlist', -, -, -, heq⟩
  · obtain ⟨hpsrc, hpdst, hpseq⟩ := hpkt.acked_by hsrc hdst hseq
    exact absurd hpseq (hother pkt pkts hlist hpsrc hpdst)
  · obtain ⟨rfl, rfl⟩ := List.cons.inj (hlist.symm.trans hlist')
    rw [heq, hpkt.sendPatch_all stack]

/-- The session removes the packet in front when that is acknowledged, and sends the next one. -/
lemma lowerPut_acka {se : Sse} {pkt : SendNode} {pkts : List SendNode} (hget : a.sse dmac = some se)
    (hlist : se.pktList = pkt :: pkts) (hpkt : pkt.Carries smac dmac p) (now : ℤ) (stack : Stack) :
    (lowerPut now stack (framed (ackFrame smac dmac frameTypeAcka 0 p.seq [])) a).1 = a.sent dmac
      (tryLowerSend now { se with
        idleTimeout := now + idleTimeout, pktList := pkts, isWaiting := false, ackTimeout := -1,
        dataRetry := 0, ackRetry := 0 }) := by
  obtain ⟨fh, mh, haccept, hsrc, hdst, hseq⟩ : ∃ fh mh,
      accept (framed (ackFrame smac dmac frameTypeAcka 0 p.seq [])) = some (.ackAll fh mh) ∧
      fh.src = dmac ∧ fh.dst = smac ∧ mh.seq = p.seq :=
    ⟨_, _, accept_acka smac dmac p.seq, rfl, rfl, rfl⟩
  rw [lowerPut_eq]
  simp only [haccept]
  rw [act_ackAll, hsrc]
  simp only [hget]
  rcases procAckAllSse_cases now fh mh { se with idleTimeout := now + idleTimeout } with
    ⟨hother, -⟩ | ⟨pkt', pkts', hlist', -, -, -, heq⟩
  · obtain ⟨hpsrc, hpdst, hpseq⟩ := hpkt.acked_by hsrc hdst hseq
    exact absurd hpseq (hother pkt pkts hlist hpsrc hpdst)
  · obtain ⟨rfl, rfl⟩ := List.cons.inj (hlist.symm.trans hlist')
    rw [heq]

/-- The request for all slices leaves the queue as it is. -/
lemma lowerPut_request (h : Waits smac dmac (p :: qs) a) (now : ℤ) (stack : Stack) {f : Bytes}
    (hf : f = framed (ackFrame smac dmac frameTypeAckp 0 p.seq
      ((List.range p.slices).map UInt8.ofNat))) :
    Waits smac dmac (p :: qs) (lowerPut now stack f a).1 ∧
      nextSeq dmac (lowerPut now stack f a).1 = nextSeq dmac a ∧
      (lowerPut now stack f a).1.lowerSendList =
        a.lowerSendList ++ putEscaped stack.escaped (p.patch smac dmac) := by
  obtain ⟨se, pkt, pkts, hget, hlist, hpkt, -⟩ := h.sender.session
  have hwaiting : se.isWaiting = true ↔ p :: qs ≠ [] := h.waiting se hget
  have hholds : Holds smac dmac (p :: qs) se := h.sender.holds se hget
  rw [hf, lowerPut_ackp hget hlist hpkt now stack]
  exact ⟨waits_sent h.sender hholds hwaiting, nextSeq_sent_same hget rfl, rfl⟩

/-- The acknowledgement takes the packet from the queue, and the headers of the next one go out. -/
lemma lowerPut_ack (h : Waits smac dmac (p :: qs) a) (now : ℤ) (stack : Stack) {f : Bytes}
    (hf : f = framed (ackFrame smac dmac frameTypeAcka 0 p.seq [])) :
    Waits smac dmac qs (lowerPut now stack f a).1 ∧
      nextSeq dmac (lowerPut now stack f a).1 = nextSeq dmac a ∧
      (lowerPut now stack f a).1.lowerSendList =
        a.lowerSendList ++ (qs.take 1).map fun p => framed (p.head smac dmac) := by
  obtain ⟨se, pkt, pkts, hget, hlist, hpkt, hpkts⟩ := h.sender.session
  have hrest : Holds smac dmac qs { se with
      idleTimeout := now + idleTimeout, pktList := pkts, isWaiting := false, ackTimeout := -1,
      dataRetry := 0, ackRetry := 0 } := hpkts
  obtain ⟨hwaiting, hframes⟩ := tryLowerSend_idle hrest rfl now
  rw [hf, lowerPut_acka hget hlist hpkt now stack]
  refine ⟨waits_sent h.sender (holds_tryLowerSend hrest now).1 hwaiting,
    nextSeq_sent_same hget (by rw [tryLowerSend_seq]), ?_⟩
  rw [sent_lowerSendList, hframes]

/-- A message is queued; its headers go out at once if nothing is in front of it. -/
lemma waits_upperSend (h : Waits smac dmac qs a) (now : ℤ) (stack : Stack) {msg : Bytes}
    (hmsg : msg ≠ []) :
    ∃ p : Packet, (upperSend now stack smac dmac msg a).2 = p.payload.length ∧
      p.payload = msg.take p.payload.length ∧ p.seq = nextSeq dmac a ∧
      nextSeq dmac (upperSend now stack smac dmac msg a).1 = p.seq + 1 ∧
      Waits smac dmac (qs ++ [p]) (upperSend now stack smac dmac msg a).1 ∧
      (upperSend now stack smac dmac msg a).1.lowerSendList = a.lowerSendList ++
        if qs = [] then [framed (p.head smac dmac)] else [] := by
  obtain ⟨se, p, hnext, hseq, htake, hsame, pkt, hret, hnew⟩ := h.sender.upperSend_eq now stack hmsg
  have hwaiting : se.isWaiting = true ↔ qs ≠ [] := by
    rw [hsame, getSse]
    cases hget : a.sse dmac with
    | none =>
      rw [h.sender.empty hget]
      simp [createSse]
    | some se' => exact h.waiting se' hget
  rw [hret]
  refine ⟨p, rfl, htake, hseq, ?_, ?_⟩
  · rw [nextSeq_sent, tryLowerSend_seq, hseq, ← hnext]
  · by_cases hqs : qs = []
    · have hidle : se.isWaiting = false := by
        rw [← Bool.not_eq_true, hwaiting]
        exact not_not.2 hqs
      obtain ⟨hwait, hframes⟩ := tryLowerSend_idle hnew hidle now
      refine ⟨waits_sent h.sender (holds_tryLowerSend hnew now).1 hwait, ?_⟩
      rw [sent_lowerSendList, hframes, if_pos hqs, hqs]
      rfl
    · have hbusy : se.isWaiting = true := hwaiting.2 hqs
      rcases tryLowerSend_cases now { se with seq := se.seq + 1, pktList := se.pktList ++ [pkt] }
        with ⟨-, heq⟩ | ⟨-, -, -, hidle, -⟩
      · rw [heq, if_neg hqs]
        exact ⟨waits_sent h.sender hnew ⟨fun _ => by simp, fun _ => hbusy⟩, rfl⟩
      · have hidle' : se.isWaiting = false := hidle
        rw [hbusy] at hidle'
        cases hidle'

end

/-! ## Phases -/

/-- What is on its way, when the packets `ds` have been acknowledged and the given ones are queued,
and how many frames are still to be moved. -/
inductive Phase (smac dmac : UInt8) (ds : List Packet) (x : Link) : List Packet → ℕ → Prop
  | idle (a : x.a.lowerSendList = []) (b : x.b.lowerSendList = [])
      (upper : x.b.upperRecvList = ds.map Packet.payload) : Phase smac dmac ds x [] 0
  | data {p : Packet} {qs : List Packet} (a : x.a.lowerSendList = [framed (p.head smac dmac)])
      (b : x.b.lowerSendList = []) (upper : x.b.upperRecvList = ds.map Packet.payload) :
      Phase smac dmac ds x (p :: qs) (4 * qs.length + 4)
  | request {p : Packet} {qs : List Packet} {se : Rse} (a : x.a.lowerSendList = [])
      (b : x.b.lowerSendList = [framed (ackFrame smac dmac frameTypeAckp 0 p.seq
        ((List.range p.slices).map UInt8.ofNat))])
      (upper : x.b.upperRecvList = ds.map Packet.payload) (rse : x.b.rse smac = some se)
      (awaits : Awaits p se) : Phase smac dmac ds x (p :: qs) (4 * qs.length + 3)
  | patch {p : Packet} {qs : List Packet} {se : Rse} {escaped : Buffer UInt8 linkMtu}
      (a : x.a.lowerSendList = putEscaped escaped (p.patch smac dmac))
      (b : x.b.lowerSendList = []) (upper : x.b.upperRecvList = ds.map Packet.payload)
      (rse : x.b.rse smac = some se) (awaits : Awaits p se) :
      Phase smac dmac ds x (p :: qs) (4 * qs.length + 2)
  | ack {p : Packet} {qs : List Packet} (a : x.a.lowerSendList = [])
      (b : x.b.lowerSendList = [framed (ackFrame smac dmac frameTypeAcka 0 p.seq [])])
      (upper : x.b.upperRecvList = (ds ++ [p]).map Packet.payload)
      (fits : p.PatchFits smac dmac) : Phase smac dmac ds x (p :: qs) (4 * qs.length + 1)
  | stuck {p : Packet} {qs : List Packet} (a : x.a.lowerSendList = [])
      (b : x.b.lowerSendList = []) (upper : x.b.upperRecvList = ds.map Packet.payload)
      (overrun : ¬ p.PatchFits smac dmac) :
      Phase smac dmac ds x (p :: qs) 0

/-- The invariant of the exchange. -/
structure LinkInv (smac dmac : UInt8) (ds qs : List Packet) (x : Link) : Prop where
  accepted : x.accepted = (ds ++ qs).map Packet.payload
  seqs : ∀ i p, (ds ++ qs)[i]? = some p → p.seq = UInt8.ofNat i
  next : nextSeq dmac x.a = UInt8.ofNat (ds ++ qs).length
  waits : Waits smac dmac qs x.a
  fits : ∀ p ∈ ds, p.PatchFits smac dmac

section

variable {smac dmac : UInt8} {ds qs : List Packet} {x : Link} {n : ℕ}

/-- A move keeps the calls, so it keeps the packets; A is the sender it was, or acknowledged. -/
lemma LinkInv.moved (h : LinkInv smac dmac ds qs x) {x' : Link} {ds' qs' : List Packet}
    (hcalls : x'.calls = x.calls) (hps : ds' ++ qs' = ds ++ qs)
    (hnext : nextSeq dmac x'.a = nextSeq dmac x.a) (hwaits : Waits smac dmac qs' x'.a)
    (hfits : ∀ p ∈ ds', p.PatchFits smac dmac) : LinkInv smac dmac ds' qs' x' where
  accepted := by
    rw [hps, ← h.accepted, Link.accepted, Link.accepted, hcalls]
  seqs := by
    rw [hps]
    exact h.seqs
  next := by rw [hps, hnext, h.next]
  waits := hwaits
  fits := hfits

/-- **One move.**  The packets stay, some of them acknowledged now, and one frame less is to be
moved. -/
lemma exchange_move (h : LinkInv smac dmac ds qs x) (hphase : Phase smac dmac ds x qs n)
    (t : Transfer) :
    ∃ ds' qs' n', ds' ++ qs' = ds ++ qs ∧ LinkInv smac dmac ds' qs' (x.move t) ∧
      Phase smac dmac ds' (x.move t) qs' n' ∧ n' ≤ n - 1 := by
  cases hphase with
  | idle ha hb hupper =>
    rw [move_quiet ha hb]
    exact ⟨ds, [], 0, rfl, h, .idle ha hb hupper, Nat.zero_le _⟩
  | @data p qs ha hb hupper =>
    rw [move_fromA ha hb (length_framed_le (p.escapedLen_head_le smac dmac))]
    obtain ⟨se, hawaits, heq⟩ := lowerPut_head t.now t.stack x.b smac dmac p
    rw [heq]
    refine ⟨ds, p :: qs, _, rfl, h.moved rfl rfl rfl (h.waits.congr rfl) h.fits,
      .request rfl ?_ hupper (Function.update_self ..) hawaits, Nat.le_refl _⟩
    simp only [hb, List.nil_append]
  | @request p qs se ha hb hupper hrse hawaits =>
    have hmax := p.slices_le
    rw [maxSliceNum_eq] at hmax
    have hlen : escapedLen (ackFrame smac dmac frameTypeAckp 0 p.seq
        ((List.range p.slices).map UInt8.ofNat)) ≤ linkMtu := by
      apply escapedLen_ackFrame_le
      rw [List.length_map, List.length_range]
      omega
    obtain ⟨hwaits, hnext, hlist⟩ := lowerPut_request h.waits t.now t.stack rfl
    rw [ha, List.nil_append] at hlist
    rw [move_fromB ha hb (length_framed_le hlen)]
    exact ⟨ds, p :: qs, _, rfl, h.moved rfl rfl hnext hwaits h.fits,
      .patch hlist rfl hupper hrse hawaits, Nat.le_refl _⟩
  | @patch p qs se escaped ha hb hupper hrse hawaits =>
    obtain ⟨f, hf, hlen⟩ := putEscaped_single escaped (p.patch smac dmac)
    have hmem : f ∈ putEscaped escaped (p.patch smac dmac) := by
      rw [hf]
      exact List.mem_singleton_self f
    obtain ⟨fh, mh, data, haccept, hsrc, -, hres⟩ := awaits_patch t.stack hmem
      (hawaits.touch (t.now + idleTimeout))
    have hput : (lowerPut t.now t.stack f x.b).1 = x.b.received smac
        (procPatchRse t.stack fh mh data { se with idleTimeout := t.now + idleTimeout }) := by
      rw [lowerPut_eq]
      simp only [haccept]
      rw [act_patch, hsrc]
      simp only [hrse]
    rw [move_fromA (ha.trans hf) hb hlen, hput]
    rcases hres with ⟨hfits, hqueued, hsub⟩ | ⟨hover, hqueued, hsub⟩
    · refine ⟨ds, p :: qs, _, rfl, h.moved rfl rfl rfl (h.waits.congr rfl) h.fits,
        .ack rfl ?_ ?_ hfits, Nat.le_refl _⟩
      · simp only [received_lowerSendList, hqueued, hb, List.nil_append]
      · simp only [received_upperRecvList, hsub, hupper, List.map_append, List.map_cons,
          List.map_nil]
    · refine ⟨ds, p :: qs, 0, rfl, h.moved rfl rfl rfl (h.waits.congr rfl) h.fits,
        .stuck rfl ?_ ?_ hover, Nat.zero_le _⟩
      · simp only [received_lowerSendList, hqueued, hb, List.append_nil]
      · simp only [received_upperRecvList, hsub, hupper, List.append_nil]
  | @ack p qs ha hb hupper hfits =>
    have hlen : escapedLen (ackFrame smac dmac frameTypeAcka 0 p.seq []) ≤ linkMtu :=
      escapedLen_ackFrame_le _ _ _ _ _ (by simp)
    obtain ⟨hwaits, hnext, hlist⟩ := lowerPut_ack h.waits t.now t.stack rfl
    have hinv : LinkInv smac dmac (ds ++ [p]) qs (x.move t) := by
      rw [move_fromB ha hb (length_framed_le hlen)]
      refine h.moved rfl (by rw [List.append_assoc]; rfl) hnext hwaits fun q hq => ?_
      rcases List.mem_append.1 hq with hq | hq
      · exact h.fits q hq
      · rw [List.mem_singleton.1 hq]
        exact hfits
    rw [ha, List.nil_append] at hlist
    refine ⟨ds ++ [p], qs, 4 * qs.length, by rw [List.append_assoc]; rfl, hinv, ?_, Nat.le_refl _⟩
    rw [move_fromB ha hb (length_framed_le hlen)]
    cases qs with
    | nil => exact .idle hlist rfl hupper
    | cons q qs => exact .data hlist rfl hupper
  | @stuck p qs ha hb hupper hover =>
    rw [move_quiet ha hb]
    exact ⟨ds, p :: qs, 0, rfl, h, .stuck ha hb hupper hover, Nat.zero_le _⟩

/-- One call. -/
lemma exchange_upperSend (h : LinkInv smac dmac ds qs x) (hphase : Phase smac dmac ds x qs n)
    (now : ℤ) (stack : Stack) (msg : Bytes) :
    ∃ qs' n', LinkInv smac dmac ds qs' (x.upperSend now stack smac dmac msg) ∧
      Phase smac dmac ds (x.upperSend now stack smac dmac msg) qs' n' := by
  by_cases hmsg : msg = []
  · subst hmsg
    have hcalls : (x.upperSend now stack smac dmac []).accepted = x.accepted := by
      simp [Link.upperSend, Link.accepted, upperSend_nil]
    refine ⟨qs, n, ⟨hcalls.trans h.accepted, h.seqs, h.next, h.waits, h.fits⟩, ?_⟩
    cases hphase with
    | idle ha hb hupper => exact .idle ha hb hupper
    | data ha hb hupper => exact .data ha hb hupper
    | request ha hb hupper hrse hawaits => exact .request ha hb hupper hrse hawaits
    | patch ha hb hupper hrse hawaits => exact .patch ha hb hupper hrse hawaits
    | ack ha hb hupper hfits => exact .ack ha hb hupper hfits
    | stuck ha hb hupper hover => exact .stuck ha hb hupper hover
  · obtain ⟨p, hret, htake, hseq, hnext, hwaits, hlist⟩ :=
      waits_upperSend h.waits now stack hmsg
    have hpos : 0 < (p.payload.length : ℤ) :=
      Int.natCast_pos.2 (List.length_pos_iff.2 p.payload_ne)
    have haccepted : (x.upperSend now stack smac dmac msg).accepted =
        x.accepted ++ [p.payload] := by
      simp only [Link.upperSend, Link.accepted, List.filterMap_append, hret, List.filterMap_cons,
        List.filterMap_nil, if_pos hpos, Int.toNat_natCast]
      rw [← htake]
    have hinv : LinkInv smac dmac ds (qs ++ [p]) (x.upperSend now stack smac dmac msg) := by
      refine ⟨?_, ?_, ?_, hwaits, h.fits⟩
      · rw [haccepted, h.accepted]
        simp only [List.map_append, List.map_cons, List.map_nil, List.append_assoc]
      · intro i q hq
        rw [← List.append_assoc, List.getElem?_append] at hq
        split_ifs at hq with hlt
        · exact h.seqs i q hq
        · have hi : i - (ds ++ qs).length = 0 := by
            by_contra hne
            rw [List.getElem?_eq_none (by rw [List.length_singleton]; omega)] at hq
            cases hq
          rw [hi, List.getElem?_cons_zero] at hq
          rw [← Option.some.inj hq, hseq, h.next, show i = (ds ++ qs).length by omega]
      · change nextSeq dmac (Ipcf.upperSend now stack smac dmac msg x.a).1 = _
        rw [hnext, hseq, h.next,
          show (ds ++ (qs ++ [p])).length = (ds ++ qs).length + 1 by simp [Nat.add_assoc]]
        exact (UInt8.ofNat_add _ _).symm
    have hbusy : ∀ q qs', qs = q :: qs' →
        (x.upperSend now stack smac dmac msg).a.lowerSendList = x.a.lowerSendList := by
      rintro q qs' rfl
      rw [Link.upperSend, hlist, if_neg (List.cons_ne_nil _ _), List.append_nil]
    refine ⟨qs ++ [p], ?_⟩
    cases hphase with
    | idle ha hb hupper =>
      refine ⟨_, hinv, .data ?_ hb hupper⟩
      rw [Link.upperSend, hlist, if_pos rfl, ha, List.nil_append]
    | data ha hb hupper => exact ⟨_, hinv, .data ((hbusy _ _ rfl).trans ha) hb hupper⟩
    | request ha hb hupper hrse hawaits =>
      exact ⟨_, hinv, .request ((hbusy _ _ rfl).trans ha) hb hupper hrse hawaits⟩
    | patch ha hb hupper hrse hawaits =>
      exact ⟨_, hinv, .patch ((hbusy _ _ rfl).trans ha) hb hupper hrse hawaits⟩
    | ack ha hb hupper hfits =>
      exact ⟨_, hinv, .ack ((hbusy _ _ rfl).trans ha) hb hupper hfits⟩
    | stuck ha hb hupper hover => exact ⟨_, hinv, .stuck ((hbusy _ _ rfl).trans ha) hb hupper hover⟩

end

/-! ## Whole runs -/

section

variable {smac dmac : UInt8}

lemma exchange_run (smac dmac : UInt8) (ops : List LinkOp) :
    ∃ ds qs n, LinkInv smac dmac ds qs (Link.run smac dmac ops) ∧
      Phase smac dmac ds (Link.run smac dmac ops) qs n := by
  have hstep : ∀ (ops : List LinkOp) (x : Link),
      (∃ ds qs n, LinkInv smac dmac ds qs x ∧ Phase smac dmac ds x qs n) →
      ∃ ds qs n, LinkInv smac dmac ds qs (ops.foldl (Link.step smac dmac) x) ∧
        Phase smac dmac ds (ops.foldl (Link.step smac dmac) x) qs n := by
    intro ops
    induction ops with
    | nil => exact fun x h => h
    | cons op ops ih =>
      rintro x ⟨ds, qs, n, hinv, hphase⟩
      apply ih
      cases op with
      | upperSend now stack msg =>
        obtain ⟨qs', n', hinv', hphase'⟩ := exchange_upperSend hinv hphase now stack msg
        exact ⟨ds, qs', n', hinv', hphase'⟩
      | move t =>
        obtain ⟨ds', qs', n', -, hinv', hphase', -⟩ := exchange_move hinv hphase t
        exact ⟨ds', qs', n', hinv', hphase'⟩
  refine hstep ops Link.init ⟨[], [], 0, ⟨rfl, ?_, rfl, ⟨senderInv_init smac dmac, ?_⟩, ?_⟩,
    .idle rfl rfl rfl⟩
  · simp
  · intro se hse
    cases hse
  · simp

/-- After `k` moves, `k` frames less are to be moved. -/
lemma exchange_moves {ds qs : List Packet} {x : Link} {n : ℕ} (h : LinkInv smac dmac ds qs x)
    (hphase : Phase smac dmac ds x qs n) (env : ℕ → Transfer) (k : ℕ) :
    ∃ ds' qs' n', ds' ++ qs' = ds ++ qs ∧ LinkInv smac dmac ds' qs' (x.exchange env k) ∧
      Phase smac dmac ds' (x.exchange env k) qs' n' ∧ n' ≤ n - k := by
  induction k with
  | zero => exact ⟨ds, qs, n, rfl, h, hphase, Nat.le_refl _⟩
  | succ k ih =>
    obtain ⟨ds', qs', n', hps, hinv, hphase', hle⟩ := ih
    obtain ⟨ds'', qs'', n'', hps', hinv', hphase'', hle'⟩ := exchange_move hinv hphase' (env k)
    exact ⟨ds'', qs'', n'', hps'.trans hps, hinv', hphase'', by omega⟩

/-- All that was accepted fits into a PATCH frame. -/
lemma LinkInv.patchFits_iff {ds qs : List Packet} {x : Link} (h : LinkInv smac dmac ds qs x) :
    (∀ p ∈ ds ++ qs, p.PatchFits smac dmac) ↔ ∀ i m, x.accepted[i]? = some m →
      patchLen smac dmac (UInt8.ofNat i) m ≤ linkMtu + 1 := by
  rw [h.accepted]
  constructor
  · intro hall i m hm
    rw [List.getElem?_map] at hm
    obtain ⟨p, hp, rfl⟩ := Option.map_eq_some_iff.1 hm
    rw [← h.seqs i p hp]
    exact hall p (List.mem_of_getElem? hp)
  · intro hall p hp
    obtain ⟨i, hi⟩ := List.getElem?_of_mem hp
    rw [Packet.PatchFits, h.seqs i p hi]
    apply hall i p.payload
    rw [List.getElem?_map, hi]
    rfl

/-- From any state of the exchange: it ends with everything transferred if and only if every
packet fits. -/
lemma LinkInv.transferred_iff {ds qs : List Packet} {x : Link} {n : ℕ}
    (h : LinkInv smac dmac ds qs x) (hphase : Phase smac dmac ds x qs n) (env : ℕ → Transfer) :
    (∃ k, (x.exchange env k).Transferred dmac) ↔ ∀ p ∈ ds ++ qs, p.PatchFits smac dmac := by
  constructor
  · rintro ⟨k, hk⟩
    obtain ⟨ds', qs', n', hps, hinv', -, -⟩ := exchange_moves h hphase env k
    have hqs : qs' = [] := by
      by_contra hne
      obtain ⟨p, qs'', rfl⟩ := List.exists_cons_of_ne_nil hne
      obtain ⟨se, pkt, pkts, hse, hlist, -, -⟩ := hinv'.waits.sender.session
      rw [(hk.forgotten se hse).1] at hlist
      cases hlist
    rw [← hps, hqs, List.append_nil]
    exact hinv'.fits
  · intro hall
    obtain ⟨ds', qs', n', hps, hinv', hphase', hle⟩ := exchange_moves h hphase env n
    rw [← hps] at hall
    refine ⟨n, ?_⟩
    have hn : n' = 0 := by omega
    subst hn
    cases hphase' with
    | idle ha hb hupper =>
      have haccepted := hinv'.accepted
      rw [List.append_nil] at haccepted
      refine ⟨ha, hb, hupper.trans haccepted.symm, fun se hse => ⟨?_, ?_⟩⟩
      · have hholds := hinv'.waits.sender.holds se hse
        rwa [Holds, List.forall₂_nil_right_iff] at hholds
      · have hwaiting := hinv'.waits.waiting se hse
        simpa using hwaiting
    | @stuck p qs ha hb hupper hover => exact absurd (hall p (by simp)) hover

/-- What is submitted are the first of the accepted packets, and they fit. -/
lemma LinkInv.upper {ds qs : List Packet} {x : Link} {n : ℕ} (h : LinkInv smac dmac ds qs x)
    (hphase : Phase smac dmac ds x qs n) :
    ∃ ps rest, ds ++ qs = ps ++ rest ∧ x.b.upperRecvList = ps.map Packet.payload ∧
      ∀ p ∈ ps, p.PatchFits smac dmac := by
  cases hphase with
  | idle ha hb hupper => exact ⟨ds, _, rfl, hupper, h.fits⟩
  | data ha hb hupper => exact ⟨ds, _, rfl, hupper, h.fits⟩
  | request ha hb hupper hrse hawaits => exact ⟨ds, _, rfl, hupper, h.fits⟩
  | patch ha hb hupper hrse hawaits => exact ⟨ds, _, rfl, hupper, h.fits⟩
  | @ack p qs ha hb hupper hfits =>
    refine ⟨ds ++ [p], qs, by rw [List.append_assoc]; rfl, hupper, fun q hq => ?_⟩
    rcases List.mem_append.1 hq with hq | hq
    · exact h.fits q hq
    · rw [List.mem_singleton.1 hq]
      exact hfits
  | stuck ha hb hupper hover => exact ⟨ds, _, rfl, hupper, h.fits⟩

/-- **A perfect link transfers everything that fits.**  Messages are handed to A, with frames moved
in between in any way, and then frames are moved until none is left.  All of them are then on the
other side, in order and each once, and the queue is empty, exactly when the PATCH frame of each
message fits: its escaped length, with its own headers, may exceed the MTU by the closing break
at most. -/
theorem exchange_transfers_iff (smac dmac : UInt8) (ops : List LinkOp) (env : ℕ → Transfer) :
    (∃ k, ((Link.run smac dmac ops).exchange env k).Transferred dmac) ↔
      ∀ i m, (Link.run smac dmac ops).accepted[i]? = some m →
        patchLen smac dmac (UInt8.ofNat i) m ≤ linkMtu + 1 := by
  obtain ⟨ds, qs, n, hinv, hphase⟩ := exchange_run smac dmac ops
  rw [hinv.transferred_iff hphase env, hinv.patchFits_iff]

/-- 51 messages of one byte, and one of 449 bytes, most of which are breaks: it is accepted as a
whole, because its DATA frame would have exactly 1000 bytes. -/
def Link.overrun : List LinkOp :=
  (List.replicate 51 [0] ++ [List.replicate 440 breakChar ++ List.replicate 9 0]).map
    (LinkOp.upperSend 0 default)

/-- All messages are accepted as a whole, and yet the exchange never ends with everything
transferred: the last PATCH frame has 1002 bytes. -/
theorem patch_lost :
    (∀ c ∈ (Link.run 1 24 Link.overrun).calls, 0 < c.2 ∧ c.2 ≤ c.1.length) ∧
      ∀ env k, ¬ ((Link.run 1 24 Link.overrun).exchange env k).Transferred 24 := by
  have hcalls : (Link.run 1 24 Link.overrun).calls =
      List.replicate 51 ([0], 1) ++
        [(List.replicate 440 breakChar ++ List.replicate 9 0, 449)] := by
    decide +kernel
  refine ⟨by rw [hcalls]; decide +kernel, fun env k hk => ?_⟩
  obtain ⟨ds, qs, n, hinv, hphase⟩ := exchange_run 1 24 Link.overrun
  have hfits := hinv.patchFits_iff.1 ((hinv.transferred_iff hphase env).1 ⟨k, hk⟩)
  have haccepted : (Link.run 1 24 Link.overrun).accepted[51]? =
      some (List.replicate 440 breakChar ++ List.replicate 9 0) := by
    rw [Link.accepted, hcalls]
    decide +kernel
  have hlong : ¬ patchLen 1 24 (UInt8.ofNat 51)
      (List.replicate 440 breakChar ++ List.replicate 9 0) ≤ linkMtu + 1 := by decide +kernel
  exact hlong (hfits 51 _ haccepted)

end

end Ipcf
