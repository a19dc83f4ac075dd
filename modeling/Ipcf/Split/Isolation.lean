import Ipcf.Framework.Shards
import Ipcf.Split.ReceiveInvariant

/-!
# One endpoint for many peers

An endpoint keeps a send session and a receive session for every address, one list of frames to be
sent for all of them and one list of received messages.  Peers do not get into each other's way: the
endpoint is as if there were 256 of them, one for each address, each of which is only called for
that address (`endpoint_apart`).  Its sessions are theirs, and its two lists are theirs,
interleaved.

So whatever one peer sends, forged or damaged, early or late, nothing changes in what another peer
gets and what is received from it, as long as no header of a DATA frame announces more than the
slices of a frame hold.  Behind such a header the receive path writes past the arrays of the
session (`receive_safe_iff`), where the sessions of other peers may lie.
-/

namespace Ipcf

/-- The sessions of one address. -/
abbrev PeerPart := Option Sse × Option Rse

/-- The result of a handler of the receive path, for the peer whose frame it was. -/
def Received.part (sse : Option Sse) (r : Received) : PeerPart × List Bytes × List Bytes :=
  ((sse, some r.se), r.queued, r.submitted)

/-- What an event does to the sessions of `k`, and the frames and messages that it appends to the
lists on their behalf. -/
def stepPeer (k : UInt8) (e : Event) (p : PeerPart) : PeerPart × List Bytes × List Bytes :=
  match e.op with
  | .upperSend smac dmac msg =>
    if dmac = k ∧ msg ≠ [] then
      let se := (p.1.map fun se => { se with idleTimeout := e.now + idleTimeout }).getD
        (createSse e.now)
      let r := (upperSendSse e.now (e.stack 0) smac dmac msg se).1
      ((some r.1, p.2), r.2, [])
    else (p, [], [])
  | .lowerPut raw =>
    match accept raw with
    | none => (p, [], [])
    | some a =>
      if a.src = k then
        match a, p with
        | .data fh mh data, (sse, rse) =>
          let se := (rse.map fun se => { se with idleTimeout := e.now + idleTimeout }).getD
            (resetRse e.now)
          (procDataRse (e.stack 0) fh mh data se).part sse
        | .ackReq fh mh, (sse, some se) =>
          (procAckReqRse (e.stack 0) fh mh { se with idleTimeout := e.now + idleTimeout }).part sse
        | .patch fh mh data, (sse, some se) =>
          (procPatchRse (e.stack 0) fh mh data { se with idleTimeout := e.now + idleTimeout }).part
            sse
        | .ackAll fh mh, (some se, rse) =>
          let r := procAckAllSse e.now fh mh { se with idleTimeout := e.now + idleTimeout }
          ((some r.1, rse), r.2, [])
        | .ackPart fh mh data, (some se, rse) =>
          let r := procAckPartSse e.now (e.stack 0) fh mh data
            { se with idleTimeout := e.now + idleTimeout }
          ((some r.1, rse), r.2, [])
        | _, p => (p, [], [])
      else (p, [], [])
  | .procTimer =>
    let r := tickSse e.now (e.stack k) p.1
    ((r.1, tickRse e.now p.2), r.2, [])

/-- The events that concern the address: calls for it, frames from it, and the timer. -/
def concerns (k : UInt8) (e : Event) : Bool :=
  match e.op with
  | .upperSend _ dmac _ => dmac == k
  | .lowerPut raw =>
    match accept raw with
    | none => false
    | some a => a.src == k
  | .procTimer => true

/-! ## What concerns whom -/

lemma stepPeer_other {k : UInt8} {e : Event} (h : concerns k e = false) (p : PeerPart) :
    stepPeer k e p = (p, [], []) := by
  rw [concerns] at h
  rw [stepPeer]
  cases hop : e.op with
  | upperSend smac dmac msg =>
    simp only [hop, beq_eq_false_iff_ne] at h
    simp only [h, false_and, if_false]
  | lowerPut raw =>
    simp only [hop] at h
    cases haccept : accept raw with
    | none => simp only [haccept]
    | some a =>
      simp only [haccept, beq_eq_false_iff_ne] at h
      simp only [haccept, h, if_false]
  | procTimer =>
    simp only [hop] at h
    cases h

/-- Only the timer concerns several addresses, and it leaves those without sessions alone. -/
lemma stepPeer_quiet {k j : UInt8} {e : Event} (h : concerns k e = true) (hj : j ≠ k) :
    stepPeer j e (none, none) = ((none, none), [], []) := by
  cases hop : e.op with
  | upperSend smac dmac msg =>
    refine stepPeer_other ?_ _
    simp only [concerns, hop, beq_iff_eq] at h ⊢
    rw [h]
    exact beq_false_of_ne hj.symm
  | lowerPut raw =>
    refine stepPeer_other ?_ _
    simp only [concerns, hop] at h ⊢
    cases haccept : accept raw with
    | none => rfl
    | some a =>
      simp only [haccept, beq_iff_eq] at h
      simp only [h]
      exact beq_false_of_ne hj.symm
  | procTimer => simp only [stepPeer, hop, tickSse, tickRse]

/-! ## One event -/

/-- Every address is served on its own. -/
structure Peers (s : Split) (e : Event) : Prop where
  sessions : ∀ k, ((s.step e).sse k, (s.step e).rse k) = (stepPeer k e (s.sse k, s.rse k)).1
  queued : (s.step e).lowerSendList = s.lowerSendList ++
    macs.flatMap fun k => (stepPeer k e (s.sse k, s.rse k)).2.1
  submitted : (s.step e).upperRecvList = s.upperRecvList ++
    macs.flatMap fun k => (stepPeer k e (s.sse k, s.rse k)).2.2

section

variable {s : Split} {e : Event}

/-- An event that concerns no other address than `k`. -/
lemma peers_single {k : UInt8} (hk : ∀ j, j ≠ k → concerns j e = false)
    (hother : ∀ j, j ≠ k → (s.step e).sse j = s.sse j ∧ (s.step e).rse j = s.rse j)
    (queued submitted : List Bytes)
    (hstep : stepPeer k e (s.sse k, s.rse k) =
      (((s.step e).sse k, (s.step e).rse k), queued, submitted))
    (hqueued : (s.step e).lowerSendList = s.lowerSendList ++ queued)
    (hsubmitted : (s.step e).upperRecvList = s.upperRecvList ++ submitted) : Peers s e where
  sessions := by
    intro j
    by_cases hj : j = k
    · rw [hj, hstep]
    · rw [stepPeer_other (hk j hj), (hother j hj).1, (hother j hj).2]
  queued := by
    rw [hqueued, flatMap_single (k := k) (fun j hj => by rw [stepPeer_other (hk j hj)]) nodup_macs
      (mem_macs k), hstep]
  submitted := by
    rw [hsubmitted, flatMap_single (k := k) (fun j hj => by rw [stepPeer_other (hk j hj)])
      nodup_macs (mem_macs k), hstep]

lemma peers_same {k : UInt8} (hk : ∀ j, j ≠ k → concerns j e = false) (hsame : s.step e = s)
    (hstep : stepPeer k e (s.sse k, s.rse k) = ((s.sse k, s.rse k), [], [])) : Peers s e :=
  peers_single hk (fun j _ => by rw [hsame]; exact ⟨rfl, rfl⟩) [] [] (by rw [hstep, hsame])
    (by rw [hsame, List.append_nil]) (by rw [hsame, List.append_nil])

lemma peers_sent {k : UInt8} (hk : ∀ j, j ≠ k → concerns j e = false) {r : Sse × List Bytes}
    (hsent : s.step e = s.sent k r)
    (hstep : stepPeer k e (s.sse k, s.rse k) = ((some r.1, s.rse k), r.2, [])) : Peers s e := by
  refine peers_single hk (fun j hj => ?_) r.2 [] ?_ ?_ ?_
  · rw [hsent, sent_sse, if_neg hj]
    exact ⟨rfl, rfl⟩
  · rw [hstep, hsent, sent_sse, if_pos rfl]
    rfl
  · rw [hsent]
    rfl
  · rw [hsent, sent_upperRecvList, List.append_nil]

lemma peers_received {k : UInt8} (hk : ∀ j, j ≠ k → concerns j e = false) {r : Received}
    (hreceived : s.step e = s.received k r)
    (hstep : stepPeer k e (s.sse k, s.rse k) = r.part (s.sse k)) : Peers s e := by
  refine peers_single hk (fun j hj => ?_) r.queued r.submitted ?_ ?_ ?_
  · rw [hreceived, received_rse, if_neg hj]
    exact ⟨rfl, rfl⟩
  · rw [hstep, hreceived, received_rse, if_pos rfl]
    rfl
  · rw [hreceived]
    rfl
  · rw [hreceived]
    rfl

/-- A frame goes to the sessions of its source. -/
lemma peers_act {raw : Bytes} {a : Accepted} (hop : e.op = .lowerPut raw)
    (haccept : accept raw = some a) : Peers s e := by
  have hstep := step_accepted (s := s) hop haccept
  have hk : ∀ j, j ≠ a.src → concerns j e = false := by
    intro j hj
    simp only [concerns, hop, haccept]
    exact beq_false_of_ne hj.symm
  cases a with
  | data fh mh data =>
    refine peers_received hk hstep ?_
    simp only [stepPeer, hop, haccept, if_true]
    rfl
  | ackReq fh mh =>
    rw [act_ackReq] at hstep
    cases hget : s.rse fh.src with
    | none =>
      rw [hget] at hstep
      refine peers_same hk hstep ?_
      simp only [stepPeer, hop, haccept, if_true, Accepted.src, hget]
    | some se =>
      rw [hget] at hstep
      refine peers_received hk hstep ?_
      simp only [stepPeer, hop, haccept, if_true, Accepted.src, hget]
  | patch fh mh data =>
    rw [act_patch] at hstep
    cases hget : s.rse fh.src with
    | none =>
      rw [hget] at hstep
      refine peers_same hk hstep ?_
      simp only [stepPeer, hop, haccept, if_true, Accepted.src, hget]
    | some se =>
      rw [hget] at hstep
      refine peers_received hk hstep ?_
      simp only [stepPeer, hop, haccept, if_true, Accepted.src, hget]
  | ackAll fh mh =>
    rw [act_ackAll] at hstep
    cases hget : s.sse fh.src with
    | none =>
      rw [hget] at hstep
      refine peers_same hk hstep ?_
      simp only [stepPeer, hop, haccept, if_true, Accepted.src, hget]
    | some se =>
      rw [hget] at hstep
      refine peers_sent hk hstep ?_
      simp only [stepPeer, hop, haccept, if_true, Accepted.src, hget]
  | ackPart fh mh data =>
    rw [act_ackPart] at hstep
    cases hget : s.sse fh.src with
    | none =>
      rw [hget] at hstep
      refine peers_same hk hstep ?_
      simp only [stepPeer, hop, haccept, if_true, Accepted.src, hget]
    | some se =>
      rw [hget] at hstep
      refine peers_sent hk hstep ?_
      simp only [stepPeer, hop, haccept, if_true, Accepted.src, hget]

end

/-- **One event.** -/
lemma peers_step (s : Split) (e : Event) : Peers s e := by
  cases hop : e.op with
  | upperSend smac dmac msg =>
    have hstep := step_upperSend (s := s) hop
    have hk : ∀ j, j ≠ dmac → concerns j e = false := by
      intro j hj
      simp only [concerns, hop]
      exact beq_false_of_ne hj.symm
    by_cases hmsg : msg = []
    · rw [hmsg, upperSend_nil] at hstep
      refine peers_same hk hstep ?_
      simp only [stepPeer, hop, hmsg, ne_eq, not_true_eq_false, and_false, if_false]
    · have hlen : ¬ msg.length ≤ 0 := Nat.not_le.2 (List.length_pos_iff.2 hmsg)
      rw [upperSend, if_neg hlen] at hstep
      refine peers_sent hk hstep ?_
      simp only [stepPeer, hop, hmsg, ne_eq, not_false_eq_true, and_self, if_true]
      rfl
  | lowerPut raw =>
    cases haccept : accept raw with
    | none =>
      have hnone : ∀ j, concerns j e = false := fun j => by simp only [concerns, hop, haccept]
      exact peers_same (k := 0) (fun j _ => hnone j) (step_rejected hop haccept)
        (stepPeer_other (hnone 0) _)
    | some a => exact peers_act hop haccept
  | procTimer =>
    have hstep := step_procTimer (s := s) hop
    refine ⟨fun k => ?_, ?_, ?_⟩
    · rw [hstep, procTimer_sse, procTimer_rse]
      simp only [stepPeer, hop]
    · rw [hstep, procTimer_lowerSendList]
      simp only [stepPeer, hop]
    · rw [hstep, procTimer_upperRecvList]
      simp [stepPeer, hop]

/-! ## Runs -/

/-- The endpoint that is only called for `k`. -/
def runFor (k : UInt8) (es : List Event) : Split := run (es.filter (concerns k))

/-- **Peers are apart.**  After any run whose DATA headers announce no more than the slices of a
frame hold, all accesses were inside the arrays; the sessions of each address are those of an
endpoint that was only called for this address; and the frames that were queued, and the messages
that were submitted, are those of these endpoints, interleaved. -/
theorem endpoint_apart (es : List Event) (hfits : ∀ e ∈ es, HeaderFits e) :
    (∀ a ∈ (run es).accesses, a.InBounds) ∧
      (∀ k, (run es).sse k = (runFor k es).sse k ∧ (run es).rse k = (runFor k es).rse k) ∧
      (∃ frames : List (UInt8 × Bytes), frames.map Prod.snd = (run es).lowerSendList ∧
        ∀ k, (frames.filter fun x => x.1 = k).map Prod.snd = (runFor k es).lowerSendList) ∧
      ∃ msgs : List (UInt8 × Bytes), msgs.map Prod.snd = (run es).upperRecvList ∧
        ∀ k, (msgs.filter fun x => x.1 = k).map Prod.snd = (runFor k es).upperRecvList := by
  have hsafe : ReceiveSafe (run es) :=
    run_induction ReceiveSafe receiveSafe_init (fun _ _ => receiveSafe_step) es hfits
  have hqueued : Sharded Split.step (fun s k => (s.sse k, s.rse k)) Split.lowerSendList
      (fun k e p => ((stepPeer k e p).1, (stepPeer k e p).2.1)) macs :=
    ⟨nodup_macs, mem_macs, fun s e => (peers_step s e).sessions, fun s e => (peers_step s e).queued⟩
  have hsubmitted : Sharded Split.step (fun s k => (s.sse k, s.rse k)) Split.upperRecvList
      (fun k e p => ((stepPeer k e p).1, (stepPeer k e p).2.2)) macs :=
    ⟨nodup_macs, mem_macs, fun s e => (peers_step s e).sessions,
      fun s e => (peers_step s e).submitted⟩
  have hqueues : Concern (fun k e p => ((stepPeer k e p).1, (stepPeer k e p).2.1)) (none, none)
      concerns :=
    ⟨fun k e p h => by rw [stepPeer_other h], fun k j e h hj => by rw [stepPeer_quiet h hj]⟩
  have hsubmits : Concern (fun k e p => ((stepPeer k e p).1, (stepPeer k e p).2.2)) (none, none)
      concerns :=
    ⟨fun k e p h => by rw [stepPeer_other h], fun k j e h hj => by rw [stepPeer_quiet h hj]⟩
  obtain ⟨hsessions, hframes⟩ := hqueued.apart hqueues splitInit (fun _ => rfl) rfl es
  obtain ⟨-, hmsgs⟩ := hsubmitted.apart hsubmits splitInit (fun _ => rfl) rfl es
  exact ⟨hsafe.accesses, fun k => Prod.mk.inj (hsessions k), hframes, hmsgs⟩

/-- Two peers send a message each, frame by frame in turn, and the one that is done first is the one
that began last: two messages wait, and each session is as if the other peer was not there. -/
theorem endpoint_apart_two_peers :
    let data := fun (src : UInt8) (msg : Bytes) =>
      framed ((frmHdr src 1 frameTypeData 0 frmMsgHdrLen).bytes ++
        (msgHdr (csum32 msg) msg.length 0 []).bytes)
    let patch := fun (src : UInt8) (msg : Bytes) =>
      framed ((frmHdr src 1 frameTypePatch 0 (frmMsgHdrLen + sliceLen)).bytes ++
        (msgHdr 0 1 0 []).bytes ++ fillSliceK 0 msg)
    let es : List Event := [⟨1, default, .lowerPut (data 2 [104, 105])⟩,
      ⟨1, default, .lowerPut (data 3 [106])⟩, ⟨2, default, .lowerPut (patch 3 [106])⟩,
      ⟨3, default, .lowerPut (patch 2 [104, 105])⟩]
    (run es).upperRecvList = [[106], [104, 105]] ∧ (runFor 2 es).upperRecvList = [[104, 105]] ∧
      ∀ k, (run es).rse k = (runFor k es).rse k := by
  intro data patch es
  refine ⟨by decide +kernel, by decide +kernel, fun k => ?_⟩
  exact ((endpoint_apart es (by decide +kernel)).2.1 k).2

end Ipcf
