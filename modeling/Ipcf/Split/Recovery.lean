import Ipcf.Split.Exchange
import Ipcf.Split.Silence

/-!
# After an outage

A link is down, and frames get lost.  The sender goes on asking, and at every sixth acknowledgement
timeout it sends the headers of the packet in front again.  When the link is back, these headers are
enough: whatever sessions the receiver has by then, they start the packet from the beginning, and
the three frames that answer them and each other bring the rest (`volley_spec`).  The headers of the
next packet go out with the last of them, and so on: the whole queue gets through, if the PATCH
frames fit (`link_restored`).
-/

namespace Ipcf

/-- The frame that was queued last. -/
def Split.lastQueued (s : Split) : Bytes := s.lowerSendList.getLastD []

/-- A frame of A gets through, and so do the next three: B's answer, the answer to that, and the
answer to that.  `c` are the clock and the local arrays at each of them. -/
def volley (c : ℕ → ℤ × Stack) (f : Bytes) (a b : Split) : Split × Split :=
  let b₁ := (lowerPut (c 0).1 (c 0).2 f b).1
  let a₁ := (lowerPut (c 1).1 (c 1).2 b₁.lastQueued a).1
  let b₂ := (lowerPut (c 2).1 (c 2).2 a₁.lastQueued b₁).1
  let a₂ := (lowerPut (c 3).1 (c 3).2 b₂.lastQueued a₁).1
  (a₂, b₂)

/-- Volley after volley, each from the frame that A queued last. -/
def volleys (c : ℕ → ℕ → ℤ × Stack) : (n : ℕ) → (f : Bytes) → (a b : Split) → Split × Split
  | 0, _, a, b => (a, b)
  | n + 1, f, a, b =>
    let r := volley (c n) f a b
    volleys c n r.1.lastQueued r.1 r.2

/-! ## One volley -/

@[simp] lemma lastQueued_sent (a : Split) (k : UInt8) (se : Sse) (f : Bytes) :
    (a.sent k (se, [f])).lastQueued = f := by
  simp [Split.lastQueued]

section

variable {smac dmac : UInt8} {p : Packet} {a : Split} {se : Sse} {pkt : SendNode}
  {pkts : List SendNode}

/-- **One volley.**  The packet is submitted and acknowledged, and the next one goes out, if the
PATCH frame fits; if not, nothing comes of it.  B may be in any state. -/
lemma volley_spec (hget : a.sse dmac = some se) (hlist : se.pktList = pkt :: pkts)
    (hpkt : pkt.Carries smac dmac p) (c : ℕ → ℤ × Stack) (b : Split) :
    ∃ se', (volley c (framed (p.head smac dmac)) a b).1.sse dmac = some se' ∧
      (p.PatchFits smac dmac → se'.pktList = pkts ∧
        (volley c (framed (p.head smac dmac)) a b).2.upperRecvList =
          b.upperRecvList ++ [p.payload] ∧
        ∀ f, firstFrames pkts = [f] →
          (volley c (framed (p.head smac dmac)) a b).1.lastQueued = f) ∧
      (¬ p.PatchFits smac dmac → se'.pktList = pkt :: pkts ∧
        (volley c (framed (p.head smac dmac)) a b).2.upperRecvList = b.upperRecvList) := by
  -- the headers: B waits for all slices, and asks for them
  obtain ⟨rse, hawaits, hb₁⟩ := lowerPut_head (c 0).1 (c 0).2 b smac dmac p
  set b₁ := (lowerPut (c 0).1 (c 0).2 (framed (p.head smac dmac)) b).1 with hb₁def
  have hlast₁ : b₁.lastQueued = framed (ackFrame smac dmac frameTypeAckp 0 p.seq
      ((List.range p.slices).map UInt8.ofNat)) := by
    rw [hb₁]
    simp [Split.lastQueued]
  have hrse : b₁.rse smac = some rse := by
    rw [hb₁]
    exact Function.update_self ..
  have hupper₁ : b₁.upperRecvList = b.upperRecvList := by rw [hb₁]
  -- the request: A sends the slices
  obtain ⟨f, hf, -⟩ := putEscaped_single (c 1).2.escaped (p.patch smac dmac)
  obtain ⟨se₁, hlist₁, ha₁⟩ : ∃ se₁, se₁.pktList = pkt :: pkts ∧
      (lowerPut (c 1).1 (c 1).2 (framed (ackFrame smac dmac frameTypeAckp 0 p.seq
        ((List.range p.slices).map UInt8.ofNat))) a).1 = a.sent dmac (se₁, [f]) := by
    rw [lowerPut_ackp hget hlist hpkt, hf]
    exact ⟨{ se with
      idleTimeout := (c 1).1 + idleTimeout, ackTimeout := (c 1).1 + ackTimeout, ackRetry := 0 },
      hlist, rfl⟩
  have hmem : f ∈ putEscaped (c 1).2.escaped (p.patch smac dmac) := by
    rw [hf]
    exact List.mem_singleton_self f
  -- the slices: B submits the message, or not
  obtain ⟨fh, mh, data, haccept, hsrc, -, hres⟩ := awaits_patch (c 2).2 hmem
    (hawaits.touch ((c 2).1 + idleTimeout))
  have hb₂ : (lowerPut (c 2).1 (c 2).2 f b₁).1 = b₁.received smac (procPatchRse (c 2).2 fh mh data
      { rse with idleTimeout := (c 2).1 + idleTimeout }) := by
    rw [lowerPut_eq]
    simp only [haccept]
    rw [act_patch, hsrc]
    simp only [hrse]
  have hget₁ : (a.sent dmac (se₁, [f])).sse dmac = some se₁ := by rw [sent_sse, if_pos rfl]
  simp only [volley, ← hb₁def, hlast₁, ha₁, lastQueued_sent, hb₂]
  rcases hres with ⟨hfits, hqueued, hsub⟩ | ⟨hover, hqueued, hsub⟩
  · have hlast₂ : (b₁.received smac (procPatchRse (c 2).2 fh mh data
        { rse with idleTimeout := (c 2).1 + idleTimeout })).lastQueued =
        framed (ackFrame smac dmac frameTypeAcka 0 p.seq []) := by
      simp [Split.lastQueued, hqueued]
    have ha₂ := lowerPut_acka hget₁ hlist₁ hpkt (c 3).1 (c 3).2
    rw [tryLowerSend_restart (c 3).1 { se₁ with idleTimeout := (c 3).1 + idleTimeout }] at ha₂
    rw [hlast₂, ha₂]
    refine ⟨_, (sent_sse ..).trans (if_pos rfl), fun _ => ⟨rfl, ?_, ?_⟩, fun h => absurd hfits h⟩
    · rw [received_upperRecvList, hsub, hupper₁]
    · rintro g hg
      rw [hg, lastQueued_sent]
  · have hlast₂ : (b₁.received smac (procPatchRse (c 2).2 fh mh data
        { rse with idleTimeout := (c 2).1 + idleTimeout })).lastQueued = b₁.lastQueued := by
      simp [Split.lastQueued, hqueued]
    rw [hlast₂, hlast₁, lowerPut_ackp hget₁ hlist₁ hpkt]
    refine ⟨_, (sent_sse ..).trans (if_pos rfl), fun h => absurd h hover, fun _ => ⟨hlist₁, ?_⟩⟩
    rw [received_upperRecvList, hsub, List.append_nil, hupper₁]

end

/-! ## The whole queue -/

/-- The queue holds the packets `qs`, each with the address it is sent from. -/
def HoldsFrom (dmac : UInt8) (pktList : List SendNode) (qs : List (UInt8 × Packet)) : Prop :=
  List.Forall₂ (fun pkt q => SendNode.Carries pkt q.1 dmac q.2) pktList qs

instance (dmac : UInt8) (pktList : List SendNode) (qs : List (UInt8 × Packet)) :
    Decidable (HoldsFrom dmac pktList qs) :=
  inferInstanceAs (Decidable (List.Forall₂ _ pktList qs))

section

variable {dmac : UInt8} {a : Split} {se : Sse} {qs : List (UInt8 × Packet)}

lemma exists_holdsFrom {pktList : List SendNode} (h : Carried dmac pktList) :
    ∃ qs, HoldsFrom dmac pktList qs := by
  induction pktList with
  | nil => exact ⟨[], .nil⟩
  | cons pkt pkts ih =>
    obtain ⟨smac, p, hpkt⟩ := h pkt List.mem_cons_self
    obtain ⟨qs, hqs⟩ := ih fun pkt' hpkt' => h pkt' (List.mem_cons_of_mem _ hpkt')
    exact ⟨(smac, p) :: qs, .cons hpkt hqs⟩

/-- From the headers of the packet in front, volley after volley brings the whole queue. -/
lemma volleys_spec (c : ℕ → ℕ → ℤ × Stack) {f : Bytes} (hget : a.sse dmac = some se)
    (hholds : HoldsFrom dmac se.pktList qs) (hf : firstFrames se.pktList = [f] ∨ qs = [])
    (hfits : ∀ q ∈ qs, q.2.PatchFits q.1 dmac) (b : Split) :
    (∃ se', (volleys c qs.length f a b).1.sse dmac = some se' ∧ se'.pktList = []) ∧
      (volleys c qs.length f a b).2.upperRecvList =
        b.upperRecvList ++ qs.map fun q => q.2.payload := by
  induction qs generalizing a b f se with
  | nil =>
    refine ⟨⟨se, hget, List.forall₂_nil_right_iff.1 hholds⟩, ?_⟩
    rw [List.map_nil, List.append_nil]
    rfl
  | cons q qs ih =>
    obtain ⟨pkt, pkts, hpkt, hpkts, hlist⟩ := List.forall₂_cons_right_iff.1 hholds
    obtain rfl : framed (q.2.head q.1 dmac) = f := by
      have hfirst := hf.resolve_right (List.cons_ne_nil _ _)
      rw [hlist] at hfirst
      rw [← hpkt.first]
      exact List.singleton_inj.1 hfirst
    obtain ⟨se', hget', hfit, -⟩ := volley_spec hget hlist hpkt (c qs.length) b
    obtain ⟨hlist', hupper, hlast⟩ := hfit (hfits q List.mem_cons_self)
    rw [List.length_cons, volleys]
    have hnext : firstFrames se'.pktList =
        [(volley (c qs.length) (framed (q.2.head q.1 dmac)) a b).1.lastQueued] ∨ qs = [] := by
      cases qs with
      | nil => exact .inr rfl
      | cons q' qs =>
        obtain ⟨pkt', pkts', -, -, rfl⟩ := List.forall₂_cons_right_iff.1 hpkts
        left
        rw [hlist', hlast _ rfl]
        rfl
    obtain ⟨hdone, hall⟩ := ih hget' (hlist' ▸ hpkts) hnext
      (fun q' hq' => hfits q' (List.mem_cons_of_mem _ hq'))
      (volley (c qs.length) (framed (q.2.head q.1 dmac)) a b).2
    refine ⟨hdone, ?_⟩
    rw [hall, hupper, List.map_cons, List.append_assoc]
    rfl

end

/-! ## The outage -/

section

variable {k : UInt8} {es es' : List Event} {e : Event} {se : Sse}

/-- A timeout that asks for the acknowledgement. -/
lemma stepSse_asks (hop : e.op = .procTimer) (hdue : se.due e.now = true) (hne : se.pktList ≠ [])
    (hretry : se.ackRetry + 1 ≤ maxRetryTimes) :
    (stepSse k e (some se)).1 = some
      { se with idleTimeout := e.now + idleTimeout, ackRetry := se.ackRetry + 1 } := by
  obtain ⟨pkt, pkts, hlist⟩ := List.exists_cons_of_ne_nil hne
  simp only [stepSse, hop, tickSse_due hdue hne]
  rcases procSseAckTimeout_cases e.now (e.stack k) hlist with ⟨-, heq⟩ | ⟨hlt, -⟩ | ⟨hlt, -⟩
  · rw [heq]
  · omega
  · omega

/-- A timeout that sends the headers again. -/
lemma stepSse_resends (hop : e.op = .procTimer) (hdue : se.due e.now = true)
    (hne : se.pktList ≠ []) (hack : se.ackRetry = maxRetryTimes)
    (hdata : se.dataRetry < maxRetryTimes) :
    ∃ se', stepSse k e (some se) = (some se', firstFrames se.pktList) ∧
      se'.pktList = se.pktList := by
  obtain ⟨pkt, pkts, hlist⟩ := List.exists_cons_of_ne_nil hne
  simp only [stepSse, hop, tickSse_due hdue hne]
  rcases procSseAckTimeout_cases e.now (e.stack k) hlist with ⟨hle, -⟩ | ⟨-, hlt, -⟩ | ⟨-, -, heq⟩
  · omega
  · omega
  · have hfront := tryLowerSend_front e.now { se with
      idleTimeout := e.now + idleTimeout, dataRetry := se.dataRetry + 1, isWaiting := false,
      ackRetry := 0 } hne rfl
    rw [heq, hfront]
    exact ⟨_, rfl, rfl⟩

/-- While nothing comes in, the timeouts only ask, until they have asked often enough. -/
lemma asked_run (hse : (run es).sse k = some se) (hne : se.pktList ≠ [])
    (hsilent : ∀ e ∈ es', e.answers k = false) (hsends : ∀ e ∈ es', e.sendsTo k = false)
    (hdue : ∀ e ∈ es', e.op = .procTimer → se.due e.now = true)
    (hcount : se.ackRetry + es'.countP Event.isTimer ≤ maxRetryTimes) :
    ∃ t, (run (es ++ es')).sse k = some { se with
      idleTimeout := t, ackRetry := se.ackRetry + es'.countP Event.isTimer } := by
  induction es' generalizing es se with
  | nil => exact ⟨se.idleTimeout, by rw [List.append_nil, hse]; rfl⟩
  | cons e es' ih =>
    have hsilent' : ∀ e ∈ es', e.answers k = false :=
      fun e he => hsilent e (List.mem_cons_of_mem _ he)
    have hsends' : ∀ e ∈ es', e.sendsTo k = false :=
      fun e he => hsends e (List.mem_cons_of_mem _ he)
    have hstep : (run (es ++ [e])).sse k = (stepSse k e (some se)).1 := by
      rw [run_concat, (sessions_step _ e).sse, hse]
    rw [List.append_cons]
    cases htimer : e.isTimer with
    | false =>
      have hop : e.op ≠ .procTimer := fun h =>
        Bool.false_ne_true (htimer.symm.trans (Event.isTimer_iff.2 h))
      rw [List.countP_cons_of_neg (by simp [htimer])] at hcount ⊢
      rw [(stepSse_silent hop (hsends e List.mem_cons_self) (hsilent e List.mem_cons_self) _).1]
        at hstep
      exact ih hstep hne hsilent' hsends' (fun e he => hdue e (List.mem_cons_of_mem _ he)) hcount
    | true =>
      have hop := Event.isTimer_iff.1 htimer
      rw [List.countP_cons_of_pos htimer] at hcount ⊢
      rw [stepSse_asks hop (hdue e List.mem_cons_self hop) hne (by omega)] at hstep
      obtain ⟨t, ht⟩ := ih hstep hne hsilent' hsends'
        (fun e he => hdue e (List.mem_cons_of_mem _ he)) (by simp only; omega)
      refine ⟨t, ht.trans ?_⟩
      simp only [Option.some.injEq, Sse.mk.injEq, true_and, and_true]
      omega

end

/-- **When the link is back.**  From any state that a run can reach, with packets `qs` waiting for
`dmac` (there are always such `qs`, by `exists_holdsFrom`): nothing comes in from it any more, and
after as many timeouts as it takes `f`, the frame with the headers of the packet in front, is sent
again.  If from then on the frames get through, in volleys, the whole queue is delivered in order
and acknowledged, whatever state the receiver `b` is in, provided that the PATCH frames fit. -/
theorem link_restored (dmac : UInt8) (es es' : List Event) (last : Event) (se : Sse)
    (qs : List (UInt8 × Packet)) (hse : (run es).sse dmac = some se) (hne : se.pktList ≠ [])
    (hholds : HoldsFrom dmac se.pktList qs) (hdata : se.dataRetry < maxRetryTimes)
    (hsilent : ∀ e ∈ es', e.answers dmac = false) (hsends : ∀ e ∈ es', e.sendsTo dmac = false)
    (hlast : last.op = .procTimer)
    (hcount : se.ackRetry + es'.countP Event.isTimer = maxRetryTimes)
    (hdue : ∀ e ∈ es' ++ [last], e.op = .procTimer → se.due e.now = true)
    (hfits : ∀ q ∈ qs, q.2.PatchFits q.1 dmac) (c : ℕ → ℕ → ℤ × Stack) (b : Split) :
    ∃ f queued, (run (es ++ es' ++ [last])).lowerSendList =
        (run (es ++ es')).lowerSendList ++ queued ∧ f ∈ queued ∧
      (qs.head?.map fun q => framed (q.2.head q.1 dmac)) = some f ∧
      (∃ se', (volleys c qs.length f (run (es ++ es' ++ [last])) b).1.sse dmac = some se' ∧
        se'.pktList = []) ∧
      (volleys c qs.length f (run (es ++ es' ++ [last])) b).2.upperRecvList =
        b.upperRecvList ++ qs.map fun q => q.2.payload := by
  obtain ⟨t, hasked⟩ := asked_run hse hne hsilent hsends
    (fun e he => hdue e (List.mem_append_left _ he)) hcount.le
  obtain ⟨se', hresent, hlist⟩ := @stepSse_resends dmac last
    { se with idleTimeout := t, ackRetry := se.ackRetry + es'.countP Event.isTimer } hlast
    (hdue last (List.mem_append_right _ (List.mem_singleton_self _)) hlast) hne hcount hdata
  obtain ⟨hsse, acks, hqueued, -⟩ := sessions_step (run (es ++ es')) last
  rw [← run_concat] at hsse hqueued
  have hget : (run (es ++ es' ++ [last])).sse dmac = some se' := by
    rw [hsse, hasked, hresent]
  -- the headers are among the frames that the call queues
  obtain ⟨pkt, pkts, hcons⟩ := List.exists_cons_of_ne_nil hne
  have hholds' := hholds
  rw [HoldsFrom, hcons] at hholds'
  obtain ⟨q, qs', hpkt, -, rfl⟩ := List.forall₂_cons_left_iff.1 hholds'
  have hfirst : firstFrames se.pktList = [framed (q.2.head q.1 dmac)] := by
    rw [hcons, ← hpkt.first]
    rfl
  refine ⟨_, _, hqueued.trans (List.append_assoc _ _ _),
    List.mem_append_left _ (List.mem_flatMap.2 ⟨dmac, mem_macs dmac, ?_⟩), rfl,
    volleys_spec c hget (hlist ▸ hholds) (.inl (by rw [hlist]; exact hfirst)) hfits b⟩
  rw [hasked, hresent]
  change _ ∈ firstFrames se.pktList
  rw [hfirst]
  exact List.mem_singleton_self _

/-- The PATCH frame of a single slice fits. -/
lemma Packet.patchFits_of_slices {smac dmac : UInt8} {p : Packet} (h : p.slices = 1) :
    p.PatchFits smac dmac := by
  rw [Packet.PatchFits, patchLen, ← Packet.slices, h]
  refine Nat.le_succ_of_le (escapedLen_le_linkMtu ?_)
  rw [List.range_one, List.map_singleton, List.flatten_singleton, List.length_append,
    length_patchHead, length_sliceOf]
  decide

/-- Two messages are sent at the time 1. -/
def twoSent : List Event := [⟨1, default, .upperSend 1 2 [7]⟩, ⟨1, default, .upperSend 1 2 [8, 9]⟩]

/-- Their packets. -/
def twoPackets : List (UInt8 × Packet) :=
  [(1, ⟨0, [7], by decide, by decide⟩), (1, ⟨1, [8, 9], by decide, by decide⟩)]

/-- The headers of the first packet and five requests are lost. -/
theorem link_restored_twice : ∃ f,
    (twoPackets.head?.map fun q => framed (q.2.head q.1 2)) = some f ∧
      f ∈ (run (twoSent ++ ticks 5 ++ [⟨20000, default, .procTimer⟩])).lowerSendList ∧
      (∃ se, (volleys default twoPackets.length f
        (run (twoSent ++ ticks 5 ++ [⟨20000, default, .procTimer⟩])) splitInit).1.sse 2 = some se ∧
          se.pktList = []) ∧
      (volleys default twoPackets.length f
        (run (twoSent ++ ticks 5 ++ [⟨20000, default, .procTimer⟩])) splitInit).2.upperRecvList =
          [[7], [8, 9]] := by
  have hready : ((run twoSent).sse 2).any (fun se => decide (se.pktList ≠ []) &&
      decide (HoldsFrom 2 se.pktList twoPackets) && se.ackRetry == 0 && se.dataRetry == 0 &&
      decide (se.ackTimeout = 3001)) = true := by
    decide +kernel
  obtain ⟨se, hse, hfields⟩ := (Option.any_eq_true _ _).1 hready
  simp only [Bool.and_eq_true, decide_eq_true_eq, beq_iff_eq] at hfields
  obtain ⟨⟨⟨⟨hne, hholds⟩, hack⟩, hdata⟩, htimeout⟩ := hfields
  have hdue : ∀ e ∈ ticks 5 ++ [⟨20000, default, .procTimer⟩], e.op = .procTimer →
      se.due e.now = true := by
    have hlate : ∀ e ∈ ticks 5 ++ [⟨20000, default, .procTimer⟩], 3001 ≤ e.now := by
      decide +kernel
    intro e he _
    have hnow := hlate e he
    rw [Sse.due, htimeout]
    exact decide_eq_true ⟨by decide, hnow⟩
  have hslices : ∀ q ∈ twoPackets, q.2.slices = 1 := by decide
  obtain ⟨f, queued, hqueued, hmem, hf, hdone, hupper⟩ := link_restored 2 twoSent (ticks 5)
    ⟨20000, default, .procTimer⟩ se twoPackets hse hne hholds (by rw [hdata]; decide)
    (fun e he => by simp only [Event.answers, op_ticks he])
    (fun e he => by simp only [Event.sendsTo, op_ticks he]) rfl (by rw [hack]; decide +kernel) hdue
    (fun q hq => Packet.patchFits_of_slices (hslices q hq)) default splitInit
  refine ⟨f, hf, ?_, hdone, hupper⟩
  rw [hqueued]
  exact List.mem_append_right _ hmem

end Ipcf
