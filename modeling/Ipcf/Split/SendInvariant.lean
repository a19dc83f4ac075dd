import Ipcf.Split.Queue
import Mathlib.Data.UInt

/-!
# What holds of every send session

Four fields of a send session are updated by six pieces of code; `SseOk` is the relation
between them that all of these restore.  The timers enter through one more fact, which is about
the present: the acknowledgement timer was armed at some time that has passed, so it is at most
`ACK_TIMEOUT` ahead, while every access to the session sets the idle timer `IDLE_TIMEOUT` ahead
(`SseGood`).  So a session that is idle has its acknowledgement timer run out first, and
`proc_timer`, which looks at that one first, never frees a session with a packet in it.

The proofs go from one session to the state: `Good` is kept by each function of `Split/Send.lean`,
then by each call, then along a run whose clock is positive and does not go back.
-/

namespace Ipcf

/-- The clock of a run: positive, and not going back. -/
def Clocked (es : List Event) : Prop :=
  es.Pairwise (fun e e' => e.now ≤ e'.now) ∧ ∀ e ∈ es, 0 < e.now

/-- The relation between the fields of a send session. -/
structure SseOk (se : Sse) : Prop where
  waiting : se.isWaiting = true ↔ se.pktList ≠ []
  armed : 0 < se.ackTimeout ↔ se.pktList ≠ []
  lt_idle : se.isWaiting = true → se.ackTimeout < se.idleTimeout
  seqs : ∀ (i : ℕ) (h : i < se.pktList.length),
    se.pktList[i].mh.seq = se.seq - UInt8.ofNat (se.pktList.length - i)

/-- What holds of the session for `k` at the time `now`. -/
structure SseGood (now : ℤ) (k : UInt8) (se : Sse) : Prop extends SseOk se where
  recent : se.ackTimeout ≤ now + ackTimeout
  carried : Carried k se.pktList

/-- What may become of the queue of a session `se` for `k` in one event: packets are appended;
the front goes, because of an acknowledgement of it or because its retries are exhausted; or the
session is freed while it is empty. -/
inductive QueueChange (e : Event) (k : UInt8) (se : Sse) : Option Sse → Prop
  | appended {se' : Sse} (pkts : List SendNode) :
      se'.pktList = se.pktList ++ pkts → QueueChange e k se (some se')
  | acknowledged {se' : Sse} {raw : Bytes} {fh : FrmHdr} {mh : MsgHdr} {pkt : SendNode} :
      e.op = .lowerPut raw → accept raw = some (.ackAll fh mh) → fh.src = k →
      se.pktList = pkt :: se'.pktList → pkt.fh.src = fh.dst → pkt.fh.dst = fh.src →
      pkt.mh.seq = mh.seq → QueueChange e k se (some se')
  | exhausted {se' : Sse} {pkt : SendNode} :
      e.op = .procTimer → se.ackTimeout ≤ e.now → maxRetryTimes < se.ackRetry + 1 →
      maxRetryTimes < se.dataRetry + 1 → se.pktList = pkt :: se'.pktList →
      QueueChange e k se (some se')
  | freed : e.op = .procTimer → se.pktList = [] → QueueChange e k se none

/-- Every DATA frame among the queued frames is that of the packet at the front of the queue. -/
def OnlyFront (pktList : List SendNode) (queued : List Bytes) : Prop :=
  ∀ f ∈ queued, frameType f = some frameTypeData →
    ∃ pkt pkts, pktList = pkt :: pkts ∧ f = framed (pkt.fh.bytes ++ pkt.mh.bytes)

/-! ## Functions of one session -/

section

variable {now : ℤ} {k : UInt8} {se : Sse}

lemma SseGood.mono (h : SseGood now k se) {now' : ℤ} (hnow : now ≤ now') : SseGood now' k se where
  toSseOk := h.toSseOk
  recent := by
    have := h.recent
    omega
  carried := h.carried

/-- Looking a session up keeps it good. -/
lemma SseGood.touch (h : SseGood now k se) :
    SseGood now k { se with idleTimeout := now + idleTimeout } where
  waiting := h.waiting
  armed := h.armed
  lt_idle _ := by
    have := h.recent
    simp only [idleTimeout, ackTimeout] at *
    omega
  seqs := h.seqs
  recent := h.recent
  carried := h.carried

lemma good_createSse (hnow : 0 < now) : SseGood now k (createSse now) where
  waiting := by simp [createSse]
  armed := by simp [createSse]
  lt_idle := by simp [createSse]
  seqs := by simp [createSse]
  recent := by
    simp only [createSse, ackTimeout]
    omega
  carried := by simp [createSse, Carried]

lemma onlyFront_tryLowerSend (hcarried : Carried k se.pktList) :
    OnlyFront (tryLowerSend now se).1.pktList (tryLowerSend now se).2 := by
  intro f hf _
  rw [tryLowerSend_pktList]
  rcases tryLowerSend_cases now se with ⟨-, h⟩ | ⟨pkt, pkts, hlist, -, h⟩
  · simp [h] at hf
  · obtain ⟨smac, p, hp⟩ := hcarried pkt (by simp [hlist])
    rw [h, List.mem_singleton] at hf
    exact ⟨pkt, pkts, hlist, by rw [hf, hp.first_eq]⟩

/-- `try_lower_send` makes the four fields agree, on a session that either waits already or has
not armed its timer for nothing. -/
lemma good_tryLowerSend (hnow : 0 < now) (hidle : se.idleTimeout = now + idleTimeout)
    (hwait : se.isWaiting = true →
      se.pktList ≠ [] ∧ 0 < se.ackTimeout ∧ se.ackTimeout ≤ now + ackTimeout)
    (hempty : se.pktList = [] → se.ackTimeout ≤ 0)
    (hseqs : ∀ (i : ℕ) (h : i < se.pktList.length),
      se.pktList[i].mh.seq = se.seq - UInt8.ofNat (se.pktList.length - i))
    (hcarried : Carried k se.pktList) :
    SseGood now k (tryLowerSend now se).1 := by
  rcases tryLowerSend_cases now se with ⟨hstay, h⟩ | ⟨pkt, pkts, hlist, -, h⟩
  · rw [h]
    by_cases hw : se.isWaiting = true
    · obtain ⟨hne, hpos, hle⟩ := hwait hw
      refine ⟨⟨by simp [hw, hne], by simp [hpos, hne], ?_, hseqs⟩, hle, hcarried⟩
      intro _
      simp only [hidle, idleTimeout, ackTimeout] at *
      omega
    · have hnil : se.pktList = [] := hstay.resolve_right hw
      have hle := hempty hnil
      refine ⟨⟨by simp [hw, hnil], ?_, fun h => absurd h hw, hseqs⟩, ?_, hcarried⟩
      · simp only [hnil, ne_eq, not_true_eq_false, iff_false]
        omega
      · simp only [ackTimeout]
        omega
  · rw [h]
    refine ⟨⟨by simp [hlist], ?_, ?_, hseqs⟩, Int.le_refl _, hcarried⟩
    · simp only [hlist, ackTimeout]
      simp only [ne_eq, reduceCtorEq, not_false_eq_true, iff_true]
      omega
    · intro _
      simp only [hidle, idleTimeout, ackTimeout]
      omega

/-- The sequence numbers stay consecutive when a packet is appended under the next one. -/
lemma seqs_append {pktList : List SendNode} {seq : UInt8} {pkt : SendNode}
    (hseqs : ∀ (i : ℕ) (h : i < pktList.length),
      pktList[i].mh.seq = seq - UInt8.ofNat (pktList.length - i)) (hpkt : pkt.mh.seq = seq) :
    ∀ (i : ℕ) (h : i < (pktList ++ [pkt]).length),
      (pktList ++ [pkt])[i].mh.seq = seq + 1 - UInt8.ofNat ((pktList ++ [pkt]).length - i) := by
  intro i hi
  have hlen : (pktList ++ [pkt]).length = pktList.length + 1 := by simp
  rw [hlen] at hi ⊢
  have hone : UInt8.ofNat (pktList.length + 1 - i) = UInt8.ofNat (pktList.length - i) + 1 := by
    rw [show pktList.length + 1 - i = pktList.length - i + 1 by omega, UInt8.ofNat_add]
    rfl
  have hshift : seq + 1 - (UInt8.ofNat (pktList.length - i) + 1) =
      seq - UInt8.ofNat (pktList.length - i) := by
    rw [add_sub_add_right_eq_sub]
  rw [hone]
  by_cases hlt : i < pktList.length
  · rw [List.getElem_append_left hlt, hseqs i hlt, hshift]
  · have heq : i = pktList.length := by omega
    subst heq
    simp [hpkt]

/-- They stay consecutive when the front goes. -/
lemma seqs_tail {pkt : SendNode} {pkts : List SendNode} {seq : UInt8}
    (hseqs : ∀ (i : ℕ) (h : i < (pkt :: pkts).length),
      (pkt :: pkts)[i].mh.seq = seq - UInt8.ofNat ((pkt :: pkts).length - i)) :
    ∀ (i : ℕ) (h : i < pkts.length), pkts[i].mh.seq = seq - UInt8.ofNat (pkts.length - i) := by
  intro i hi
  have hi' : i + 1 < (pkt :: pkts).length := by simpa using hi
  have hlen : (pkt :: pkts).length - (i + 1) = pkts.length - i := by
    rw [List.length_cons, Nat.add_sub_add_right]
  have := hseqs (i + 1) hi'
  rw [List.getElem_cons_succ, hlen] at this
  exact this

/-- Appending a packet under the next sequence number, after a look-up. -/
lemma good_append (hnow : 0 < now) (h : SseGood now k se) {pkt : SendNode} {smac : UInt8}
    {p : Packet}
    (hpkt : pkt.Carries smac k p) (hseq : p.seq = se.seq)
    (hidle : se.idleTimeout = now + idleTimeout) :
    SseGood now k
      (tryLowerSend now { se with seq := se.seq + 1, pktList := se.pktList ++ [pkt] }).1 := by
  refine good_tryLowerSend hnow ?_ ?_ ?_ ?_ ?_
  · exact hidle
  · intro hw
    have hne : se.pktList ≠ [] := h.waiting.1 hw
    exact ⟨by simp, h.armed.2 hne, h.recent⟩
  · intro hnil
    simp at hnil
  · exact seqs_append h.seqs (by rw [hpkt.mh_seq, hseq])
  · intro pkt' hpkt'
    rcases List.mem_append.1 hpkt' with hold | hnew
    · exact h.carried pkt' hold
    · rw [List.mem_singleton] at hnew
      exact ⟨smac, p, hnew ▸ hpkt⟩

/-- Dropping the front, after a look-up. -/
lemma good_drop (hnow : 0 < now) (h : SseGood now k se) {pkt : SendNode} {pkts : List SendNode}
    (hlist : se.pktList = pkt :: pkts) (hidle : se.idleTimeout = now + idleTimeout) :
    SseGood now k (tryLowerSend now { se with
      pktList := pkts, isWaiting := false, ackTimeout := -1, dataRetry := 0,
      ackRetry := 0 }).1 := by
  refine good_tryLowerSend hnow ?_ ?_ ?_ ?_ ?_
  · exact hidle
  · intro hw
    simp at hw
  · intro _
    simp only
    omega
  · have := h.seqs
    simp only [hlist] at this
    exact seqs_tail this
  · exact h.carried.suffix (by rw [hlist]; exact List.suffix_cons pkt pkts)

lemma good_procAckAllSse (hnow : 0 < now) (h : SseGood now k se)
    (hidle : se.idleTimeout = now + idleTimeout) (fh : FrmHdr) (mh : MsgHdr) :
    SseGood now k (procAckAllSse now fh mh se).1 := by
  rcases procAckAllSse_cases now fh mh se with ⟨-, heq⟩ | ⟨pkt, pkts, hlist, -, -, -, heq⟩
  · rw [heq]
    exact h
  · rw [heq]
    exact good_drop hnow h hlist hidle

lemma onlyFront_nil (pktList : List SendNode) : OnlyFront pktList [] := by
  intro f hf
  simp at hf

lemma onlyFront_procAckAllSse (hcarried : Carried k se.pktList) (fh : FrmHdr) (mh : MsgHdr) :
    OnlyFront (procAckAllSse now fh mh se).1.pktList (procAckAllSse now fh mh se).2 := by
  rcases procAckAllSse_cases now fh mh se with ⟨-, heq⟩ | ⟨pkt, pkts, hlist, -, -, -, heq⟩
  · rw [heq]
    exact onlyFront_nil _
  · rw [heq]
    apply onlyFront_tryLowerSend (k := k)
    exact hcarried.suffix (by rw [hlist]; exact List.suffix_cons pkt pkts)

/-- A frame that is not a DATA frame says nothing about the queue. -/
lemma onlyFront_of_type {queued : List Bytes} {type : UInt8} (htype : type ≠ frameTypeData)
    (h : ∀ f ∈ queued, frameType f = some type) (pktList : List SendNode) :
    OnlyFront pktList queued := by
  intro f hf hdata
  rw [h f hf] at hdata
  exact absurd (Option.some.inj hdata) htype

lemma good_procAckPartSse (hnow : 0 < now) (h : SseGood now k se)
    (hidle : se.idleTimeout = now + idleTimeout) (stack : Stack) (fh : FrmHdr) (mh : MsgHdr)
    (data : Bytes) : SseGood now k (procAckPartSse now stack fh mh data se).1 := by
  rcases procAckPartSse_cases now stack fh mh data se with
    ⟨-, heq⟩ | ⟨pkt, pkts, hlist, -, -, -, heq⟩
  · rw [heq]
    exact h
  · rw [heq]
    refine ⟨⟨h.waiting, ?_, ?_, h.seqs⟩, Int.le_refl _, h.carried⟩
    · simp only [hlist, ackTimeout, ne_eq, reduceCtorEq, not_false_eq_true, iff_true]
      omega
    · intro _
      simp only [hidle, ackTimeout, idleTimeout]
      omega

lemma onlyFront_procAckPartSse (hcarried : Carried k se.pktList) (stack : Stack) (fh : FrmHdr)
    (mh : MsgHdr) (data : Bytes) :
    OnlyFront (procAckPartSse now stack fh mh data se).1.pktList
      (procAckPartSse now stack fh mh data se).2 := by
  rcases procAckPartSse_cases now stack fh mh data se with
    ⟨-, heq⟩ | ⟨pkt, pkts, hlist, -, -, -, heq⟩
  · rw [heq]
    exact onlyFront_nil _
  · rw [heq]
    obtain ⟨smac, p, hpkt⟩ := hcarried pkt (by simp [hlist])
    exact onlyFront_of_type (by decide) (fun f hf => frameType_sendPatch hpkt hf) _

lemma good_procSseAckTimeout (hnow : 0 < now) (h : SseGood now k se) (stack : Stack)
    (hne : se.pktList ≠ []) :
    SseGood now k (procSseAckTimeout now stack se).1 ∧
      (procSseAckTimeout now stack se).1.idleTimeout = now + idleTimeout := by
  obtain ⟨pkt, pkts, hlist⟩ := List.exists_cons_of_ne_nil hne
  rcases procSseAckTimeout_cases now stack hlist with ⟨-, heq⟩ | ⟨-, -, heq⟩ | ⟨-, -, heq⟩
  · rw [heq]
    have := h.touch
    exact ⟨⟨⟨this.waiting, this.armed, this.lt_idle, this.seqs⟩, this.recent, this.carried⟩, rfl⟩
  · rw [heq]
    exact ⟨good_drop hnow h.touch hlist rfl, tryLowerSend_idleTimeout _ _⟩
  · rw [heq]
    refine ⟨good_tryLowerSend hnow rfl ?_ ?_ h.seqs h.carried, tryLowerSend_idleTimeout _ _⟩
    · intro hw
      simp at hw
    · intro hnil
      exact absurd hnil hne

lemma onlyFront_procSseAckTimeout (hcarried : Carried k se.pktList) (stack : Stack) :
    OnlyFront (procSseAckTimeout now stack se).1.pktList (procSseAckTimeout now stack se).2 := by
  cases hlist : se.pktList with
  | nil =>
    simp only [procSseAckTimeout, hlist]
    exact onlyFront_nil _
  | cons pkt pkts =>
    rcases procSseAckTimeout_cases now stack hlist with ⟨-, heq⟩ | ⟨-, -, heq⟩ | ⟨-, -, heq⟩
    · rw [heq]
      exact onlyFront_of_type (by decide) (fun f hf => frameType_ackFrame hf) _
    · rw [heq]
      apply onlyFront_tryLowerSend (k := k)
      exact hcarried.suffix (by rw [hlist]; exact List.suffix_cons pkt pkts)
    · rw [heq]
      exact onlyFront_tryLowerSend hcarried

/-! ## One session and the timer -/

/-- After the timer a good session is still there and good, unless it was empty. -/
lemma tickSse_good (hnow : 0 < now) (h : SseGood now k se) (stack : Stack) :
    (∀ se', (tickSse now stack (some se)).1 = some se' → SseGood now k se') ∧
      ((tickSse now stack (some se)).1 = none → se.pktList = []) ∧
      ∀ f ∈ (tickSse now stack (some se)).2, frameType f = some frameTypeData →
        ∃ se' pkt pkts, (tickSse now stack (some se)).1 = some se' ∧ se'.pktList = pkt :: pkts ∧
          f = framed (pkt.fh.bytes ++ pkt.mh.bytes) := by
  unfold tickSse
  by_cases hfire : se.ackTimeout > 0 ∧ now ≥ se.ackTimeout
  · have hne : se.pktList ≠ [] := h.armed.1 hfire.1
    obtain ⟨hgood, hidle⟩ := good_procSseAckTimeout hnow h stack hne
    have hkeep : ¬ now ≥ (procSseAckTimeout now stack se).1.idleTimeout := by
      rw [hidle]
      simp only [idleTimeout]
      omega
    simp only [if_pos hfire, if_neg hkeep]
    refine ⟨?_, by simp, ?_⟩
    · intro se' hse'
      rw [← Option.some.inj hse']
      exact hgood
    · intro f hf hdata
      obtain ⟨pkt, pkts, hlist, heq⟩ := onlyFront_procSseAckTimeout h.carried stack f hf hdata
      exact ⟨_, pkt, pkts, rfl, hlist, heq⟩
  · simp only [if_neg hfire]
    refine ⟨?_, ?_, by simp⟩
    · intro se' hse'
      split_ifs at hse'
      rw [← Option.some.inj hse']
      exact h
    · intro hfree
      split_ifs at hfree with hidle
      -- were there a packet, its acknowledgement timer would have run out before
      by_contra hne
      have hlt := h.lt_idle (h.waiting.2 hne)
      exact hfire ⟨h.armed.2 hne, by omega⟩

/-- The timer changes the queue of a good session in one of the allowed ways. -/
lemma tickSse_queueChange (hnow : 0 < now) (h : SseGood now k se) {e : Event}
    (hop : e.op = .procTimer) (htime : e.now = now) (stack : Stack) :
    QueueChange e k se (tickSse now stack (some se)).1 := by
  have hfreed := (tickSse_good hnow h stack).2.1
  cases hres : (tickSse now stack (some se)).1 with
  | none => exact .freed hop (hfreed hres)
  | some se' =>
    unfold tickSse at hres
    by_cases hfire : se.ackTimeout > 0 ∧ now ≥ se.ackTimeout
    · have hne : se.pktList ≠ [] := h.armed.1 hfire.1
      obtain ⟨pkt, pkts, hlist⟩ := List.exists_cons_of_ne_nil hne
      simp only [if_pos hfire] at hres
      split_ifs at hres
      have hse' := Option.some.inj hres
      rcases procSseAckTimeout_cases now stack hlist with
        ⟨-, heq⟩ | ⟨h1, h2, heq⟩ | ⟨-, -, heq⟩
      · rw [heq] at hse'
        exact .appended [] (by rw [← hse', List.append_nil])
      · rw [heq] at hse'
        have hpkts : se'.pktList = pkts := by rw [← hse', tryLowerSend_pktList]
        exact QueueChange.exhausted hop (by omega) h1 h2 (hlist.trans (by rw [hpkts]))
      · rw [heq] at hse'
        exact .appended [] (by rw [← hse', tryLowerSend_pktList, List.append_nil])
    · simp only [if_neg hfire] at hres
      split_ifs at hres
      exact .appended [] (by rw [← Option.some.inj hres, List.append_nil])

end

/-! ## One call -/

/-- Every send session is good. -/
def SendInv (now : ℤ) (s : Split) : Prop := ∀ k se, s.sse k = some se → SseGood now k se

/-- What a call does to the send sessions: they stay good, their queues change in the allowed
ways, and the DATA frames it queues are those of fronts. -/
structure SendStep (s : Split) (e : Event) : Prop where
  good : SendInv e.now (s.step e)
  queues : ∀ k se, s.sse k = some se → QueueChange e k se ((s.step e).sse k)
  fronts : ∃ queued, (s.step e).lowerSendList = s.lowerSendList ++ queued ∧
    ∀ f ∈ queued, frameType f = some frameTypeData →
      ∃ k se pkt pkts, (s.step e).sse k = some se ∧ se.pktList = pkt :: pkts ∧
        f = framed (pkt.fh.bytes ++ pkt.mh.bytes)

section

variable {s : Split} {e : Event}

/-- A call that touches the session of one key, and only it. -/
lemma sendStep_sent {k : UInt8} {r : Sse × List Bytes} (hstep : s.step e = s.sent k r)
    (hinv : SendInv e.now s) (hgood : SseGood e.now k r.1)
    (hqueue : ∀ se, s.sse k = some se → QueueChange e k se (some r.1))
    (hfront : OnlyFront r.1.pktList r.2) : SendStep s e where
  good := by
    intro i se hse
    rw [hstep, sent_sse] at hse
    split_ifs at hse with hi
    · rw [hi, ← Option.some.inj hse]
      exact hgood
    · exact hinv i se hse
  queues := by
    intro i se hse
    rw [hstep, sent_sse]
    split_ifs with hi
    · subst hi
      exact hqueue se hse
    · rw [hse]
      exact .appended [] (List.append_nil _).symm
  fronts := by
    refine ⟨r.2, by rw [hstep]; rfl, ?_⟩
    intro f hf hdata
    obtain ⟨pkt, pkts, hlist, hframe⟩ := hfront f hf hdata
    refine ⟨k, r.1, pkt, pkts, ?_, hlist, hframe⟩
    rw [hstep, sent_sse, if_pos rfl]

/-- A call that touches no send session and queues no DATA frame. -/
lemma sendStep_other (queued : List Bytes) (hsse : (s.step e).sse = s.sse)
    (hlist : (s.step e).lowerSendList = s.lowerSendList ++ queued)
    (htype : ∀ f ∈ queued, frameType f ≠ some frameTypeData) (hinv : SendInv e.now s) :
    SendStep s e where
  good := by
    intro i se hse
    exact hinv i se (hsse ▸ hse)
  queues := by
    intro i se hse
    rw [hsse, hse]
    exact .appended [] (List.append_nil _).symm
  fronts := ⟨queued, hlist, fun f hf hdata => absurd hdata (htype f hf)⟩

lemma sendStep_none (hstep : s.step e = s) (hinv : SendInv e.now s) : SendStep s e :=
  sendStep_other [] (by rw [hstep]) (by rw [hstep, List.append_nil]) (by simp) hinv

lemma sendStep_upperSend (hnow : 0 < e.now) (hinv : SendInv e.now s) {smac dmac : UInt8}
    {msg : Bytes} (hop : e.op = .upperSend smac dmac msg) : SendStep s e := by
  have hstep := step_upperSend (s := s) hop
  by_cases hmsg : msg = []
  · rw [hmsg, upperSend_nil] at hstep
    exact sendStep_none hstep hinv
  obtain ⟨se, p, pkt, hse, hret, hseq, -, hcarries⟩ :=
    upperSend_spec e.now (e.stack 0) smac dmac hmsg s
  rw [hret] at hstep
  -- the session that is looked up or made is good, and its idle timer is set
  have hlooked : SseGood e.now dmac se ∧ se.idleTimeout = e.now + idleTimeout := by
    cases hget : s.sse dmac with
    | none =>
      rw [hse, getSse, hget]
      exact ⟨good_createSse hnow, rfl⟩
    | some se' =>
      rw [hse, getSse, hget]
      exact ⟨(hinv dmac se' hget).touch, rfl⟩
  have hgood := good_append hnow hlooked.1 hcarries hseq hlooked.2
  have hcarried := hgood.carried
  rw [tryLowerSend_pktList] at hcarried
  refine sendStep_sent hstep hinv hgood ?_ (onlyFront_tryLowerSend hcarried)
  intro se' hse'
  refine .appended [pkt] ?_
  rw [tryLowerSend_pktList, hse, getSse, hse']
  rfl

lemma sendStep_act (hnow : 0 < e.now) (hinv : SendInv e.now s) {raw : Bytes} {a : Accepted}
    (hop : e.op = .lowerPut raw) (haccept : accept raw = some a) : SendStep s e := by
  have hstep := step_accepted (s := s) hop haccept
  have hack : ∀ {dst src : UInt8} {se : Rse} {f : Bytes},
      f ∈ (sendAck (e.stack 0) dst src se).1 → frameType f ≠ some frameTypeData := by
    intro dst src se f hf hdata
    rcases frameType_sendAck hf with h | h <;> rw [h] at hdata <;> revert hdata <;> decide
  cases a with
  | data fh mh data =>
    refine sendStep_other _ (by rw [hstep]; rfl) (by rw [hstep]; rfl) ?_ hinv
    intro f hf
    obtain ⟨se', hf'⟩ := procDataRse_queued _ _ _ _ (accept_length haccept) f hf
    exact hack hf'
  | ackReq fh mh =>
    rw [act_ackReq] at hstep
    cases hget : s.rse fh.src with
    | none =>
      rw [hget] at hstep
      exact sendStep_none hstep hinv
    | some se =>
      rw [hget] at hstep
      refine sendStep_other _ (by rw [hstep]; rfl) (by rw [hstep]; rfl) ?_ hinv
      intro f hf
      exact hack (procAckReqRse_queued _ _ _ _ f hf)
  | patch fh mh data =>
    rw [act_patch] at hstep
    cases hget : s.rse fh.src with
    | none =>
      rw [hget] at hstep
      exact sendStep_none hstep hinv
    | some se =>
      rw [hget] at hstep
      refine sendStep_other _ (by rw [hstep]; rfl) (by rw [hstep]; rfl) ?_ hinv
      intro f hf
      obtain ⟨se', hf'⟩ := procPatchRse_queued _ _ _ _ (accept_length haccept) f hf
      exact hack hf'
  | ackAll fh mh =>
    rw [act_ackAll] at hstep
    cases hget : s.sse fh.src with
    | none =>
      rw [hget] at hstep
      exact sendStep_none hstep hinv
    | some se =>
      rw [hget] at hstep
      have hgood := (hinv _ _ hget).touch
      refine sendStep_sent hstep hinv (good_procAckAllSse hnow hgood rfl fh mh) ?_
        (onlyFront_procAckAllSse hgood.carried fh mh)
      intro se' hse'
      obtain rfl : se = se' := Option.some.inj (hget.symm.trans hse')
      rcases procAckAllSse_cases e.now fh mh { se with idleTimeout := e.now + idleTimeout } with
        ⟨-, heq⟩ | ⟨pkt, pkts, hlist, hsrc, hdst, hseq, heq⟩
      · rw [heq]
        exact .appended [] (List.append_nil _).symm
      · rw [heq]
        exact .acknowledged hop haccept rfl (by rw [tryLowerSend_pktList, ← hlist]) hsrc hdst hseq
  | ackPart fh mh data =>
    rw [act_ackPart] at hstep
    cases hget : s.sse fh.src with
    | none =>
      rw [hget] at hstep
      exact sendStep_none hstep hinv
    | some se =>
      rw [hget] at hstep
      have hgood := (hinv _ _ hget).touch
      refine sendStep_sent hstep hinv (good_procAckPartSse hnow hgood rfl _ fh mh data) ?_
        (onlyFront_procAckPartSse hgood.carried _ fh mh data)
      intro se' hse'
      obtain rfl : se = se' := Option.some.inj (hget.symm.trans hse')
      exact .appended [] (by rw [procAckPartSse_pktList, List.append_nil])

lemma sendStep_procTimer (hnow : 0 < e.now) (hinv : SendInv e.now s) (hop : e.op = .procTimer) :
    SendStep s e := by
  have hstep := step_procTimer (s := s) hop
  refine ⟨?_, ?_, _, by rw [hstep, procTimer_lowerSendList], ?_⟩
  · intro k se hse
    rw [hstep, procTimer_sse] at hse
    cases hget : s.sse k with
    | none =>
      rw [hget] at hse
      simp [tickSse] at hse
    | some se' =>
      rw [hget] at hse
      exact (tickSse_good hnow (hinv k se' hget) _).1 se hse
  · intro k se hse
    rw [hstep, procTimer_sse, hse]
    exact tickSse_queueChange hnow (hinv k se hse) hop rfl _
  · intro f hf hdata
    obtain ⟨k, -, hf⟩ := List.mem_flatMap.1 hf
    cases hget : s.sse k with
    | none =>
      rw [hget] at hf
      simp [tickSse] at hf
    | some se =>
      rw [hget] at hf
      obtain ⟨se', pkt, pkts, hse', hlist, hframe⟩ :=
        (tickSse_good hnow (hinv k se hget) (e.stack k)).2.2 f hf hdata
      refine ⟨k, se', pkt, pkts, ?_, hlist, hframe⟩
      rw [hstep, procTimer_sse, hget]
      exact hse'

/-- **One call.** -/
lemma sendStep (hnow : 0 < e.now) (hinv : SendInv e.now s) : SendStep s e := by
  cases hop : e.op with
  | upperSend smac dmac msg => exact sendStep_upperSend hnow hinv hop
  | lowerPut raw =>
    cases haccept : accept raw with
    | none =>
      exact sendStep_none (step_rejected hop haccept) hinv
    | some a => exact sendStep_act hnow hinv hop haccept
  | procTimer => exact sendStep_procTimer hnow hinv hop

end

/-! ## Runs -/

lemma SendInv.mono {now now' : ℤ} {s : Split} (h : SendInv now s) (hnow : now ≤ now') :
    SendInv now' s := fun k se hse => (h k se hse).mono hnow

/-- The invariant holds at every time that no event of the run is later than. -/
lemma sendInv_run (es : List Event) (hclock : Clocked es) {now : ℤ}
    (hnow : ∀ e ∈ es, e.now ≤ now) : SendInv now (run es) := by
  induction es using List.reverseRecOn generalizing now with
  | nil =>
    intro k se hse
    simp [splitInit] at hse
  | append_singleton es e ih =>
    obtain ⟨hmono, hpos⟩ := hclock
    obtain ⟨hmono, -, hlast⟩ := List.pairwise_append.1 hmono
    have hinv : SendInv e.now (run es) :=
      ih ⟨hmono, fun e' he' => hpos e' (by simp [he'])⟩ fun e' he' => hlast e' he' e (by simp)
    rw [run_concat]
    exact (sendStep (hpos e (by simp)) hinv).good.mono (hnow e (by simp))

lemma exists_sendInv_run (es : List Event) (hclock : Clocked es) : ∃ now, SendInv now (run es) := by
  rcases List.eq_nil_or_concat es with rfl | ⟨es, e, rfl⟩
  · exact ⟨0, sendInv_run [] hclock (by simp)⟩
  · rw [List.concat_eq_append] at hclock ⊢
    refine ⟨e.now, sendInv_run _ hclock fun e' he' => ?_⟩
    rcases List.mem_append.1 he' with he' | he'
    · exact (List.pairwise_append.1 hclock.1).2.2 e' he' e (by simp)
    · rw [List.mem_singleton.1 he']

/-- **The send sessions of every run.** In a run whose clock is positive and does not go back,
the four fields of every send session agree and its queue holds consecutive sequence numbers;
and whatever comes next, before the timer looks at a session the fields still agree (so an
acknowledgement timeout finds a packet at the front), the queues change in the ways of
`QueueChange` only, and a DATA frame that is queued is the one of a front. -/
theorem send_sessions_of_run (es : List Event) (hclock : Clocked es) :
    (∀ k se, (run es).sse k = some se → SseOk se) ∧
    ∀ e, Clocked (es ++ [e]) →
      (e.op = .procTimer → ∀ j k se,
        ((macs.take j).foldl (procTimerSse e.now e.stack) (run es)).sse k = some se → SseOk se) ∧
      (∀ k se, (run es).sse k = some se → QueueChange e k se ((run (es ++ [e])).sse k)) ∧
      ∃ queued, (run (es ++ [e])).lowerSendList = (run es).lowerSendList ++ queued ∧
        ∀ f ∈ queued, frameType f = some frameTypeData →
          ∃ k se pkt pkts, (run (es ++ [e])).sse k = some se ∧ se.pktList = pkt :: pkts ∧
            f = framed (pkt.fh.bytes ++ pkt.mh.bytes) := by
  refine ⟨fun k se hse => ?_, fun e he => ?_⟩
  · obtain ⟨now, hinv⟩ := exists_sendInv_run es hclock
    exact (hinv k se hse).toSseOk
  obtain ⟨hmono, hpos⟩ := he
  have hlast := (List.pairwise_append.1 hmono).2.2
  have htime : 0 < e.now := hpos e (by simp)
  have hinv : SendInv e.now (run es) :=
    sendInv_run es hclock fun e' he' => hlast e' he' e (by simp)
  have hstep := sendStep htime hinv
  rw [run_concat]
  refine ⟨fun hop j k se hse => ?_, hstep.queues, hstep.fronts⟩
  rw [foldl_procTimerSse_sse e.now e.stack _ (nodup_macs.sublist (List.take_sublist j macs))] at hse
  split_ifs at hse
  · cases hget : (run es).sse k with
    | none =>
      rw [hget] at hse
      simp [tickSse] at hse
    | some se' =>
      rw [hget] at hse
      exact ((tickSse_good htime (hinv k se' hget) _).1 se hse).toSseOk
  · exact (hinv k se hse).toSseOk

/-- Two messages wait for the mac 2 and one for the mac 3 when the timer comes: when it has looked
at the sessions below 3 all fields agree.  Then the first message is acknowledged, which takes it
from the front and sends the headers of the second. -/
theorem send_sessions_of_run_acked :
    let es : List Event := [⟨1, default, .upperSend 1 2 [7]⟩, ⟨2, default, .upperSend 1 2 [8]⟩,
      ⟨3, default, .upperSend 1 3 [9]⟩]
    let timer : Event := ⟨4001, default, .procTimer⟩
    let acked : Event := ⟨4002, default, .lowerPut (framed
      ((frmHdr 2 1 frameTypeAcka 0 frmMsgHdrLen).bytes ++ (msgHdr 0xffffffff 0 0 []).bytes))⟩
    (∀ k se, ((macs.take 3).foldl (procTimerSse timer.now timer.stack) (run es)).sse k = some se →
      SseOk se) ∧
    ∃ se, (run (es ++ [timer])).sse 2 = some se ∧ se.pktList.length = 2 ∧ SseOk se ∧
      QueueChange acked 2 se ((run (es ++ [timer] ++ [acked])).sse 2) ∧
      ∃ f, (run (es ++ [timer] ++ [acked])).lowerSendList =
          (run (es ++ [timer])).lowerSendList ++ [f] ∧
        ∃ k se' pkt pkts, (run (es ++ [timer] ++ [acked])).sse k = some se' ∧
          se'.pktList = pkt :: pkts ∧ f = framed (pkt.fh.bytes ++ pkt.mh.bytes) := by
  intro es timer acked
  have hclock : Clocked (es ++ [timer] ++ [acked]) := by
    simp [Clocked, es, timer, acked]
  have hclock' : Clocked (es ++ [timer]) := by
    simp [Clocked, es, timer]
  have hclock'' : Clocked es := by
    simp [Clocked, es]
  obtain ⟨-, hnext⟩ := send_sessions_of_run es hclock''
  obtain ⟨hok, hnext'⟩ := send_sessions_of_run (es ++ [timer]) hclock'
  obtain ⟨-, hchange, queued, hqueued, hfronts⟩ := hnext' acked hclock
  have htwo : ((run (es ++ [timer])).sse 2).map (fun se => se.pktList.length) = some 2 := by
    decide +kernel
  obtain ⟨se, hse, hlen⟩ := Option.map_eq_some_iff.1 htwo
  -- one frame more, of the type DATA
  have hkinds : (run (es ++ [timer] ++ [acked])).lowerSendList.map frameType =
      (run (es ++ [timer])).lowerSendList.map frameType ++ [some frameTypeData] := by
    decide +kernel
  rw [hqueued, List.map_append] at hkinds
  obtain ⟨f, rfl, hf⟩ := List.map_eq_singleton_iff.1 (List.append_cancel_left hkinds)
  exact ⟨(hnext timer hclock').1 rfl 3, se, hse, hlen, hok 2 se hse, hchange 2 se hse, f, hqueued,
    hfronts f (List.mem_singleton_self f) hf⟩

end Ipcf
