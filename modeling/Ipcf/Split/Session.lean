import Ipcf.Split.SendInvariant

/-!
# One send session of a run

The send sessions of an endpoint do not look at each other: what an event does to the session of
`k`, and what that session queues, depends on the event and on that session alone (`stepSse`,
`step_sse`).  The frames that an event queues are those of the sessions, key by key, and besides
them acknowledgements of the receive path (`step_lowerSendList`).

`SseSound` is what holds of a send session in any run whatever the clock does; `SseChange` is all
that can happen to a sound session in one event.
-/

namespace Ipcf

/-! ## A session on its own -/

/-- A handler behind the look-up of the session: nothing happens without one. -/
def onSse (now : ℤ) (handler : Sse → Sse × List Bytes) : Option Sse → Option Sse × List Bytes
  | none => (none, [])
  | some se =>
    let r := handler { se with idleTimeout := now + idleTimeout }
    (some r.1, r.2)

/-- What an event does to the send session of `k`, and what the session queues. -/
def stepSse (k : UInt8) (e : Event) (o : Option Sse) : Option Sse × List Bytes :=
  match e.op with
  | .upperSend smac dmac msg =>
    if dmac = k ∧ msg ≠ [] then
      let se := (o.map fun se => { se with idleTimeout := e.now + idleTimeout }).getD
        (createSse e.now)
      let r := (upperSendSse e.now (e.stack 0) smac dmac msg se).1
      (some r.1, r.2)
    else (o, [])
  | .lowerPut raw =>
    match accept raw with
    | some (.ackAll fh mh) =>
      if fh.src = k then onSse e.now (procAckAllSse e.now fh mh) o else (o, [])
    | some (.ackPart fh mh data) =>
      if fh.src = k then onSse e.now (procAckPartSse e.now (e.stack 0) fh mh data) o else (o, [])
    | _ => (o, [])
  | .procTimer => tickSse e.now (e.stack k) o

/-- The sessions of an event: every send session is changed on its own, and what is queued is what
the sessions queue, key by key, and acknowledgements of the receive path besides. -/
structure Sessions (s : Split) (e : Event) : Prop where
  sse : ∀ k, (s.step e).sse k = (stepSse k e (s.sse k)).1
  queued : ∃ acks, (s.step e).lowerSendList =
      s.lowerSendList ++ (macs.flatMap fun k => (stepSse k e (s.sse k)).2) ++ acks ∧
    ∀ f ∈ acks, frameType f = some frameTypeAcka ∨ frameType f = some frameTypeAckp

section

variable {s : Split} {e : Event}

/-- An event that touches the session of `k` only. -/
lemma sessions_sent {k : UInt8} {r : Sse × List Bytes} (hstep : s.step e = s.sent k r)
    (hone : ∀ i, stepSse i e (s.sse i) = if i = k then (some r.1, r.2) else (s.sse i, [])) :
    Sessions s e where
  sse := by
    intro i
    rw [hstep, sent_sse, hone]
    split_ifs <;> rfl
  queued := by
    refine ⟨[], ?_, by simp⟩
    rw [hstep, sent_lowerSendList, flatMap_single (k := k) ?_ nodup_macs (mem_macs k), hone,
      if_pos rfl, List.append_nil]
    intro i hi
    rw [hone, if_neg hi]

/-- An event that touches no send session. -/
lemma sessions_other (acks : List Bytes) (hsse : (s.step e).sse = s.sse)
    (hlist : (s.step e).lowerSendList = s.lowerSendList ++ acks)
    (hacks : ∀ f ∈ acks, frameType f = some frameTypeAcka ∨ frameType f = some frameTypeAckp)
    (hone : ∀ i, stepSse i e (s.sse i) = (s.sse i, [])) : Sessions s e where
  sse := by
    intro i
    rw [hsse, hone]
  queued := by
    refine ⟨acks, ?_, hacks⟩
    have hnone : (macs.flatMap fun i => (stepSse i e (s.sse i)).2) = [] := by
      rw [List.flatMap_eq_nil_iff]
      intro i _
      rw [hone]
    rw [hlist, hnone, List.append_nil]

lemma sessions_quiet (hstep : s.step e = s) (hone : ∀ i, stepSse i e (s.sse i) = (s.sse i, [])) :
    Sessions s e :=
  sessions_other [] (by rw [hstep]) (by rw [hstep, List.append_nil]) (by simp) hone

/-- A handler of the send path, which looks up the session of the frame's sender. -/
lemma sessions_handler {k : UInt8} (handler : Sse → Sse × List Bytes)
    (hstep : s.step e = match s.sse k with
      | none => s
      | some se => s.sent k (handler { se with idleTimeout := e.now + idleTimeout }))
    (hone : ∀ i, stepSse i e (s.sse i) =
      if k = i then onSse e.now handler (s.sse i) else (s.sse i, [])) : Sessions s e := by
  cases hget : s.sse k with
  | none =>
    rw [hget] at hstep
    refine sessions_quiet hstep fun i => ?_
    rw [hone]
    split_ifs with hi
    · rw [← hi, hget]
      rfl
    · rfl
  | some se =>
    rw [hget] at hstep
    refine sessions_sent hstep fun i => ?_
    rw [hone]
    by_cases hi : i = k
    · rw [hi, if_pos rfl, if_pos rfl, hget]
      rfl
    · rw [if_neg hi, if_neg (Ne.symm hi)]

lemma sessions_act {raw : Bytes} {a : Accepted} (hop : e.op = .lowerPut raw)
    (haccept : accept raw = some a) : Sessions s e := by
  have hstep := step_accepted (s := s) hop haccept
  cases a with
  | data fh mh data =>
    refine sessions_other _ (by rw [hstep]; rfl) (by rw [hstep]; rfl) ?_
      fun i => by simp only [stepSse, hop, haccept]
    intro f hf
    obtain ⟨se', hf'⟩ := procDataRse_queued _ _ _ _ (accept_length haccept) f hf
    exact frameType_sendAck hf'
  | ackReq fh mh =>
    have hone : ∀ i, stepSse i e (s.sse i) = (s.sse i, []) := fun i => by
      simp only [stepSse, hop, haccept]
    rw [act_ackReq] at hstep
    cases hget : s.rse fh.src with
    | none =>
      rw [hget] at hstep
      exact sessions_quiet hstep hone
    | some se =>
      rw [hget] at hstep
      refine sessions_other _ (by rw [hstep]; rfl) (by rw [hstep]; rfl) ?_ hone
      intro f hf
      exact frameType_sendAck (procAckReqRse_queued _ _ _ _ f hf)
  | patch fh mh data =>
    have hone : ∀ i, stepSse i e (s.sse i) = (s.sse i, []) := fun i => by
      simp only [stepSse, hop, haccept]
    rw [act_patch] at hstep
    cases hget : s.rse fh.src with
    | none =>
      rw [hget] at hstep
      exact sessions_quiet hstep hone
    | some se =>
      rw [hget] at hstep
      refine sessions_other _ (by rw [hstep]; rfl) (by rw [hstep]; rfl) ?_ hone
      intro f hf
      obtain ⟨se', hf'⟩ := procPatchRse_queued _ _ _ _ (accept_length haccept) f hf
      exact frameType_sendAck hf'
  | ackAll fh mh =>
    rw [act_ackAll] at hstep
    exact sessions_handler _ hstep fun i => by simp only [stepSse, hop, haccept]
  | ackPart fh mh data =>
    rw [act_ackPart] at hstep
    exact sessions_handler _ hstep fun i => by simp only [stepSse, hop, haccept]

/-- **The sessions of an event.** -/
lemma sessions_step (s : Split) (e : Event) : Sessions s e := by
  cases hop : e.op with
  | upperSend smac dmac msg =>
    have hstep := step_upperSend (s := s) hop
    by_cases hmsg : msg = []
    · rw [hmsg, upperSend_nil] at hstep
      exact sessions_quiet hstep fun i => by
        simp only [stepSse, hop, hmsg, ne_eq, not_true_eq_false, and_false, if_false]
    · have hlen : ¬ msg.length ≤ 0 := Nat.not_le.2 (List.length_pos_iff.2 hmsg)
      rw [upperSend, if_neg hlen] at hstep
      refine sessions_sent hstep fun i => ?_
      by_cases hi : i = dmac
      · subst hi
        simp only [stepSse, hop, hmsg, ne_eq, not_false_eq_true, and_self, if_true]
        rfl
      · simp only [stepSse, hop, Ne.symm hi, false_and, if_false, if_neg hi]
  | lowerPut raw =>
    cases haccept : accept raw with
    | none =>
      exact sessions_quiet (step_rejected hop haccept) fun i => by
        simp only [stepSse, hop, haccept]
    | some a => exact sessions_act hop haccept
  | procTimer =>
    have hstep := step_procTimer (s := s) hop
    refine ⟨fun k => ?_, [], ?_, by simp⟩
    · rw [hstep, procTimer_sse]
      simp only [stepSse, hop]
    · rw [hstep, procTimer_lowerSendList, List.append_nil]
      simp only [stepSse, hop]

end

/-! ## What a session hears and sends -/

/-- What happens to a packet while it is in front: a frame for it is queued; its acknowledgement
timer runs out, and it is dropped or not; or the receiver asks for slices of it. -/
inductive Happening
  | data
  | ackr
  | patch
  | timeout (drops : Bool)
  | partAck
  deriving DecidableEq, Repr

/-- The kind of a frame that a sender queues. -/
def happening (f : Bytes) : Option Happening :=
  match frameType f with
  | some type =>
    if type = frameTypeData then some .data
    else if type = frameTypeAckr then some .ackr
    else if type = frameTypePatch then some .patch
    else none
  | none => none

/-- The headers of an acknowledgement are about the packet in front. -/
def Sse.awaits (fh : FrmHdr) (mh : MsgHdr) (se : Sse) : Bool :=
  match se.pktList with
  | [] => false
  | pkt :: _ => pkt.fh.src == fh.dst && pkt.fh.dst == fh.src && pkt.mh.seq == mh.seq

/-- `proc_timer` finds that the acknowledgement timer has run out. -/
def Sse.due (now : ℤ) (se : Sse) : Bool := decide (se.ackTimeout > 0 ∧ now ≥ se.ackTimeout)

/-- The length of the queue of a session, which is zero when there is none. -/
def pending (o : Option Sse) : ℕ := (o.map fun se => se.pktList.length).getD 0

/-- The timeout or the partial acknowledgement that the event is for the session of `k`. -/
def heard (k : UInt8) (e : Event) (o : Option Sse) : List Happening :=
  match e.op, o with
  | .procTimer, some se =>
    if se.due e.now then [.timeout (decide (pending (stepSse k e o).1 < pending o))] else []
  | .lowerPut raw, some se =>
    match accept raw with
    | some (.ackPart fh mh _) => if fh.src = k ∧ se.awaits fh mh then [.partAck] else []
    | _ => []
  | _, _ => []

/-- The kinds of the frames that the session of `k` queues in the event. -/
def sends (k : UInt8) (e : Event) (o : Option Sse) : List Happening :=
  (stepSse k e o).2.filterMap happening

/-- The event hands a message to the session of `k`. -/
def Event.sendsTo (k : UInt8) (e : Event) : Bool :=
  match e.op with
  | .upperSend _ dmac msg => dmac == k && !msg.isEmpty
  | _ => false

/-! ## What holds of a session whatever the clock does -/

structure SseSound (k : UInt8) (se : Sse) : Prop where
  waiting : se.isWaiting = true ↔ se.pktList ≠ []
  empty : se.pktList = [] → se.ackTimeout = -1 ∧ se.dataRetry = 0 ∧ se.ackRetry = 0
  dataRetry_le : se.dataRetry ≤ maxRetryTimes
  ackRetry_le : se.ackRetry ≤ maxRetryTimes
  seqs : ∀ (i : ℕ) (h : i < se.pktList.length),
    se.pktList[i].mh.seq = se.seq - UInt8.ofNat (se.pktList.length - i)
  carried : Carried k se.pktList

/-- The session with the first of `pkts` just sent. -/
def Sse.restart (now : ℤ) (pkts : List SendNode) (se : Sse) : Sse :=
  { se with
    pktList := pkts
    isWaiting := !pkts.isEmpty
    ackTimeout := if pkts.isEmpty then -1 else now + Ipcf.ackTimeout
    dataRetry := 0
    ackRetry := 0 }

/-- What is sent when the first of `pkts` gets to the front. -/
def firstSent (pkts : List SendNode) : List Happening := if pkts.isEmpty then [] else [.data]

/-- A packet as `upper_send` makes one for the session. -/
def NextPacket (k : UInt8) (se : Sse) (pkt : SendNode) : Prop :=
  ∃ smac p, pkt.Carries smac k p ∧ p.seq = se.seq

/-- All that an event can do to the session of `k`: the session before and after it, whether the
event hands a message to the session, what the session hears and what it sends. -/
inductive SseChange (k : UInt8) (e : Event) :
    Option Sse → Option Sse → Bool → List Happening → List Happening → Prop
  | absent : SseChange k e none none false [] []
  | kept {se : Sse} (t : ℤ) : (e.op = .procTimer → se.due e.now = false) →
      SseChange k e (some se) (some { se with idleTimeout := t }) false [] []
  | freed {se : Sse} : e.op = .procTimer → se.due e.now = false →
      SseChange k e (some se) none false [] []
  | started {o : Option Sse} {se : Sse} {pkt : SendNode} : e.op ≠ .procTimer →
      (o = none ∧ se = createSse e.now ∨
        ∃ se' t, o = some se' ∧ se = { se' with idleTimeout := t }) →
      se.pktList = [] → NextPacket k se pkt →
      SseChange k e o (some { se.restart e.now [pkt] with seq := se.seq + 1 }) true [] [.data]
  | appended {se : Sse} {pkt : SendNode} (t : ℤ) : e.op ≠ .procTimer → se.pktList ≠ [] →
      NextPacket k se pkt →
      SseChange k e (some se)
        (some { se with idleTimeout := t, seq := se.seq + 1, pktList := se.pktList ++ [pkt] })
        true [] []
  | acked {se : Sse} {pkt : SendNode} {pkts : List SendNode} (t : ℤ) : e.op ≠ .procTimer →
      se.pktList = pkt :: pkts →
      SseChange k e (some se) (some { se.restart e.now pkts with idleTimeout := t }) false []
        (firstSent pkts)
  | partAcked {se : Sse} {sent : List Happening} (t : ℤ) : e.op ≠ .procTimer → se.pktList ≠ [] →
      sent = [] ∨ sent = [.patch] →
      SseChange k e (some se)
        (some { se with idleTimeout := t, ackTimeout := e.now + ackTimeout, ackRetry := 0 })
        false [.partAck] sent
  | asked {se : Sse} (t : ℤ) : e.op = .procTimer → se.due e.now = true → se.pktList ≠ [] →
      se.ackRetry + 1 ≤ maxRetryTimes →
      SseChange k e (some se)
        (some { se with idleTimeout := t, ackRetry := se.ackRetry + 1 })
        false [.timeout false] [.ackr]
  | resent {se : Sse} (t : ℤ) : e.op = .procTimer → se.due e.now = true → se.pktList ≠ [] →
      se.ackRetry = maxRetryTimes → se.dataRetry + 1 ≤ maxRetryTimes →
      SseChange k e (some se)
        (some { se with
          idleTimeout := t, ackTimeout := e.now + ackTimeout, dataRetry := se.dataRetry + 1,
          ackRetry := 0 })
        false [.timeout false] [.data]
  | dropped {se : Sse} {pkt : SendNode} {pkts : List SendNode} (t : ℤ) : e.op = .procTimer →
      se.due e.now = true → se.pktList = pkt :: pkts → se.ackRetry = maxRetryTimes →
      se.dataRetry = maxRetryTimes →
      SseChange k e (some se) (some { se.restart e.now pkts with idleTimeout := t }) false
        [.timeout true] (firstSent pkts)

section

variable {k : UInt8} {now : ℤ} {se : Sse}

lemma happening_data {f : Bytes} (h : frameType f = some frameTypeData) :
    happening f = some .data := by
  simp [happening, h]

lemma happening_ackr {f : Bytes} (h : frameType f = some frameTypeAckr) :
    happening f = some .ackr := by
  simp only [happening, h]
  rfl

lemma happening_patch {f : Bytes} (h : frameType f = some frameTypePatch) :
    happening f = some .patch := by
  simp only [happening, h]
  rfl

/-- The frames that are sent when the first of `pkts` gets to the front. -/
def firstFrames (pkts : List SendNode) : List Bytes :=
  (pkts.head?.map fun pkt => dataNode pkt.escaped.cells pkt.escLen.toNat).toList

lemma filterMap_firstFrames {pkts : List SendNode} (h : Carried k pkts) :
    (firstFrames pkts).filterMap happening = firstSent pkts := by
  cases pkts with
  | nil => rfl
  | cons pkt pkts =>
    obtain ⟨smac, p, hpkt⟩ := h pkt (by simp)
    have hdata := happening_data (IsHead.frameType_eq ⟨smac, p, hpkt.first⟩)
    simp [firstFrames, firstSent, hdata]

lemma tryLowerSend_restart (now : ℤ) (se : Sse) (pkts : List SendNode) :
    tryLowerSend now { se with
        pktList := pkts, isWaiting := false, ackTimeout := -1, dataRetry := 0, ackRetry := 0 } =
      (se.restart now pkts, firstFrames pkts) := by
  cases pkts <;> rfl

/-- The first packet of an empty session is sent at once. -/
lemma tryLowerSend_started (h : SseSound k se) (hnil : se.pktList = []) (pkt : SendNode) :
    tryLowerSend now { se with seq := se.seq + 1, pktList := se.pktList ++ [pkt] } =
      ({ se.restart now [pkt] with seq := se.seq + 1 }, firstFrames [pkt]) := by
  obtain ⟨htimer, hdata, hack⟩ := h.empty hnil
  have hwait : se.isWaiting = false := by
    rw [← Bool.not_eq_true, h.waiting]
    simp [hnil]
  rw [hnil, List.nil_append, tryLowerSend]
  simp only [hwait, Bool.false_eq_true, if_false, Sse.restart, hdata, hack]
  rfl

/-- A packet behind others waits. -/
lemma tryLowerSend_appended (h : SseSound k se) (hne : se.pktList ≠ []) (pkt : SendNode) :
    tryLowerSend now { se with seq := se.seq + 1, pktList := se.pktList ++ [pkt] } =
      ({ se with seq := se.seq + 1, pktList := se.pktList ++ [pkt] }, []) := by
  have hwait : se.isWaiting = true := h.waiting.2 hne
  rcases tryLowerSend_cases now { se with seq := se.seq + 1, pktList := se.pktList ++ [pkt] } with
    ⟨-, heq⟩ | ⟨pkt', pkts, -, hnot, -⟩
  · exact heq
  · rw [hwait] at hnot
    cases hnot

/-- Sending the front again. -/
lemma tryLowerSend_front (now : ℤ) (se : Sse) (hne : se.pktList ≠ [])
    (hwait : se.isWaiting = false) :
    tryLowerSend now se =
      ({ se with ackTimeout := now + ackTimeout, isWaiting := true }, firstFrames se.pktList) := by
  rcases tryLowerSend_cases now se with ⟨hstay, -⟩ | ⟨pkt, pkts, hlist, -, heq⟩
  · rcases hstay with hnil | hwait'
    · exact absurd hnil hne
    · rw [hwait] at hwait'
      cases hwait'
  · rw [heq, hlist]
    rfl

lemma SseSound.touch (h : SseSound k se) (t : ℤ) : SseSound k { se with idleTimeout := t } :=
  ⟨h.waiting, h.empty, h.dataRetry_le, h.ackRetry_le, h.seqs, h.carried⟩

lemma sseSound_createSse (now : ℤ) : SseSound k (createSse now) where
  waiting := by simp [createSse]
  empty _ := ⟨rfl, rfl, rfl⟩
  dataRetry_le := Nat.zero_le _
  ackRetry_le := Nat.zero_le _
  seqs := by simp [createSse]
  carried := by simp [createSse, Carried]

lemma SseSound.ne_nil_of_due (h : SseSound k se) (hdue : se.due now = true) :
    se.pktList ≠ [] := by
  intro hnil
  rw [Sse.due, decide_eq_true_eq, (h.empty hnil).1] at hdue
  omega

end

/-! ## The inversion -/

section

variable {k : UInt8} {e : Event} {se : Sse}

/-- A message for a session: it is looked up or made, and a packet is put behind its queue. -/
lemma stepSse_upperSend {smac dmac : UInt8} {msg : Bytes} (hop : e.op = .upperSend smac dmac msg)
    (hmsg : msg ≠ []) {o : Option Sse} (h : ∀ se, o = some se → SseSound dmac se) :
    ∃ se pkt,
      (o = none ∧ se = createSse e.now ∨
        ∃ se' t, o = some se' ∧ se = { se' with idleTimeout := t }) ∧
      SseSound dmac se ∧ NextPacket dmac se pkt ∧
      stepSse dmac e o =
        (some (tryLowerSend e.now
            { se with seq := se.seq + 1, pktList := se.pktList ++ [pkt] }).1,
          (tryLowerSend e.now
            { se with seq := se.seq + 1, pktList := se.pktList ++ [pkt] }).2) := by
  have hstep : stepSse dmac e o =
      (some (upperSendSse e.now (e.stack 0) smac dmac msg ((o.map fun se =>
          { se with idleTimeout := e.now + idleTimeout }).getD (createSse e.now))).1.1,
        (upperSendSse e.now (e.stack 0) smac dmac msg ((o.map fun se =>
          { se with idleTimeout := e.now + idleTimeout }).getD (createSse e.now))).1.2) := by
    simp only [stepSse, hop, hmsg, ne_eq, not_false_eq_true, and_self, if_true]
  obtain ⟨p, pkt, hret, hseq, -, hcarries⟩ := upperSendSse_spec e.now (e.stack 0) smac dmac hmsg
    ((o.map fun se => { se with idleTimeout := e.now + idleTimeout }).getD (createSse e.now))
  rw [hret] at hstep
  refine ⟨_, pkt, ?_, ?_, ⟨smac, p, hcarries, hseq⟩, hstep⟩
  · cases o with
    | none => exact .inl ⟨rfl, rfl⟩
    | some se' => exact .inr ⟨se', _, rfl, rfl⟩
  · cases o with
    | none => exact sseSound_createSse _
    | some se' => exact (h se' rfl).touch _

lemma sseChange_upperSend {smac dmac : UInt8} {msg : Bytes} (hop : e.op = .upperSend smac dmac msg)
    {o : Option Sse} (h : ∀ se, o = some se → SseSound k se) :
    SseChange k e o (stepSse k e o).1 (e.sendsTo k) (heard k e o) (sends k e o) := by
  have hheard : heard k e o = [] := by
    simp only [heard, hop]
  have hsends : e.sendsTo k = decide (dmac = k ∧ msg ≠ []) := by
    simp only [Event.sendsTo, hop]
    rw [Bool.decide_and]
    cases msg <;> simp [beq_eq_decide]
  have hnot : e.op ≠ .procTimer := by
    rw [hop]
    exact Op.noConfusion
  rw [hheard, hsends, sends]
  by_cases hto : dmac = k ∧ msg ≠ []
  · obtain ⟨rfl, hmsg⟩ := hto
    obtain ⟨se, pkt, hbase, hsound, hnext, hstep⟩ := stepSse_upperSend hop hmsg h
    rw [decide_eq_true (show dmac = dmac ∧ msg ≠ [] from ⟨rfl, hmsg⟩), hstep]
    by_cases hnil : se.pktList = []
    · rw [tryLowerSend_started hsound hnil]
      have hkinds : (firstFrames [pkt]).filterMap happening = firstSent [pkt] :=
        filterMap_firstFrames (k := dmac) fun pkt' hpkt' => by
          obtain ⟨smac', p, hcarries, -⟩ := hnext
          rw [List.mem_singleton.1 hpkt']
          exact ⟨smac', p, hcarries⟩
      simp only [hkinds]
      exact .started hnot hbase hnil hnext
    · rw [tryLowerSend_appended hsound hnil]
      rcases hbase with ⟨-, rfl⟩ | ⟨se', t, rfl, rfl⟩
      · exact absurd rfl hnil
      · exact .appended _ hnot hnil hnext
  · have hstep : stepSse k e o = (o, []) := by
      simp only [stepSse, hop, if_neg hto]
    rw [decide_eq_false hto, hstep]
    cases o with
    | none => exact .absent
    | some se => exact .kept se.idleTimeout fun h => absurd h hnot

lemma sseChange_ackAll {raw : Bytes} {fh : FrmHdr} {mh : MsgHdr} (hop : e.op = .lowerPut raw)
    (haccept : accept raw = some (.ackAll fh mh)) (h : SseSound k se) :
    SseChange k e (some se) (stepSse k e (some se)).1 (e.sendsTo k) (heard k e (some se))
      (sends k e (some se)) := by
  have hnot : e.op ≠ .procTimer := by
    rw [hop]
    exact Op.noConfusion
  have hheard : heard k e (some se) = [] := by
    simp only [heard, hop, haccept]
  have hsends : e.sendsTo k = false := by
    simp only [Event.sendsTo, hop]
  rw [hheard, hsends, sends]
  simp only [stepSse, hop, haccept]
  split_ifs
  · simp only [onSse]
    rcases procAckAllSse_cases e.now fh mh { se with idleTimeout := e.now + idleTimeout } with
      ⟨-, heq⟩ | ⟨pkt, pkts, hlist, -, -, -, heq⟩
    · rw [heq]
      exact .kept _ fun hop' => absurd hop' hnot
    · rw [heq, tryLowerSend_restart]
      have hcarried : Carried k pkts :=
        h.carried.suffix (by rw [hlist]; exact List.suffix_cons pkt pkts)
      simp only [filterMap_firstFrames hcarried]
      exact .acked _ hnot hlist
  · exact .kept se.idleTimeout fun hop' => absurd hop' hnot

lemma awaits_iff {fh : FrmHdr} {mh : MsgHdr} {pkt : SendNode} {pkts : List SendNode}
    (hlist : se.pktList = pkt :: pkts) :
    se.awaits fh mh = true ↔ pkt.fh.src = fh.dst ∧ pkt.fh.dst = fh.src ∧ pkt.mh.seq = mh.seq := by
  simp only [Sse.awaits, hlist, Bool.and_eq_true, beq_iff_eq, and_assoc]

lemma sseChange_ackPart {raw data : Bytes} {fh : FrmHdr} {mh : MsgHdr} (hop : e.op = .lowerPut raw)
    (haccept : accept raw = some (.ackPart fh mh data)) (h : SseSound k se) :
    SseChange k e (some se) (stepSse k e (some se)).1 (e.sendsTo k) (heard k e (some se))
      (sends k e (some se)) := by
  have hnot : e.op ≠ .procTimer := by
    rw [hop]
    exact Op.noConfusion
  have hheard : heard k e (some se) =
      if fh.src = k ∧ se.awaits fh mh = true then [.partAck] else [] := by
    simp only [heard, hop, haccept]
  have hsends : e.sendsTo k = false := by
    simp only [Event.sendsTo, hop]
  rw [hheard, hsends, sends]
  simp only [stepSse, hop, haccept]
  by_cases hsrc : fh.src = k
  · simp only [if_pos hsrc, onSse, and_iff_right hsrc]
    rcases procAckPartSse_cases e.now (e.stack 0) fh mh data
        { se with idleTimeout := e.now + idleTimeout } with
      ⟨hother, heq⟩ | ⟨pkt, pkts, hlist, hs, hd, hseq, heq⟩
    · have hawaits : ¬ se.awaits fh mh = true := by
        intro hawaits
        cases hlist : se.pktList with
        | nil => simp [Sse.awaits, hlist] at hawaits
        | cons pkt pkts =>
          obtain ⟨hs, hd, hseq⟩ := (awaits_iff hlist).1 hawaits
          exact hother pkt pkts hlist hs hd hseq
      rw [heq, if_neg hawaits]
      exact .kept _ fun hop' => absurd hop' hnot
    · have hlist' : se.pktList = pkt :: pkts := hlist
      rw [heq, if_pos ((awaits_iff hlist').2 ⟨hs, hd, hseq⟩)]
      refine .partAcked _ hnot (by simp [hlist']) ?_
      obtain ⟨smac, p, hpkt⟩ := h.carried pkt (by simp [hlist'])
      have htype : ∀ f ∈ sendPatch (e.stack 0) pkt data, frameType f = some frameTypePatch :=
        fun f hf => frameType_sendPatch hpkt hf
      unfold sendPatch at htype ⊢
      cases hframe : patchFrame (e.stack 0).buf pkt data with
      | none => exact .inl rfl
      | some frm =>
        right
        rw [hframe] at htype
        obtain ⟨f, hf, -⟩ := putEscaped_single (e.stack 0).escaped frm
        simp only [hf] at htype ⊢
        simp [happening_patch (htype f (by simp))]
  · simp only [hsrc, false_and, if_false]
    exact .kept se.idleTimeout fun hop' => absurd hop' hnot

lemma sseChange_lowerPut {raw : Bytes} (hop : e.op = .lowerPut raw) {o : Option Sse}
    (h : ∀ se, o = some se → SseSound k se) :
    SseChange k e o (stepSse k e o).1 (e.sendsTo k) (heard k e o) (sends k e o) := by
  have hnot : e.op ≠ .procTimer := by
    rw [hop]
    exact Op.noConfusion
  have hsends : e.sendsTo k = false := by
    simp only [Event.sendsTo, hop]
  cases o with
  | none =>
    have hstep : stepSse k e none = (none, []) := by
      simp only [stepSse, hop]
      split
      · split_ifs <;> rfl
      · split_ifs <;> rfl
      · rfl
    have hheard : heard k e none = [] := by
      simp only [heard, hop]
    rw [hsends, hheard, sends, hstep]
    exact .absent
  | some se =>
    have hquiet : stepSse k e (some se) = (some se, []) → heard k e (some se) = [] →
        SseChange k e (some se) (stepSse k e (some se)).1 (e.sendsTo k) (heard k e (some se))
          (sends k e (some se)) := by
      intro hstep hheard
      rw [hsends, hheard, sends, hstep]
      exact .kept se.idleTimeout fun hop' => absurd hop' hnot
    cases haccept : accept raw with
    | none =>
      exact hquiet (by simp only [stepSse, hop, haccept]) (by simp only [heard, hop, haccept])
    | some a =>
      cases a with
      | ackAll fh mh => exact sseChange_ackAll hop haccept (h se rfl)
      | ackPart fh mh data => exact sseChange_ackPart hop haccept (h se rfl)
      | data fh mh data =>
        exact hquiet (by simp only [stepSse, hop, haccept]) (by simp only [heard, hop, haccept])
      | ackReq fh mh =>
        exact hquiet (by simp only [stepSse, hop, haccept]) (by simp only [heard, hop, haccept])
      | patch fh mh data =>
        exact hquiet (by simp only [stepSse, hop, haccept]) (by simp only [heard, hop, haccept])

/-- A timeout pushes the idle timer ahead, so that the session is kept. -/
lemma tickSse_due {now : ℤ} {stack : Stack} (hdue : se.due now = true) (hne : se.pktList ≠ []) :
    tickSse now stack (some se) =
      (some (procSseAckTimeout now stack se).1, (procSseAckTimeout now stack se).2) := by
  have hfire : se.ackTimeout > 0 ∧ now ≥ se.ackTimeout := of_decide_eq_true hdue
  have hidle : (procSseAckTimeout now stack se).1.idleTimeout = now + idleTimeout := by
    obtain ⟨pkt, pkts, hlist⟩ := List.exists_cons_of_ne_nil hne
    rcases procSseAckTimeout_cases now stack hlist with ⟨-, heq⟩ | ⟨-, -, heq⟩ | ⟨-, -, heq⟩
    · rw [heq]
    · rw [heq, tryLowerSend_idleTimeout]
    · rw [heq, tryLowerSend_idleTimeout]
  have hkeep : ¬ now ≥ (procSseAckTimeout now stack se).1.idleTimeout := by
    rw [hidle]
    simp only [idleTimeout]
    omega
  simp only [tickSse, if_pos hfire, if_neg hkeep]

lemma tickSse_not_due {now : ℤ} (stack : Stack) (hdue : ¬ se.due now = true) :
    tickSse now stack (some se) = (if now ≥ se.idleTimeout then none else some se, []) := by
  have hfire : ¬ (se.ackTimeout > 0 ∧ now ≥ se.ackTimeout) :=
    of_decide_eq_false (Bool.not_eq_true _ ▸ hdue)
  simp only [tickSse, if_neg hfire]

lemma happening_sendAckReq (stack : Stack) (dst src : UInt8) (se : Sse) :
    (sendAckReq stack dst src se).filterMap happening = [.ackr] := by
  obtain ⟨f, hf, -⟩ := putEscaped_single stack.escaped
    (ackFrame dst src frameTypeAckr (stack.buf.get 3 0) (se.seq - 1) [])
  have hmem : f ∈ putEscaped stack.escaped
      (ackFrame dst src frameTypeAckr (stack.buf.get 3 0) (se.seq - 1) []) := by
    rw [hf]
    exact List.mem_singleton_self f
  have htype : frameType f = some frameTypeAckr := frameType_ackFrame hmem
  rw [sendAckReq, hf]
  simp [happening_ackr htype]

/-- A timeout asks, sends the front again or gives it up. -/
lemma sseChange_timeout (hop : e.op = .procTimer) (hsound : SseSound k se)
    (hdue : se.due e.now = true) :
    SseChange k e (some se) (some (procSseAckTimeout e.now (e.stack k) se).1) false
      [.timeout (decide (pending (some (procSseAckTimeout e.now (e.stack k) se).1) <
        pending (some se)))]
      ((procSseAckTimeout e.now (e.stack k) se).2.filterMap happening) := by
  have hne := hsound.ne_nil_of_due hdue
  obtain ⟨pkt, pkts, hlist⟩ := List.exists_cons_of_ne_nil hne
  rcases procSseAckTimeout_cases e.now (e.stack k) hlist with
    ⟨h1, heq⟩ | ⟨h1, h2, heq⟩ | ⟨h1, h2, heq⟩
  · rw [heq]
    simp only [happening_sendAckReq, pending, Option.map_some, Option.getD_some,
      Nat.lt_irrefl, decide_false]
    exact .asked _ hop hdue hne h1
  · have hretry : se.ackRetry = maxRetryTimes ∧ se.dataRetry = maxRetryTimes := by
      have := hsound.ackRetry_le
      have := hsound.dataRetry_le
      omega
    have hrestart :=
      tryLowerSend_restart e.now { se with idleTimeout := e.now + idleTimeout } pkts
    have hcarried : Carried k pkts :=
      hsound.carried.suffix (by rw [hlist]; exact List.suffix_cons pkt pkts)
    rw [heq.trans hrestart]
    have hless : pending (some (Sse.restart e.now pkts
        { se with idleTimeout := e.now + idleTimeout })) < pending (some se) := by
      simp only [pending, Option.map_some, Option.getD_some, Sse.restart, hlist,
        List.length_cons]
      omega
    simp only [filterMap_firstFrames hcarried, decide_eq_true hless]
    exact .dropped _ hop hdue hlist hretry.1 hretry.2
  · have hretry : se.ackRetry = maxRetryTimes := by
      have := hsound.ackRetry_le
      omega
    have hfront := tryLowerSend_front e.now { se with
      idleTimeout := e.now + idleTimeout, dataRetry := se.dataRetry + 1, isWaiting := false,
      ackRetry := 0 } hne rfl
    have hwait : se.isWaiting = true := hsound.waiting.2 hne
    rw [heq.trans hfront]
    simp only [filterMap_firstFrames hsound.carried, pending, Option.map_some,
      Option.getD_some, Nat.lt_irrefl, decide_false]
    have hsent : firstSent se.pktList = [.data] := by
      rw [firstSent, hlist]
      rfl
    rw [hsent, ← hwait]
    exact .resent _ hop hdue hne hretry h2

lemma sseChange_procTimer (hop : e.op = .procTimer) {o : Option Sse}
    (h : ∀ se, o = some se → SseSound k se) :
    SseChange k e o (stepSse k e o).1 (e.sendsTo k) (heard k e o) (sends k e o) := by
  have hsends : e.sendsTo k = false := by
    simp only [Event.sendsTo, hop]
  have hstep : stepSse k e o = tickSse e.now (e.stack k) o := by
    simp only [stepSse, hop]
  cases o with
  | none =>
    have hheard : heard k e none = [] := by
      simp only [heard, hop]
    rw [hsends, hheard, sends, hstep]
    exact .absent
  | some se =>
    have hsound := h se rfl
    have hheard : heard k e (some se) = if se.due e.now = true then
        [.timeout (decide (pending (stepSse k e (some se)).1 < pending (some se)))] else [] := by
      simp only [heard, hop]
    rw [hsends, hheard, sends, hstep]
    by_cases hdue : se.due e.now = true
    · rw [if_pos hdue, tickSse_due hdue (hsound.ne_nil_of_due hdue)]
      exact sseChange_timeout hop hsound hdue
    · rw [if_neg hdue, tickSse_not_due _ hdue]
      split_ifs
      · exact .freed hop (Bool.not_eq_true _ ▸ hdue)
      · exact .kept se.idleTimeout fun _ => Bool.not_eq_true _ ▸ hdue

/-- **One event and one session.** -/
lemma sseChange_stepSse (k : UInt8) (e : Event) {o : Option Sse}
    (h : ∀ se, o = some se → SseSound k se) :
    SseChange k e o (stepSse k e o).1 (e.sendsTo k) (heard k e o) (sends k e o) := by
  cases hop : e.op with
  | upperSend smac dmac msg => exact sseChange_upperSend hop h
  | lowerPut raw => exact sseChange_lowerPut hop h
  | procTimer => exact sseChange_procTimer hop h

/-! ## Runs -/

lemma sseSound_restart (h : SseSound k se) {pkts : List SendNode} (hpkts : pkts <:+ se.pktList)
    (hseqs : ∀ (i : ℕ) (h : i < pkts.length),
      pkts[i].mh.seq = se.seq - UInt8.ofNat (pkts.length - i)) (now : ℤ) :
    SseSound k (se.restart now pkts) where
  waiting := by cases pkts <;> simp [Sse.restart]
  empty hnil := by
    have hpkts' : pkts = [] := hnil
    subst hpkts'
    exact ⟨rfl, rfl, rfl⟩
  dataRetry_le := Nat.zero_le _
  ackRetry_le := Nat.zero_le _
  seqs := hseqs
  carried := h.carried.suffix hpkts

lemma sseSound_tail (h : SseSound k se) {pkt : SendNode} {pkts : List SendNode}
    (hlist : se.pktList = pkt :: pkts) (now : ℤ) : SseSound k (se.restart now pkts) := by
  refine sseSound_restart h (by rw [hlist]; exact List.suffix_cons pkt pkts) ?_ now
  have := h.seqs
  simp only [hlist] at this
  exact seqs_tail this

lemma carried_append (h : SseSound k se) {pkt : SendNode} (hnext : NextPacket k se pkt) :
    Carried k (se.pktList ++ [pkt]) ∧
      ∀ (i : ℕ) (h : i < (se.pktList ++ [pkt]).length), (se.pktList ++ [pkt])[i].mh.seq =
        se.seq + 1 - UInt8.ofNat ((se.pktList ++ [pkt]).length - i) := by
  obtain ⟨smac, p, hpkt, hseq⟩ := hnext
  refine ⟨fun pkt' hpkt' => ?_, seqs_append h.seqs (by rw [hpkt.mh_seq, hseq])⟩
  rcases List.mem_append.1 hpkt' with hold | hnew
  · exact h.carried pkt' hold
  · rw [List.mem_singleton.1 hnew]
    exact ⟨smac, p, hpkt⟩

lemma SseChange.sound {o o' : Option Sse} {accepts : Bool} {hs ss : List Happening}
    (hchange : SseChange k e o o' accepts hs ss) (h : ∀ se, o = some se → SseSound k se) :
    ∀ se, o' = some se → SseSound k se := by
  rintro se' hse'
  cases hchange with
  | absent => cases hse'
  | freed => cases hse'
  | kept t =>
    cases hse'
    exact (h _ rfl).touch t
  | @started _ se pkt _ hbase hnil hnext =>
    cases hse'
    have hsound : SseSound k se := by
      rcases hbase with ⟨-, rfl⟩ | ⟨se0, t, ho, rfl⟩
      · exact sseSound_createSse _
      · exact (h se0 ho).touch t
    obtain ⟨hcarried, hseqs⟩ := carried_append hsound hnext
    rw [hnil] at hcarried
    simp only [hnil, List.nil_append] at hseqs
    exact ⟨by simp [Sse.restart], by simp [Sse.restart], Nat.zero_le _, Nat.zero_le _, hseqs,
      hcarried⟩
  | appended t _ hne hnext =>
    cases hse'
    obtain ⟨hcarried, hseqs⟩ := carried_append (h _ rfl) hnext
    have hwait := (h _ rfl).waiting.2 hne
    exact ⟨by simp [hwait], by simp, (h _ rfl).dataRetry_le, (h _ rfl).ackRetry_le, hseqs, hcarried⟩
  | acked t _ hlist =>
    cases hse'
    exact (sseSound_tail (h _ rfl) hlist e.now).touch t
  | partAcked t _ hne _ =>
    cases hse'
    exact ⟨(h _ rfl).waiting, fun hnil => absurd hnil hne, (h _ rfl).dataRetry_le, Nat.zero_le _,
      (h _ rfl).seqs, (h _ rfl).carried⟩
  | asked t _ _ hne hretry =>
    cases hse'
    exact ⟨(h _ rfl).waiting, fun hnil => absurd hnil hne, (h _ rfl).dataRetry_le, hretry,
      (h _ rfl).seqs, (h _ rfl).carried⟩
  | resent t _ _ hne _ hretry =>
    cases hse'
    exact ⟨(h _ rfl).waiting, fun hnil => absurd hnil hne, hretry, Nat.zero_le _,
      (h _ rfl).seqs, (h _ rfl).carried⟩
  | dropped t _ _ hlist _ _ =>
    cases hse'
    exact (sseSound_tail (h _ rfl) hlist e.now).touch t

end

/-- **The send sessions of every run**, whatever the clock does. -/
lemma sseSound_run (es : List Event) : ∀ k se, (run es).sse k = some se → SseSound k se := by
  refine run_induction (fun s => ∀ k se, s.sse k = some se → SseSound k se) (P := fun _ => True)
    ?_ ?_ es (by simp)
  · intro k se hse
    simp [splitInit] at hse
  · intro s e _ h k
    rw [(sessions_step s e).sse]
    exact (sseChange_stepSse k e (h k)).sound (h k)

/-- What an event of a run does to the session of `k`. -/
lemma sseChange_run (es : List Event) (e : Event) (k : UInt8) :
    SseChange k e ((run es).sse k) ((run (es ++ [e])).sse k) (e.sendsTo k)
      (heard k e ((run es).sse k)) (sends k e ((run es).sse k)) := by
  rw [run_concat, (sessions_step _ e).sse]
  exact sseChange_stepSse k e (sseSound_run es k)

end Ipcf
