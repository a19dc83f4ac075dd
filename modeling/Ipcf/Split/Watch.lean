import Ipcf.Split.ReceiveInvariant

/-!
# What a receiver may do whatever it is sent

An observer follows one sender: it notes the header of the latest DATA frame that was accepted from
it, and the messages that were appended to `upper_recv_list` since (`Watch`).  The frames are
arbitrary, so nothing can be said about what the messages are; but as long as no header announces
more than 27 slices hold, there is at most one message for each header, it has the announced length
and checksum, and the sender is not told that a message is complete before it was appended.

The invariant that carries this (`WatchedSe`) ties the session to the notes: a session is
completed exactly when its message was appended, and a full bitmap means that the message was
appended or that its checksum was wrong, in which case no acknowledgement is sent.
-/

namespace Ipcf

/-! ## The observer -/

/-- The header of the latest DATA frame of a sender, and the messages appended since. -/
structure Watch where
  header : Option MsgHdr
  appended : List Bytes

/-- The messages that the event appends to `upper_recv_list`. -/
def Split.appends (s : Split) (e : Event) : List Bytes :=
  (s.step e).upperRecvList.drop s.upperRecvList.length

/-- What the observer of `k` notes when the event happens in the state `s`. -/
def Watch.step (k : UInt8) (s : Split) (w : Watch) (e : Event) : Watch :=
  match e.op with
  | .lowerPut raw =>
    match accept raw with
    | some (.data fh mh _) => if fh.src = k then ⟨some mh, s.appends e⟩ else w
    | some a => if a.src = k then ⟨w.header, w.appended ++ s.appends e⟩ else w
    | none => w
  | _ => w

/-- The notes of the observer of `k` after a run. -/
def watch (k : UInt8) (es : List Event) : Watch :=
  (es.foldl (fun r e => (r.1.step e, r.2.step k r.1 e)) (splitInit, ⟨none, []⟩)).2

@[simp] lemma watch_nil (k : UInt8) : watch k [] = ⟨none, []⟩ := rfl

@[simp] lemma watch_concat (k : UInt8) (es : List Event) (e : Event) :
    watch k (es ++ [e]) = (watch k es).step k (run es) e := by
  have hrun := foldl_observer Split.step (fun s w e => Watch.step k s w e) es splitInit ⟨none, []⟩
  rw [watch, List.foldl_append, List.foldl_cons, List.foldl_nil, hrun]
  rfl

/-- What the notes say: at most one message for the header, of its length and its checksum. -/
structure Watch.Sound (w : Watch) : Prop where
  once : w.appended.length ≤ 1
  faithful : ∀ m ∈ w.appended, ∃ mh, w.header = some mh ∧ m.length = mh.len.toNat ∧
    csum32 m = mh.dCsum

/-- The sender that the frame tells its message to be complete. -/
def ackedSrc (f : Bytes) : Option UInt8 :=
  match FrmHdr.read (recvBuf f) with
  | some (fh, _) => if fh.type = frameTypeAcka then some fh.dst else none
  | none => none

lemma ackedSrc_of_senderType {f : Bytes} (h : SenderType f) : ackedSrc f = none := by
  unfold ackedSrc
  rw [SenderType, frameType] at h
  cases hread : FrmHdr.read (recvBuf f) with
  | none => rfl
  | some r =>
    obtain ⟨fh, rest⟩ := r
    rw [hread] at h
    simp only [Option.map_some, Option.some.injEq] at h
    have htype : fh.type ≠ frameTypeAcka := by
      rcases h with h | h | h <;> rw [h] <;> decide
    simp only [if_neg htype]

/-- A full acknowledgement goes to the sender of the frame that is answered, and only when the
completion test holds and no checksum was wrong. -/
lemma ackedSrc_sendAck {stack : Stack} {dst src k : UInt8} {se : Rse} {f : Bytes}
    (hf : f ∈ (sendAck stack dst src se).1) (hk : ackedSrc f = some k) :
    k = dst ∧ se.nak = false ∧ testAllBitsSet se.bitmap se.nSlices = true := by
  have hlen := length_missing_le se.bitmap se.nSlices
  have hn := se.nSlices.toNat_lt
  have hread : ∀ (type : UInt8) {data : Bytes}, data.length ≤ 256 →
      ackedSrc (framed (ackFrame dst src type 0 se.seqExp data)) =
        if type = frameTypeAcka then some dst else none := by
    intro type data hdata
    rw [ackedSrc, recvBuf_framed (escapedLen_ackFrame_le _ _ _ _ _ hdata), ackFrame,
      List.append_assoc, FrmHdr.read_bytes_append]
    rfl
  rw [sendAck_eq] at hf
  split_ifs at hf with hnak htest hmissing
  · simp at hf
  · rw [List.mem_singleton.1 hf, hread _ (by simp), if_pos rfl] at hk
    exact ⟨(Option.some.inj hk).symm, by simpa using hnak, htest⟩
  · simp at hf
  · rw [List.mem_singleton.1 hf, hread _ (by omega), if_neg (by decide)] at hk
    cases hk

/-! ## The invariant -/

/-- The session agrees with the notes about its sender. -/
structure WatchedSe (w : Watch) (se : Rse) : Prop where
  safe : RseSafe se
  header : ∃ mh, w.header = some mh ∧ mh.len = se.msglen ∧ mh.dCsum = se.dCsum
  completed : se.completed = true ↔ w.appended ≠ []
  full : testAllBitsSet se.bitmap se.nSlices = true → se.nak = true ∨ se.completed = true

/-- The notes are sound and agree with the session, if there is one. -/
structure Watched (w : Watch) (o : Option Rse) : Prop where
  sound : w.Sound
  session : ∀ se, o = some se → WatchedSe w se

/-- What a handler has done to a session fits to the notes, the messages it submitted
included, and it has acknowledged nothing but an appended message. -/
structure WatchedCall (w : Watch) (k : UInt8) (r : Received) : Prop where
  watched : Watched ⟨w.header, w.appended ++ r.submitted⟩ (some r.se)
  acked : ∀ f ∈ r.queued, ∀ i, ackedSrc f = some i → i = k ∧ w.appended ++ r.submitted ≠ []

section

variable {w : Watch} {stack : Stack} {fh : FrmHdr} {mh : MsgHdr} {data : Bytes} {se : Rse}

/-- A session whose message is still awaited. -/
structure AwaitedSe (w : Watch) (se : Rse) : Prop where
  safe : RseSafe se
  header : ∃ mh, w.header = some mh ∧ mh.len = se.msglen ∧ mh.dCsum = se.dCsum
  appended : w.appended = []
  completed : se.completed = false

lemma AwaitedSe.patchRse (h : AwaitedSe w se) (data : Bytes) (n : ℕ) :
    AwaitedSe w (patchRse se data n).1 where
  safe := rseSafe_patchRse h.safe data n
  header := by simpa using h.header
  appended := h.appended
  completed := by simpa using h.completed

/-- The data of a safe session, cut at the length of the message, is the message. -/
lemma dataNode_of_safe (h : RseSafe se) :
    dataNode se.data.cells se.msglen.toNat = se.data.read 0 se.msglen.toNat ∧
      (se.data.read 0 se.msglen.toNat).length = se.msglen.toNat := by
  have hle : se.msglen.toNat ≤ linkMtu := inBounds_of_safe h (a := .msg se.msglen.toNat) (.inr rfl)
  refine ⟨?_, Buffer.length_read _ (by rw [Nat.zero_add]; exact hle)⟩
  rw [dataNode, if_pos hle, Buffer.read, List.drop_zero]

/-- The end of a message: it is submitted if its checksum is right, and then acknowledged; else
nothing leaves the session. -/
lemma watchedCall_finishRse (h : AwaitedSe w se) :
    WatchedCall w fh.src (finishRse stack fh se) := by
  obtain ⟨mh, hheader, hlen, hcsum⟩ := h.header
  obtain ⟨hnode, hmsglen⟩ := dataNode_of_safe h.safe
  rcases finishRse_cases stack fh se with ⟨-, hse, hq, hs⟩ | ⟨hok, hse, hq, hs⟩
  · refine ⟨⟨⟨?_, ?_⟩, ?_⟩, ?_⟩
    · simp [hs, h.appended]
    · simp [hs, h.appended]
    · rintro _ ⟨⟩
      rw [hse, hs, h.appended]
      exact ⟨⟨h.safe.nSlices, h.safe.le⟩, ⟨mh, hheader, hlen, hcsum⟩, by simp [h.completed],
        fun _ => .inl rfl⟩
    · simp [hq]
  · rw [hnode] at hs
    refine ⟨⟨⟨?_, ?_⟩, ?_⟩, ?_⟩
    · simp [hs, h.appended]
    · intro m hm
      rw [hs, h.appended, List.nil_append, List.mem_singleton] at hm
      exact ⟨mh, hheader, by rw [hm, hmsglen, hlen], by rw [hm, hok, hcsum]⟩
    · rintro _ ⟨⟩
      rw [hse, hs]
      exact ⟨⟨h.safe.nSlices, h.safe.le⟩, ⟨mh, hheader, hlen, hcsum⟩, by simp, fun _ => .inr rfl⟩
    · intro f hf i hi
      rw [hq] at hf
      exact ⟨(ackedSrc_sendAck hf hi).1, by simp [hs]⟩

/-- A session that is not complete goes on waiting. -/
lemma AwaitedSe.watched (h : AwaitedSe w se)
    (hfull : testAllBitsSet se.bitmap se.nSlices = false) : Watched w (some se) where
  sound := ⟨by simp [h.appended], by simp [h.appended]⟩
  session := by
    rintro _ ⟨⟩
    exact ⟨h.safe, h.header, by simp [h.completed, h.appended], by simp [hfull]⟩

lemma watchedCall_procDataRse (hfits : mh.len.toNat ≤ maxSliceNum * sliceDataLen)
    (hdata : data.length ≤ linkMtu) :
    WatchedCall ⟨some mh, []⟩ fh.src (procDataRse stack fh mh data se) := by
  have hopen : AwaitedSe ⟨some mh, []⟩ (openRse mh se) :=
    ⟨rseSafe_openRse hfits se, ⟨mh, rfl, rfl, rfl⟩, rfl, rfl⟩
  obtain ⟨p, hp, -, ⟨-, hse, hq, hs⟩ | ⟨htest, hse, hq, hs⟩⟩ :=
    procDataRse_cases stack fh mh se hdata
  · have hdone : WatchedCall ⟨some mh, []⟩ fh.src (finishRse stack fh p.1) := by
      rw [hp]
      exact watchedCall_finishRse (hopen.patchRse _ _)
    exact ⟨by rw [hse, hs]; exact hdone.watched, by rw [hq, hs]; exact hdone.acked⟩
  · have hwait : Watched ⟨some mh, []⟩ (some p.1) := by
      rw [hp] at htest ⊢
      exact (hopen.patchRse _ _).watched htest
    refine ⟨by rw [hse, hs]; exact hwait, ?_⟩
    intro f hf i hi
    rw [hq] at hf
    rw [(ackedSrc_sendAck hf hi).2.2] at htest
    cases htest

lemma Watched.watchedCall_same (h : Watched w (some se)) (k : UInt8) :
    WatchedCall w k { se := se, queued := [], submitted := [], accesses := [] } :=
  ⟨by simpa using h, by simp⟩

lemma watchedCall_procPatchRse (h : Watched w (some se)) (hdata : data.length ≤ linkMtu) :
    WatchedCall w fh.src (procPatchRse stack fh mh data se) := by
  have hsession := h.session se rfl
  rcases procPatchRse_cases stack fh mh se hdata with
    ⟨-, heq⟩ | ⟨-, hpending, p, hp, -, ⟨-, hse, hq, hs⟩ | ⟨htest, hse, hq, hs⟩⟩
  · rw [heq]
    exact h.watchedCall_same fh.src
  · have hwait : AwaitedSe w se :=
      ⟨hsession.safe, hsession.header,
        not_not.1 fun hne => by simp [hsession.completed.2 hne] at hpending, hpending⟩
    have hdone : WatchedCall w fh.src (finishRse stack fh p.1) := by
      rw [hp]
      exact watchedCall_finishRse (hwait.patchRse _ _)
    exact ⟨by rw [hse, hs]; exact hdone.watched, by rw [hq, hs]; exact hdone.acked⟩
  · have hwait : AwaitedSe w se :=
      ⟨hsession.safe, hsession.header,
        not_not.1 fun hne => by simp [hsession.completed.2 hne] at hpending, hpending⟩
    have hstill : Watched w (some p.1) := by
      rw [hp] at htest ⊢
      exact (hwait.patchRse _ _).watched htest
    exact ⟨by simpa [hse, hs] using hstill, by simp [hq]⟩

lemma watchedCall_procAckReqRse (h : Watched w (some se)) :
    WatchedCall w fh.src (procAckReqRse stack fh mh se) := by
  unfold procAckReqRse
  split_ifs
  · refine ⟨by simpa using h, ?_⟩
    intro f hf i hi
    obtain ⟨hdst, hnak, htest⟩ := ackedSrc_sendAck hf hi
    have hsession := h.session se rfl
    have hdone : se.completed = true := (hsession.full htest).resolve_left (by simp [hnak])
    exact ⟨hdst, by simpa using hsession.completed.1 hdone⟩
  · exact h.watchedCall_same fh.src

end

/-! ## One event -/

/-- A session that is looked up is the same but for its timer. -/
lemma Watched.touch {w : Watch} {se : Rse} (h : Watched w (some se)) (t : ℤ) :
    Watched w (some { se with idleTimeout := t }) where
  sound := h.sound
  session := by
    rintro _ ⟨⟩
    have hse := h.session se rfl
    exact ⟨⟨hse.safe.nSlices, hse.safe.le⟩, hse.header, hse.completed, hse.full⟩

/-- The observers of all senders agree with the state. -/
def WatchInv (s : Split) (w : UInt8 → Watch) : Prop := ∀ k, Watched (w k) (s.rse k)

/-- What is queued tells no sender but of an appended message. -/
def AckedAppended (s : Split) (w : UInt8 → Watch) (e : Event) : Prop :=
  ∃ queued, (s.step e).lowerSendList = s.lowerSendList ++ queued ∧
    ∀ f ∈ queued, ∀ k, ackedSrc f = some k → ((w k).step k s e).appended ≠ []

section

variable {s : Split} {w : UInt8 → Watch} {e : Event}

lemma appends_received {k : UInt8} {r : Received} (hstep : s.step e = s.received k r) :
    s.appends e = r.submitted := by
  rw [Split.appends, hstep, received_upperRecvList, List.drop_left]

lemma Watch.step_data {k : UInt8} {raw : Bytes} {fh : FrmHdr} {mh : MsgHdr} {data : Bytes}
    (hop : e.op = .lowerPut raw) (haccept : accept raw = some (.data fh mh data)) (w : Watch) :
    w.step k s e = if fh.src = k then ⟨some mh, s.appends e⟩ else w := by
  rw [Watch.step, hop]
  simp only [haccept]

lemma Watch.step_other {k : UInt8} {raw : Bytes} {a : Accepted} (hop : e.op = .lowerPut raw)
    (haccept : accept raw = some a) (hdata : ∀ fh mh data, a ≠ .data fh mh data) (w : Watch) :
    w.step k s e = if a.src = k then ⟨w.header, w.appended ++ s.appends e⟩ else w := by
  rw [Watch.step, hop]
  cases a with
  | data fh mh data => exact absurd rfl (hdata fh mh data)
  | ackReq fh mh => simp only [haccept]
  | patch fh mh data => simp only [haccept]
  | ackAll fh mh => simp only [haccept]
  | ackPart fh mh data => simp only [haccept]

/-- An event that appends nothing and is no DATA frame leaves the notes as they are. -/
lemma Watch.step_none {k : UInt8}
    (hdata : ∀ raw fh mh data, e.op = .lowerPut raw → accept raw ≠ some (.data fh mh data))
    (hupper : (s.step e).upperRecvList = s.upperRecvList) (w : Watch) : w.step k s e = w := by
  have happends : s.appends e = [] := by rw [Split.appends, hupper, List.drop_length]
  cases hop : e.op with
  | upperSend smac dmac msg => rw [Watch.step, hop]
  | procTimer => rw [Watch.step, hop]
  | lowerPut raw =>
    cases haccept : accept raw with
    | none =>
      rw [Watch.step, hop]
      simp only [haccept]
    | some a =>
      rw [Watch.step_other hop haccept
        (fun fh mh data ha => hdata raw fh mh data hop (ha ▸ haccept)),
        happends, List.append_nil, ite_self]

/-- A handler that acts on the session of `k`, when the notes about `k` become `w'`
before what it submits is added. -/
lemma watched_received (h : WatchInv s w) {k : UInt8} {r : Received} (w' : Watch)
    (hstep : s.step e = s.received k r) (hcall : WatchedCall w' k r)
    (hself : (w k).step k s e = ⟨w'.header, w'.appended ++ s.appends e⟩)
    (hother : ∀ i, i ≠ k → (w i).step i s e = w i) :
    WatchInv (s.step e) (fun i => (w i).step i s e) ∧ AckedAppended s w e := by
  rw [appends_received hstep] at hself
  constructor
  · intro i
    change Watched ((w i).step i s e) _
    rw [hstep, received_rse]
    by_cases hi : i = k
    · subst hi
      rw [if_pos rfl, hself]
      exact hcall.watched
    · rw [if_neg hi, hother i hi]
      exact h i
  · refine ⟨r.queued, by rw [hstep, received_lowerSendList], ?_⟩
    intro f hf i hi
    obtain ⟨rfl, hne⟩ := hcall.acked f hf i hi
    rw [hself]
    exact hne

lemma watched_step (hfits : HeaderFits e) (hcarried : CarriedInv s) (h : WatchInv s w) :
    WatchInv (s.step e) (fun k => (w k).step k s e) ∧ AckedAppended s w e := by
  cases recvStep s e with
  | none hdata hupper _ hrse hqueued =>
    constructor
    · intro k
      change Watched ((w k).step k s e) _
      rw [Watch.step_none hdata hupper]
      rcases hrse k with hk | hk <;> rw [hk]
      · exact h k
      · exact ⟨(h k).sound, by simp⟩
    · obtain ⟨queued, hlist, htype⟩ := hqueued hcarried
      refine ⟨queued, hlist, fun f hf k hk => ?_⟩
      rw [ackedSrc_of_senderType (htype f hf)] at hk
      cases hk
  | @data raw fh mh data hop haccept hstep =>
    refine watched_received h ⟨some mh, []⟩ hstep
      (watchedCall_procDataRse (hfits _ _ _ _ hop haccept) (accept_length haccept)) ?_ ?_
    · rw [Watch.step_data hop haccept, if_pos rfl]
      rfl
    · intro i hi
      rw [Watch.step_data hop haccept, if_neg (Ne.symm hi)]
  | @ackReq raw fh mh se hop haccept hget hstep =>
    have hold : Watched (w fh.src) (some se) := hget ▸ h fh.src
    refine watched_received h (w fh.src) hstep (watchedCall_procAckReqRse (hold.touch _)) ?_ ?_
    · rw [Watch.step_other hop haccept (by simp)]
      exact if_pos rfl
    · intro i hi
      rw [Watch.step_other hop haccept (by simp)]
      exact if_neg (Ne.symm hi)
  | @patch raw fh mh data se hop haccept hget hstep =>
    have hold : Watched (w fh.src) (some se) := hget ▸ h fh.src
    refine watched_received h (w fh.src) hstep
      (watchedCall_procPatchRse (hold.touch _) (accept_length haccept)) ?_ ?_
    · rw [Watch.step_other hop haccept (by simp)]
      exact if_pos rfl
    · intro i hi
      rw [Watch.step_other hop haccept (by simp)]
      exact if_neg (Ne.symm hi)

end

lemma watchInv_run (es : List Event) (hfits : ∀ e ∈ es, HeaderFits e) :
    WatchInv (run es) fun k => watch k es := by
  induction es using List.reverseRecOn with
  | nil =>
    intro k
    exact ⟨⟨by simp, by simp⟩, by simp [splitInit]⟩
  | append_singleton es e ih =>
    have hold := ih fun e' he' => hfits e' (List.mem_append_left _ he')
    have hnew := (watched_step (hfits e (by simp)) (carried_run es) hold).1
    simp only [watch_concat, run_concat]
    exact hnew

/-- What an event appends, it appends for the sender of an accepted frame. -/
lemma appends_cases (s : Split) (e : Event) :
    (s.step e).upperRecvList = s.upperRecvList ++ s.appends e ∧
      (s.appends e ≠ [] → ∃ raw a, e.op = .lowerPut raw ∧ accept raw = some a ∧
        ∀ w : Watch, s.appends e <:+ (w.step a.src s e).appended) := by
  have hreceived : ∀ {k : UInt8} {r : Received}, s.step e = s.received k r →
      (s.step e).upperRecvList = s.upperRecvList ++ s.appends e := by
    intro k r hstep
    rw [appends_received hstep, hstep, received_upperRecvList]
  cases recvStep s e with
  | none _ hupper _ _ _ =>
    have happends : s.appends e = [] := by rw [Split.appends, hupper, List.drop_length]
    exact ⟨by rw [hupper, happends, List.append_nil], fun hne => absurd happends hne⟩
  | @data raw fh mh data hop haccept hstep =>
    refine ⟨hreceived hstep, fun _ => ⟨_, _, hop, haccept, fun w => ?_⟩⟩
    have hsrc : fh.src = (Accepted.data fh mh data).src := rfl
    rw [Watch.step_data hop haccept, if_pos hsrc]
  | ackReq hop haccept _ hstep =>
    refine ⟨hreceived hstep, fun _ => ⟨_, _, hop, haccept, fun w => ?_⟩⟩
    rw [Watch.step_other hop haccept (by simp), if_pos rfl]
    exact List.suffix_append _ _
  | patch hop haccept _ hstep =>
    refine ⟨hreceived hstep, fun _ => ⟨_, _, hop, haccept, fun w => ?_⟩⟩
    rw [Watch.step_other hop haccept (by simp), if_pos rfl]
    exact List.suffix_append _ _

/-- **A receiver against arbitrary input.** Whatever a receiver is given, as long as no accepted
header announces too much: since the latest header of a sender at most one message was appended
for it, of the length and the checksum announced there; only accepted frames make it append a
message; and an event tells a sender that its message is complete only when that message has been
appended, by the event itself or before. -/
theorem receive_safely (es : List Event) (e : Event) (hfits : ∀ e' ∈ es ++ [e], HeaderFits e') :
    (∀ k, (watch k es).Sound) ∧
      (∃ appended, (run (es ++ [e])).upperRecvList = (run es).upperRecvList ++ appended ∧
        (appended ≠ [] → ∃ raw a, e.op = .lowerPut raw ∧ accept raw = some a ∧
          appended <:+ (watch a.src (es ++ [e])).appended)) ∧
      ∃ queued, (run (es ++ [e])).lowerSendList = (run es).lowerSendList ++ queued ∧
        ∀ f ∈ queued, ∀ k, ackedSrc f = some k → (watch k (es ++ [e])).appended ≠ [] := by
  have hinv := watchInv_run es fun e' he' => hfits e' (List.mem_append_left _ he')
  obtain ⟨hupper, happends⟩ := appends_cases (run es) e
  refine ⟨fun k => (hinv k).sound, ⟨(run es).appends e, ?_, ?_⟩, ?_⟩
  · rw [run_concat, hupper]
  · intro hne
    obtain ⟨raw, a, hop, haccept, hsuffix⟩ := happends hne
    refine ⟨raw, a, hop, haccept, ?_⟩
    rw [watch_concat]
    exact hsuffix _
  · simp only [run_concat, watch_concat]
    exact (watched_step (hfits e (by simp)) (carried_run es) hinv).2

/-- A header that announces one slice, then the slice: the message is appended once, and the
acknowledgement is queued by the same event. -/
theorem receive_safely_once :
    let slice := fillSliceK 0 [104, 105]
    let header := framed ((frmHdr 1 2 frameTypeData 0 frmMsgHdrLen).bytes ++
      (msgHdr (csum32 [104, 105]) 2 0 []).bytes)
    let patch := framed ((frmHdr 1 2 frameTypePatch 0 (frmMsgHdrLen + sliceLen)).bytes ++
      (msgHdr 0 1 0 []).bytes ++ slice)
    let es := [⟨1, default, .lowerPut header⟩]
    let e := ⟨2, default, .lowerPut patch⟩
    (run (es ++ [e])).upperRecvList = [[104, 105]] ∧
      ∃ queued, (run (es ++ [e])).lowerSendList = (run es).lowerSendList ++ queued ∧
        ∀ f ∈ queued, ∀ k, ackedSrc f = some k → (watch k (es ++ [e])).appended ≠ [] := by
  intro slice header patch es e
  exact ⟨by decide +kernel, (receive_safely es e (by decide +kernel)).2.2⟩

end Ipcf
