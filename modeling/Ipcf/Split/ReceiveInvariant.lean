import Ipcf.Split.Queue

/-!
# What holds of every receive session

The receive path takes any bytes.  `RecvStep` is all that an event can do to it: nothing, save that
the timer frees sessions, or one of the three handlers acts on the session of the sender.

Whether the accesses stay inside the arrays of the session is a matter of one number, the length
that the header of a DATA frame announces.  The code compares the number of slices with
`MAX_SLICE_NUM`, but the branch is empty as it is built, and the number is cut to 8 bits before;
so `receive_safe_iff` says that a run is safe throughout exactly when no accepted header
announces more than 27 slices hold.
-/

namespace Ipcf

/-! ## What an event does to the receive path -/

/-- The ways an event can act on the receive path. -/
inductive RecvStep (s : Split) (e : Event) : Prop
  | none (notData : ∀ raw fh mh data, e.op = .lowerPut raw → accept raw ≠ some (.data fh mh data))
      (upper : (s.step e).upperRecvList = s.upperRecvList)
      (accesses : (s.step e).accesses = s.accesses)
      (rse : ∀ k, (s.step e).rse k = s.rse k ∨ (s.step e).rse k = Option.none)
      (queued : CarriedInv s → ∃ queued, (s.step e).lowerSendList = s.lowerSendList ++ queued ∧
        ∀ f ∈ queued, SenderType f)
  | data {raw : Bytes} {fh : FrmHdr} {mh : MsgHdr} {data : Bytes} (op : e.op = .lowerPut raw)
      (accepted : accept raw = some (.data fh mh data))
      (step : s.step e = s.received fh.src (procDataRse (e.stack 0) fh mh data
        ((getRse e.now fh.src s).getD (resetRse e.now))))
  | ackReq {raw : Bytes} {fh : FrmHdr} {mh : MsgHdr} {se : Rse} (op : e.op = .lowerPut raw)
      (accepted : accept raw = some (.ackReq fh mh)) (session : s.rse fh.src = some se)
      (step : s.step e = s.received fh.src
        (procAckReqRse (e.stack 0) fh mh { se with idleTimeout := e.now + idleTimeout }))
  | patch {raw : Bytes} {fh : FrmHdr} {mh : MsgHdr} {data : Bytes} {se : Rse}
      (op : e.op = .lowerPut raw) (accepted : accept raw = some (.patch fh mh data))
      (session : s.rse fh.src = some se)
      (step : s.step e = s.received fh.src
        (procPatchRse (e.stack 0) fh mh data { se with idleTimeout := e.now + idleTimeout }))

/-- An event of the sending side, which queues what a sender queues. -/
lemma recvStep_of_eq {s s' : Split} {e : Event}
    (notData : ∀ raw fh mh data, e.op = .lowerPut raw → accept raw ≠ some (.data fh mh data))
    (hstep : s.step e = s') (hupper : s'.upperRecvList = s.upperRecvList)
    (haccesses : s'.accesses = s.accesses) (hrse : s'.rse = s.rse)
    (hqueued : CarriedInv s → ∃ queued, s'.lowerSendList = s.lowerSendList ++ queued ∧
      ∀ f ∈ queued, SenderType f) : RecvStep s e :=
  .none notData (by rw [hstep, hupper]) (by rw [hstep, haccesses])
    (fun k => .inl (by rw [hstep, hrse])) (by rw [hstep]; exact hqueued)

lemma recvStep_same {s : Split} {e : Event}
    (notData : ∀ raw fh mh data, e.op = .lowerPut raw → accept raw ≠ some (.data fh mh data))
    (hstep : s.step e = s) : RecvStep s e :=
  recvStep_of_eq notData hstep rfl rfl rfl fun _ => ⟨[], by simp, by simp⟩

/-- A frame that is accepted goes to its handler. -/
lemma recvStep_accepted {s : Split} {e : Event} {raw : Bytes} {a : Accepted}
    (hop : e.op = .lowerPut raw) (haccept : accept raw = some a) : RecvStep s e := by
  have hstep := step_accepted (s := s) hop haccept
  have hother : (∀ fh mh data, a ≠ .data fh mh data) →
      ∀ raw' fh mh data, e.op = .lowerPut raw' → accept raw' ≠ some (.data fh mh data) := by
    intro hne raw' fh mh data hop' hdata
    obtain rfl : raw = raw' := Op.lowerPut.inj (hop.symm.trans hop')
    exact hne fh mh data (Option.some.inj (haccept.symm.trans hdata))
  cases a with
  | data fh mh data => exact .data hop haccept hstep
  | ackReq fh mh =>
    rw [act_ackReq] at hstep
    cases hget : s.rse fh.src with
    | none =>
      rw [hget] at hstep
      exact recvStep_same (hother (by simp)) hstep
    | some se =>
      rw [hget] at hstep
      exact .ackReq hop haccept hget hstep
  | patch fh mh data =>
    rw [act_patch] at hstep
    cases hget : s.rse fh.src with
    | none =>
      rw [hget] at hstep
      exact recvStep_same (hother (by simp)) hstep
    | some se =>
      rw [hget] at hstep
      exact .patch hop haccept hget hstep
  | ackAll fh mh =>
    rw [act_ackAll] at hstep
    cases hget : s.sse fh.src with
    | none =>
      rw [hget] at hstep
      exact recvStep_same (hother (by simp)) hstep
    | some se =>
      rw [hget] at hstep
      refine recvStep_of_eq (hother (by simp)) hstep rfl rfl rfl fun hcarried =>
        ⟨_, rfl, fun f hf => ?_⟩
      have hse : Carried fh.src { se with idleTimeout := e.now + idleTimeout }.pktList :=
        hcarried _ se hget
      exact (isHead_procAckAllSse hse hf).senderType
  | ackPart fh mh data =>
    rw [act_ackPart] at hstep
    cases hget : s.sse fh.src with
    | none =>
      rw [hget] at hstep
      exact recvStep_same (hother (by simp)) hstep
    | some se =>
      rw [hget] at hstep
      refine recvStep_of_eq (hother (by simp)) hstep rfl rfl rfl fun hcarried =>
        ⟨_, rfl, fun f hf => ?_⟩
      have hse := hcarried _ _ hget
      refine senderType_procAckPartSse (k := fh.src) ?_ hf
      exact hse

/-- The timer frees receive sessions or leaves them as they are. -/
lemma procTimer_rse_cases (now : ℤ) (stack : UInt8 → Stack) (s : Split) (k : UInt8) :
    (procTimer now stack s).rse k = s.rse k ∨ (procTimer now stack s).rse k = none := by
  rw [procTimer_rse]
  cases s.rse k with
  | none => exact .inl rfl
  | some se =>
    rw [tickRse]
    split_ifs
    · exact .inr rfl
    · exact .inl rfl

lemma recvStep (s : Split) (e : Event) : RecvStep s e := by
  cases hop : e.op with
  | upperSend smac dmac msg =>
    have hstep := step_upperSend (s := s) hop
    by_cases hmsg : msg = []
    · rw [hmsg, upperSend_nil] at hstep
      exact recvStep_same (by simp [hop]) hstep
    · obtain ⟨se, p, pkt, -, hret, -, -, -⟩ := upperSend_spec e.now (e.stack 0) smac dmac hmsg s
      rw [hret] at hstep
      refine recvStep_of_eq (by simp [hop]) hstep rfl rfl rfl
        fun hcarried => ⟨_, rfl, fun f hf => ?_⟩
      have hnew := carriedInv_step hcarried e dmac _ (by rw [hstep, sent_sse, if_pos rfl])
      rw [tryLowerSend_pktList] at hnew
      exact (isHead_tryLowerSend hnew hf).senderType
  | lowerPut raw =>
    cases haccept : accept raw with
    | none =>
      refine recvStep_same ?_ (step_rejected hop haccept)
      intro raw' fh mh data hop' hdata
      obtain rfl : raw = raw' := Op.lowerPut.inj (hop.symm.trans hop')
      cases haccept.symm.trans hdata
    | some a => exact recvStep_accepted hop haccept
  | procTimer =>
    have hstep := step_procTimer (s := s) hop
    refine .none (by simp [hop]) (by rw [hstep, procTimer_upperRecvList])
      (by rw [hstep, procTimer_accesses])
      (fun k => by rw [hstep]; exact procTimer_rse_cases e.now e.stack s k) fun hcarried =>
        ⟨_, by rw [hstep, procTimer_lowerSendList], fun f hf => ?_⟩
    obtain ⟨k, -, hf⟩ := List.mem_flatMap.1 hf
    cases hget : s.sse k with
    | none =>
      rw [hget] at hf
      simp [tickSse] at hf
    | some se =>
      rw [hget] at hf
      exact senderType_tickSse (hcarried _ _ hget) hf

/-! ## Accesses -/

/-- The access stays inside its array. -/
def Access.InBounds : Access → Prop
  | .copy off len => off + len ≤ linkMtu
  | .word i => i < bitmap32Size
  | .msg len => len ≤ linkMtu

instance : DecidablePred Access.InBounds
  | .copy off len => inferInstanceAs (Decidable (off + len ≤ linkMtu))
  | .word i => inferInstanceAs (Decidable (i < bitmap32Size))
  | .msg len => inferInstanceAs (Decidable (len ≤ linkMtu))

/-- The number of slices of the session is that of its message, and not too large. -/
structure RseSafe (se : Rse) : Prop where
  nSlices : se.nSlices.toNat = sliceCount se.msglen.toNat
  le : se.nSlices.toNat ≤ maxSliceNum

lemma RseSafe.touch {se : Rse} (h : RseSafe se) (t : ℤ) : RseSafe { se with idleTimeout := t } :=
  ⟨h.nSlices, h.le⟩

/-- Everything the receive path has touched was inside the arrays, and its sessions are safe. -/
structure ReceiveSafe (s : Split) : Prop where
  accesses : ∀ a ∈ s.accesses, a.InBounds
  sessions : ∀ k se, s.rse k = some se → RseSafe se

/-- An accepted DATA header announces no more than the slices of a frame can hold. -/
def HeaderFits (e : Event) : Prop :=
  ∀ raw fh mh data, e.op = .lowerPut raw → accept raw = some (.data fh mh data) →
    mh.len.toNat ≤ maxSliceNum * sliceDataLen

/-- The length that the event announces, if it is an accepted DATA frame. -/
def announcedLen (e : Event) : ℕ :=
  match e.op with
  | .lowerPut raw =>
    match accept raw with
    | some (.data _ mh _) => mh.len.toNat
    | _ => 0
  | _ => 0

lemma headerFits_iff (e : Event) : HeaderFits e ↔ announcedLen e ≤ maxSliceNum * sliceDataLen := by
  unfold announcedLen
  constructor
  · intro h
    split
    · split
      · exact h _ _ _ _ ‹_› ‹_›
      · exact Nat.zero_le _
    · exact Nat.zero_le _
  · intro h raw fh mh data hop haccept
    simpa only [hop, haccept] using h

instance : DecidablePred HeaderFits := fun e => decidable_of_iff' _ (headerFits_iff e)

lemma rseSafe_openRse {mh : MsgHdr} (h : mh.len.toNat ≤ maxSliceNum * sliceDataLen) (se : Rse) :
    RseSafe (openRse mh se) := by
  have hle : sliceCount mh.len.toNat ≤ maxSliceNum := by
    simp only [sliceCount, sliceDataLen, maxSliceNum_eq] at *
    omega
  have hn : (announced mh.len).toNat = sliceCount mh.len.toNat := by
    rw [announced, UInt8.toNat_ofNat', maxSliceNum_eq] at *
    omega
  exact ⟨hn, by rw [show (openRse mh se).nSlices = announced mh.len from rfl, hn]; exact hle⟩

lemma sliceLenAt_le (nSlices : UInt8) (msglen : UInt16) (seq : UInt8) :
    sliceLenAt nSlices msglen seq ≤ sliceDataLen := by
  unfold sliceLenAt
  split_ifs
  · exact Nat.le_of_lt (Nat.mod_lt _ (by decide))
  · exact Nat.le_refl _

/-- Storing slices in a safe session stays inside the arrays: even the slice numbered
`n_slices`, which passes the range check, has room. -/
lemma patchRse_accesses_inBounds {se : Rse} (hle : se.nSlices.toNat ≤ maxSliceNum) (data : Bytes)
    (n : ℕ) : ∀ a ∈ (patchRse se data n).2, a.InBounds := by
  have hkeep : ∀ se' j, j < n → se'.nSlices = se.nSlices →
      (cpSliceToRse se' (sliceAt data j)).1.nSlices = se.nSlices := by
    intro se' j _ h
    rcases cpSliceToRse_cases se' (sliceAt data j) with ⟨-, heq⟩ | ⟨-, -, heq⟩ <;> rw [heq] <;>
      exact h
  intro a ha
  obtain ⟨se', j, -, hn, hmem⟩ :=
    (patchRse_induction (P := fun se' => se'.nSlices = se.nSlices) rfl hkeep).2 a ha
  rcases cpSliceToRse_cases se' (sliceAt data j) with ⟨-, heq⟩ | ⟨-, hseq, heq⟩
  · rw [heq] at hmem
    cases hmem
  · rw [heq] at hmem
    have hlen := sliceLenAt_le se'.nSlices se'.msglen (sliceSeq (sliceAt data j))
    rw [hn, maxSliceNum_eq] at *
    rcases List.mem_cons.1 hmem with rfl | hmem
    · simp only [Access.InBounds, sliceDataLen, linkMtu] at *
      omega
    · rw [List.mem_singleton.1 hmem]
      simp only [Access.InBounds, bitmap32Size_eq]
      omega

/-- The other accesses of a handler stay inside as well. -/
lemma inBounds_of_safe {se : Rse} (h : RseSafe se) {a : Access}
    (ha : (∃ x, a = .word x ∧ 32 * x < se.nSlices.toNat) ∨ a = .msg se.msglen.toNat) :
    a.InBounds := by
  have hle := h.le
  have hn := h.nSlices
  rw [maxSliceNum_eq] at hle
  rcases ha with ⟨x, rfl, hx⟩ | rfl
  · simp only [Access.InBounds, bitmap32Size_eq]
    omega
  · simp only [Access.InBounds, sliceCount, sliceDataLen, linkMtu] at *
    omega

lemma rseSafe_patchRse {se : Rse} (h : RseSafe se) (data : Bytes) (n : ℕ) :
    RseSafe (patchRse se data n).1 :=
  ⟨by simpa using h.nSlices, by simpa using h.le⟩

lemma rseSafe_finishRse {se : Rse} (h : RseSafe se) (stack : Stack) (fh : FrmHdr) :
    RseSafe (finishRse stack fh se).se := by
  rcases finishRse_cases stack fh se with ⟨-, heq, -, -⟩ | ⟨-, heq, -, -⟩ <;> rw [heq] <;>
    exact ⟨h.nSlices, h.le⟩

/-- The header of a session after a DATA frame is that of the frame. -/
lemma procDataRse_header (stack : Stack) (fh : FrmHdr) (mh : MsgHdr) {data : Bytes} (se : Rse)
    (hdata : data.length ≤ linkMtu) :
    (procDataRse stack fh mh data se).se.nSlices = announced mh.len ∧
      (procDataRse stack fh mh data se).se.msglen = mh.len ∧
      (procDataRse stack fh mh data se).se.dCsum = mh.dCsum := by
  obtain ⟨p, rfl, -, ⟨-, hse, -, -⟩ | ⟨-, hse, -, -⟩⟩ := procDataRse_cases stack fh mh se hdata
  · rcases finishRse_cases stack fh (patchRse (openRse mh se) data (data.length / sliceLen)).1 with
      ⟨-, heq, -, -⟩ | ⟨-, heq, -, -⟩ <;> rw [hse, heq] <;>
      exact ⟨patchRse_nSlices _ _ _, patchRse_msglen _ _ _, patchRse_dCsum _ _ _⟩
  · rw [hse]
    exact ⟨patchRse_nSlices _ _ _, patchRse_msglen _ _ _, patchRse_dCsum _ _ _⟩

/-- A handler that acts on the session of one key. -/
lemma receiveSafe_received {s : Split} (h : ReceiveSafe s) {k : UInt8} {r : Received}
    (hse : RseSafe r.se) (hacc : ∀ a ∈ r.accesses, a.InBounds) :
    ReceiveSafe (s.received k r) where
  accesses := by
    intro a ha
    rw [received_accesses] at ha
    exact (List.mem_append.1 ha).elim (h.accesses a) (hacc a)
  sessions := by
    intro i se hi
    rw [received_rse] at hi
    split_ifs at hi
    · rw [← Option.some.inj hi]
      exact hse
    · exact h.sessions i se hi

section

variable (stack : Stack) (fh : FrmHdr) {mh : MsgHdr} {data : Bytes} {se : Rse}

/-- A handler stores slices and looks at what it has, and may finish the session. -/
lemma safe_of_patched {r : Received} {n : ℕ} (h : RseSafe se)
    (hse : r.se = (finishRse stack fh (patchRse se data n).1).se ∨ r.se = (patchRse se data n).1)
    (hacc : ∀ a ∈ r.accesses, a ∈ (patchRse se data n).2 ∨
      (∃ x, a = .word x ∧ 32 * x < (patchRse se data n).1.nSlices.toNat) ∨
        a = .msg (patchRse se data n).1.msglen.toNat) :
    RseSafe r.se ∧ ∀ a ∈ r.accesses, a.InBounds := by
  have hsafe := rseSafe_patchRse h data n
  constructor
  · rcases hse with hse | hse <;> rw [hse]
    · exact rseSafe_finishRse hsafe _ _
    · exact hsafe
  · intro a ha
    rcases hacc a ha with ha | ha
    · exact patchRse_accesses_inBounds h.le _ _ a ha
    · exact inBounds_of_safe hsafe ha

lemma safe_procDataRse (hfits : mh.len.toNat ≤ maxSliceNum * sliceDataLen)
    (hdata : data.length ≤ linkMtu) :
    RseSafe (procDataRse stack fh mh data se).se ∧
      ∀ a ∈ (procDataRse stack fh mh data se).accesses, a.InBounds := by
  obtain ⟨_, rfl, hacc, hres⟩ := procDataRse_cases stack fh mh se hdata
  exact safe_of_patched stack fh (rseSafe_openRse hfits se)
    (hres.imp (fun h => h.2.1) fun h => h.2.1) hacc

lemma safe_procPatchRse (mh : MsgHdr) (h : RseSafe se) (hdata : data.length ≤ linkMtu) :
    RseSafe (procPatchRse stack fh mh data se).se ∧
      ∀ a ∈ (procPatchRse stack fh mh data se).accesses, a.InBounds := by
  rcases procPatchRse_cases stack fh mh se hdata with ⟨-, heq⟩ | ⟨-, -, p, hp, hacc, hres⟩
  · rw [heq]
    exact ⟨h, by simp⟩
  · subst hp
    exact safe_of_patched stack fh h (hres.imp (fun h => h.2.1) fun h => h.2.1) hacc

lemma safe_procAckReqRse (mh : MsgHdr) (h : RseSafe se) :
    RseSafe (procAckReqRse stack fh mh se).se ∧
      ∀ a ∈ (procAckReqRse stack fh mh se).accesses, a.InBounds := by
  unfold procAckReqRse
  split_ifs
  · exact ⟨h, fun a ha => inBounds_of_safe h (.inl (sendAck_accesses _ _ _ _ a ha))⟩
  · exact ⟨h, by simp⟩

end

lemma receiveSafe_step {s : Split} {e : Event} (hfits : HeaderFits e) (h : ReceiveSafe s) :
    ReceiveSafe (s.step e) := by
  cases recvStep s e with
  | none _ _ hacc hrse _ =>
    refine ⟨by rw [hacc]; exact h.accesses, fun k se hse => ?_⟩
    rcases hrse k with hk | hk
    · exact h.sessions k se (hk ▸ hse)
    · rw [hk] at hse
      cases hse
  | @data raw fh mh data hop haccept hstep =>
    rw [hstep]
    obtain ⟨hse, hacc⟩ := safe_procDataRse (e.stack 0) fh (hfits _ _ _ _ hop haccept)
      (accept_length haccept)
    exact receiveSafe_received h hse hacc
  | @ackReq raw fh mh se hop haccept hget hstep =>
    rw [hstep]
    have hsafe := (h.sessions _ _ hget).touch (e.now + idleTimeout)
    obtain ⟨hse, hacc⟩ := safe_procAckReqRse (e.stack 0) fh mh hsafe
    exact receiveSafe_received h hse hacc
  | @patch raw fh mh data se hop haccept hget hstep =>
    rw [hstep]
    have hsafe := (h.sessions _ _ hget).touch (e.now + idleTimeout)
    obtain ⟨hse, hacc⟩ := safe_procPatchRse (e.stack 0) fh mh hsafe (accept_length haccept)
    exact receiveSafe_received h hse hacc

lemma receiveSafe_init : ReceiveSafe splitInit :=
  ⟨by simp [splitInit], by simp [splitInit]⟩

/-- **Safety of the receive path.** A run is safe throughout, every access inside the arrays and
every session with the right number of slices, exactly when each DATA header that is accepted
announces at most `MAX_SLICE_NUM * SLICE_DATA_LEN` bytes. -/
theorem receive_safe_iff (es : List Event) :
    (∀ es', es' <+: es → ReceiveSafe (run es')) ↔ ∀ e ∈ es, HeaderFits e := by
  constructor
  · intro h e he raw fh mh data hop haccept
    obtain ⟨es₁, es₂, rfl⟩ := List.append_of_mem he
    have hsafe := h (es₁ ++ [e]) ⟨es₂, by simp⟩
    rw [run_concat, step_accepted hop haccept] at hsafe
    have hdata : data.length ≤ linkMtu := accept_length haccept
    obtain ⟨hn, hlen, -⟩ := procDataRse_header (e.stack 0) fh mh
      ((getRse e.now fh.src (run es₁)).getD (resetRse e.now)) hdata
    have hse := hsafe.sessions fh.src _ (by rw [Split.act, received_rse, if_pos rfl])
    have hcount := hse.nSlices
    have hle := hse.le
    rw [hlen] at hcount
    rw [hcount] at hle
    simp only [sliceCount, sliceDataLen, maxSliceNum_eq] at *
    omega
  · rintro h es' ⟨es₂, rfl⟩
    exact run_induction ReceiveSafe receiveSafe_init (fun s e => receiveSafe_step) es'
      fun e he => h e (List.mem_append_left _ he)

/-- One DATA frame that announces 1280 bytes: the session has 40 slices, and the search for the
missing ones reads a second word of a bitmap that has only one. -/
theorem receive_overrun : ¬ ∀ es : List Event, ReceiveSafe (run es) := by
  intro h
  have hbad : ∃ a ∈ (run [⟨1, default, .lowerPut
      (framed ((frmHdr 1 2 frameTypeData 0 frmMsgHdrLen).bytes ++
        (msgHdr 0 1280 0 []).bytes))⟩]).accesses, ¬ a.InBounds := by
    decide +kernel
  obtain ⟨a, ha, hout⟩ := hbad
  exact hout ((h _).accesses a ha)

end Ipcf
