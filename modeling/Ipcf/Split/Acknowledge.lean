import Ipcf.Split.ReceiveInvariant

/-!
# What an acknowledgement says

An observer notes the slices that `cp_slice_to_rse` has accepted for a sender since the latest DATA
frame (`storedSince`), and `Truthful` is what an acknowledgement should say of them.
`storedInv_run` ties the notes to the bitmap: its set bits are the numbers that were noted.

The range check of `cp_slice_to_rse` lets the slice numbered `n_slices` pass.  Once it is accepted
the completion test, which compares whole words, fails for good, while the scan for missing slices
stops below `n_slices`: when it finds none, nothing is sent (`ack_withheld`).  `acks_truthful_iff`:
in every other case the acknowledgement is truthful.
-/

namespace Ipcf

/-! ## The observer -/

/-- The sequence numbers of the slices that `patch_rse` accepts: those for which `cp_slice_to_rse`
comes to its copy. -/
def storedSeqs (se : Rse) (data : Bytes) : (n : ℕ) → List UInt8
  | 0 => []
  | n + 1 =>
    let first := cpSliceToRse se (data.take sliceLen)
    let rest := storedSeqs first.1 (data.drop sliceLen) n
    if first.2 = [] then rest else sliceSeq (data.take sliceLen) :: rest

/-- What the observer of `k` has noted after the event, if it had noted `stored` before.  A DATA
frame clears the bitmap; a PATCH frame adds to it, if it is for the message that is awaited. -/
def storedStep (k : UInt8) (s : Split) (stored : List UInt8) (e : Event) : List UInt8 :=
  match e.op with
  | .lowerPut raw =>
    match accept raw with
    | some (.data fh mh data) =>
      if fh.src = k then
        storedSeqs (openRse mh ((getRse e.now k s).getD (resetRse e.now))) data
          (data.length / sliceLen)
      else stored
    | some (.patch fh mh data) =>
      match getRse e.now k s with
      | some se =>
        if fh.src = k ∧ se.seqExp = mh.seq ∧ se.completed = false then
          stored ++ storedSeqs se data (patchSlices mh data)
        else stored
      | none => stored
    | _ => stored
  | _ => stored

/-- The slices of `k` that were accepted since its latest DATA frame. -/
def storedSince (k : UInt8) (es : List Event) : List UInt8 :=
  (es.foldl (fun r e => (r.1.step e, storedStep k r.1 r.2 e)) (splitInit, [])).2

lemma storedSince_concat (k : UInt8) (es : List Event) (e : Event) :
    storedSince k (es ++ [e]) = storedStep k (run es) (storedSince k es) e := by
  have hrun := foldl_observer Split.step (storedStep k) es splitInit []
  rw [storedSince, List.foldl_append, List.foldl_cons, List.foldl_nil, hrun]
  rfl

/-- What an acknowledgement should say when the slices `stored` have been accepted. -/
structure Truthful (stored : List UInt8) (nSlices : UInt8) (fh : FrmHdr) (mh : MsgHdr)
    (data : Bytes) : Prop where
  complete : (∀ q < nSlices, q ∈ stored) → fh.type = frameTypeAcka
  part : (¬ ∀ q < nSlices, q ∈ stored) → fh.type = frameTypeAckp ∧ data ≠ [] ∧
    mh.len.toNat = data.length ∧ mh.len2.toNat = data.length ∧ data.Pairwise (· < ·) ∧
      ∀ q, q ∈ data ↔ q < nSlices ∧ q ∉ stored

/-- An accepted DATA header announces a message that is not empty and fits into the slices. -/
def HeaderInRange (e : Event) : Prop :=
  match e.op with
  | .lowerPut raw =>
    match accept raw with
    | some (.data _ mh _) => 1 ≤ mh.len.toNat ∧ mh.len.toNat ≤ maxSliceNum * sliceDataLen
    | _ => True
  | _ => True

instance : DecidablePred HeaderInRange := fun e => by
  unfold HeaderInRange
  split
  · split
    · infer_instance
    · infer_instance
  · infer_instance

/-! ## The bitmap and the notes -/

/-- The set bits of the session are the slices that were noted. -/
structure StoredSe (stored : List UInt8) (se : Rse) : Prop where
  pos : 1 ≤ se.nSlices.toNat
  le : se.nSlices.toNat ≤ maxSliceNum
  seqs : ∀ q ∈ stored, q ≤ se.nSlices
  bits : ∀ q : UInt8, bit se.bitmap q.toNat = true ↔ q ∈ stored

/-- The notes are about the number of slices and the bitmap, and no other field. -/
lemma StoredSe.congr {stored : List UInt8} {se se' : Rse} (h : StoredSe stored se)
    (hn : se'.nSlices = se.nSlices) (hmap : se'.bitmap = se.bitmap) : StoredSe stored se' := by
  refine ⟨?_, ?_, ?_, ?_⟩
  · rw [hn]
    exact h.pos
  · rw [hn]
    exact h.le
  · rw [hn]
    exact h.seqs
  · rw [hmap]
    exact h.bits

/-- One more slice. -/
lemma StoredSe.cpSliceToRse {stored : List UInt8} {se : Rse} (h : StoredSe stored se) (s : Bytes) :
    StoredSe (stored ++ if (cpSliceToRse se s).2 = [] then [] else [sliceSeq s])
      (cpSliceToRse se s).1 := by
  rcases cpSliceToRse_cases se s with ⟨-, heq⟩ | ⟨-, hseq, heq⟩
  · rw [heq, if_pos rfl, List.append_nil]
    exact h
  · rw [heq, if_neg (List.cons_ne_nil _ _)]
    refine ⟨h.pos, h.le, fun q hq => ?_, fun q => ?_⟩
    · rcases List.mem_append.1 hq with hq | hq
      · exact h.seqs q hq
      · rw [List.mem_singleton.1 hq]
        exact UInt8.le_iff_toNat_le.2 hseq
    · have hle := h.le
      have hsame : q.toNat = (sliceSeq s).toNat ↔ q = sliceSeq s := UInt8.toNat_inj
      rw [bit_setBit, Bool.or_eq_true, decide_eq_true_eq, h.bits, List.mem_append,
        List.mem_singleton, hsame, Or.comm]
      rw [maxSliceNum_eq] at hle
      refine or_congr_right (and_iff_left_of_imp ?_)
      rintro rfl
      rw [bitmap32Size_eq]
      omega

lemma StoredSe.patchRse {stored : List UInt8} {se : Rse} (h : StoredSe stored se) (data : Bytes)
    (n : ℕ) : StoredSe (stored ++ storedSeqs se data n) (patchRse se data n).1 := by
  induction n generalizing stored se data with
  | zero =>
    rw [storedSeqs, List.append_nil]
    exact h
  | succ n ih =>
    have hfirst := ih (h.cpSliceToRse (data.take sliceLen)) (data.drop sliceLen)
    rw [List.append_assoc] at hfirst
    rw [Ipcf.patchRse, storedSeqs]
    simp only
    split_ifs at hfirst ⊢
    · exact hfirst
    · exact hfirst

/-- The session of a DATA frame, before its slices. -/
lemma storedSe_openRse {mh : MsgHdr} (hlo : 1 ≤ mh.len.toNat)
    (hhi : mh.len.toNat ≤ maxSliceNum * sliceDataLen) (se : Rse) :
    StoredSe [] (openRse mh se) := by
  have hsafe := rseSafe_openRse hhi se
  refine ⟨?_, hsafe.le, by simp, fun q => ?_⟩
  · rw [hsafe.nSlices]
    have hlen : (openRse mh se).msglen = mh.len := rfl
    rw [hlen]
    simp only [sliceCount, sliceDataLen]
    omega
  · have hbit : bit (openRse mh se).bitmap q.toNat = false := bit_clear _
    simp [hbit]

lemma StoredSe.finishRse {stored : List UInt8} {se : Rse} (h : StoredSe stored se) (stack : Stack)
    (fh : FrmHdr) : StoredSe stored (finishRse stack fh se).se := by
  rcases finishRse_cases stack fh se with ⟨-, heq, -, -⟩ | ⟨-, heq, -, -⟩
  · exact h.congr (by rw [heq]) (by rw [heq])
  · exact h.congr (by rw [heq]) (by rw [heq])

section

variable {stored : List UInt8} {stack : Stack} {fh : FrmHdr} {mh : MsgHdr} {data : Bytes} {se : Rse}

lemma storedSe_procDataRse (hlo : 1 ≤ mh.len.toNat)
    (hhi : mh.len.toNat ≤ maxSliceNum * sliceDataLen) (hdata : data.length ≤ linkMtu) :
    StoredSe (storedSeqs (openRse mh se) data (data.length / sliceLen))
      (procDataRse stack fh mh data se).se := by
  have hpatched := (storedSe_openRse hlo hhi se).patchRse data (data.length / sliceLen)
  rw [List.nil_append] at hpatched
  obtain ⟨p, rfl, -, ⟨-, hse, -, -⟩ | ⟨-, hse, -, -⟩⟩ := procDataRse_cases stack fh mh se hdata
  · rw [hse]
    exact hpatched.finishRse stack fh
  · rw [hse]
    exact hpatched

lemma storedSe_procPatchRse (h : StoredSe stored se) (hdata : data.length ≤ linkMtu) :
    StoredSe
      (if se.seqExp = mh.seq ∧ se.completed = false then
        stored ++ storedSeqs se data (patchSlices mh data) else stored)
      (procPatchRse stack fh mh data se).se := by
  rcases procPatchRse_cases stack fh mh se hdata with
    ⟨hother, heq⟩ | ⟨hseq, hpending, p, rfl, -, ⟨-, hse, -, -⟩ | ⟨-, hse, -, -⟩⟩
  · have hnot : ¬ (se.seqExp = mh.seq ∧ se.completed = false) := by
      rintro ⟨hseq, hpending⟩
      rcases hother with hne | hdone
      · exact hne hseq
      · rw [hpending] at hdone
        cases hdone
    rw [heq, if_neg hnot]
    exact h
  · rw [hse, if_pos ⟨hseq, hpending⟩]
    exact (h.patchRse data _).finishRse stack fh
  · rw [hse, if_pos ⟨hseq, hpending⟩]
    exact h.patchRse data _

end

/-! ## One event -/

section

variable {k : UInt8} {s : Split} {stored : List UInt8} {e : Event} {raw : Bytes} {fh : FrmHdr}
  {mh : MsgHdr} {data : Bytes}

lemma storedStep_data (hop : e.op = .lowerPut raw)
    (haccept : accept raw = some (.data fh mh data)) :
    storedStep k s stored e =
      if fh.src = k then
        storedSeqs (openRse mh ((getRse e.now k s).getD (resetRse e.now))) data
          (data.length / sliceLen)
      else stored := by
  rw [storedStep, hop]
  simp only [haccept]

lemma storedStep_patch (hop : e.op = .lowerPut raw)
    (haccept : accept raw = some (.patch fh mh data)) {se : Rse}
    (hget : getRse e.now k s = some se) :
    storedStep k s stored e =
      if fh.src = k ∧ se.seqExp = mh.seq ∧ se.completed = false then
        stored ++ storedSeqs se data (patchSlices mh data)
      else stored := by
  rw [storedStep, hop]
  simp only [haccept, hget]

/-- A PATCH frame for another sender's session, or for none, is no note. -/
lemma storedStep_patch_other (hop : e.op = .lowerPut raw)
    (haccept : accept raw = some (.patch fh mh data))
    (hother : fh.src ≠ k ∨ getRse e.now k s = none) : storedStep k s stored e = stored := by
  cases hget : getRse e.now k s with
  | none =>
    rw [storedStep, hop]
    simp only [haccept, hget]
  | some se =>
    rw [storedStep_patch hop haccept hget, if_neg]
    rintro ⟨hsrc, -⟩
    rcases hother with hne | hnone
    · exact hne hsrc
    · rw [hget] at hnone
      cases hnone

/-- Neither are requests and acknowledgements. -/
lemma storedStep_other {a : Accepted} (hop : e.op = .lowerPut raw) (haccept : accept raw = some a)
    (hdata : ∀ fh mh data, a ≠ .data fh mh data) (hpatch : ∀ fh mh data, a ≠ .patch fh mh data) :
    storedStep k s stored e = stored := by
  rw [storedStep, hop]
  simp only [haccept]
  cases a with
  | data fh mh data => exact absurd rfl (hdata fh mh data)
  | patch fh mh data => exact absurd rfl (hpatch fh mh data)
  | ackReq fh mh => rfl
  | ackAll fh mh => rfl
  | ackPart fh mh data => rfl

end

/-- The notes about all senders agree with their sessions. -/
def StoredInv (s : Split) (stored : UInt8 → List UInt8) : Prop :=
  ∀ k se, s.rse k = some se → StoredSe (stored k) se

section

variable {s : Split} {stored : UInt8 → List UInt8} {e : Event}

/-- A handler that acts on the session of `k`. -/
lemma storedInv_received (h : StoredInv s stored) {k : UInt8} {r : Received}
    (hstep : s.step e = s.received k r) (hself : StoredSe (storedStep k s (stored k) e) r.se)
    (hother : ∀ i, i ≠ k → storedStep i s (stored i) e = stored i) :
    StoredInv (s.step e) fun i => storedStep i s (stored i) e := by
  intro i se hse
  rw [hstep, received_rse] at hse
  by_cases hi : i = k
  · subst hi
    rw [if_pos rfl] at hse
    rw [← Option.some.inj hse]
    exact hself
  · rw [if_neg hi] at hse
    change StoredSe (storedStep i s (stored i) e) se
    rw [hother i hi]
    exact h i se hse

/-- An event that stores nothing. -/
lemma storedInv_same (h : StoredInv s stored)
    (hnotes : ∀ k, storedStep k s (stored k) e = stored k)
    (hrse : ∀ k, (s.step e).rse k = s.rse k ∨ (s.step e).rse k = none) :
    StoredInv (s.step e) fun k => storedStep k s (stored k) e := by
  intro k se hse
  change StoredSe (storedStep k s (stored k) e) se
  rw [hnotes k]
  rcases hrse k with hk | hk
  · exact h k se (hk ▸ hse)
  · rw [hk] at hse
    cases hse

/-- A call that receives nothing frees sessions at most. -/
lemma rse_of_not_lowerPut (hop : ∀ raw, e.op ≠ .lowerPut raw) (k : UInt8) :
    (s.step e).rse k = s.rse k ∨ (s.step e).rse k = none := by
  cases recvStep s e with
  | none _ _ _ hrse _ => exact hrse k
  | data hop' => exact absurd hop' (hop _)
  | ackReq hop' => exact absurd hop' (hop _)
  | patch hop' => exact absurd hop' (hop _)

section

variable {raw : Bytes} {fh : FrmHdr} {mh : MsgHdr} {data : Bytes} (hop : e.op = .lowerPut raw)
  (h : StoredInv s stored)

include hop h

lemma storedInv_data (haccept : accept raw = some (.data fh mh data))
    (hlo : 1 ≤ mh.len.toNat) (hhi : mh.len.toNat ≤ maxSliceNum * sliceDataLen) :
    StoredInv (s.step e) fun k => storedStep k s (stored k) e := by
  refine storedInv_received h (step_accepted hop haccept) ?_ fun i hi => ?_
  · rw [storedStep_data hop haccept, if_pos rfl]
    exact storedSe_procDataRse hlo hhi (accept_length haccept)
  · rw [storedStep_data hop haccept, if_neg (Ne.symm hi)]

lemma storedInv_ackReq (haccept : accept raw = some (.ackReq fh mh)) :
    StoredInv (s.step e) fun k => storedStep k s (stored k) e := by
  have hsame : ∀ k, storedStep k s (stored k) e = stored k := fun k =>
    storedStep_other hop haccept (by simp) (by simp)
  have hstep := step_accepted (s := s) hop haccept
  rw [act_ackReq] at hstep
  cases hget : s.rse fh.src with
  | none =>
    rw [hget] at hstep
    exact storedInv_same h hsame fun k => .inl (by rw [hstep])
  | some se =>
    rw [hget] at hstep
    refine storedInv_received h hstep ?_ fun i _ => hsame i
    rw [hsame, procAckReqRse]
    split_ifs
    · exact (h _ _ hget).congr rfl rfl
    · exact (h _ _ hget).congr rfl rfl

lemma storedInv_patch (haccept : accept raw = some (.patch fh mh data)) :
    StoredInv (s.step e) fun k => storedStep k s (stored k) e := by
  have hstep := step_accepted (s := s) hop haccept
  rw [act_patch] at hstep
  cases hget : s.rse fh.src with
  | none =>
    rw [hget] at hstep
    refine storedInv_same h (fun k => storedStep_patch_other hop haccept ?_)
      fun k => .inl (by rw [hstep])
    by_cases hk : fh.src = k
    · subst hk
      rw [getRse, hget]
      exact .inr rfl
    · exact .inl hk
  | some se =>
    rw [hget] at hstep
    have htouched : getRse e.now fh.src s =
        some { se with idleTimeout := e.now + idleTimeout } := by
      rw [getRse, hget]
      rfl
    have hse : StoredSe (stored fh.src) { se with idleTimeout := e.now + idleTimeout } :=
      (h _ _ hget).congr rfl rfl
    refine storedInv_received h hstep ?_ fun i hi =>
      storedStep_patch_other hop haccept (.inl (Ne.symm hi))
    rw [storedStep_patch hop haccept htouched]
    simp only [true_and]
    exact storedSe_procPatchRse hse (accept_length haccept)

lemma storedInv_accepted {a : Accepted} (haccept : accept raw = some a)
    (hrange : HeaderInRange e) : StoredInv (s.step e) fun k => storedStep k s (stored k) e := by
  have hstep := step_accepted (s := s) hop haccept
  simp only [HeaderInRange, hop, haccept] at hrange
  cases a with
  | data fh mh data => exact storedInv_data hop h haccept hrange.1 hrange.2
  | ackReq fh mh => exact storedInv_ackReq hop h haccept
  | patch fh mh data => exact storedInv_patch hop h haccept
  | ackAll fh mh =>
    refine storedInv_same h (fun k => storedStep_other hop haccept (by simp) (by simp))
      fun k => .inl ?_
    rw [hstep, act_ackAll]
    cases s.sse fh.src with
    | none => rfl
    | some se => rfl
  | ackPart fh mh data =>
    refine storedInv_same h (fun k => storedStep_other hop haccept (by simp) (by simp))
      fun k => .inl ?_
    rw [hstep, act_ackPart]
    cases s.sse fh.src with
    | none => rfl
    | some se => rfl

end

lemma storedInv_step (hrange : HeaderInRange e) (h : StoredInv s stored) :
    StoredInv (s.step e) fun k => storedStep k s (stored k) e := by
  cases hop : e.op with
  | upperSend smac dmac msg =>
    exact storedInv_same h (fun k => by rw [storedStep, hop])
      (rse_of_not_lowerPut (by rw [hop]; exact fun raw hbad => by cases hbad))
  | procTimer =>
    exact storedInv_same h (fun k => by rw [storedStep, hop])
      (rse_of_not_lowerPut (by rw [hop]; exact fun raw hbad => by cases hbad))
  | lowerPut raw =>
    cases haccept : accept raw with
    | none =>
      refine storedInv_same h (fun k => ?_) fun k => .inl (by rw [step_rejected hop haccept])
      rw [storedStep, hop]
      simp only [haccept]
    | some a => exact storedInv_accepted hop h haccept hrange

end

lemma storedInv_run (es : List Event) (hrange : ∀ e ∈ es, HeaderInRange e) :
    StoredInv (run es) fun k => storedSince k es := by
  induction es using List.reverseRecOn with
  | nil =>
    intro k se hse
    cases hse
  | append_singleton es e ih =>
    have hold := ih fun e' he' => hrange e' (List.mem_append_left _ he')
    have hnew := storedInv_step (hrange e (by simp)) hold
    simp only [run_concat, storedSince_concat]
    exact hnew

/-! ## The acknowledgement -/

section

variable {stored : List UInt8} {se : Rse} (h : StoredSe stored se)

include h

/-- The scan finds the slices that are missing, in ascending order. -/
lemma StoredSe.mem_missing_iff (q : UInt8) :
    q ∈ (missing se.bitmap se.nSlices).1 ↔ q < se.nSlices ∧ q ∉ stored := by
  rw [Ipcf.mem_missing_iff, ← UInt8.lt_iff_toNat_lt, ← h.bits, Bool.not_eq_true]

/-- The completion test holds when every slice was accepted, and the one numbered `n_slices` was
not. -/
lemma StoredSe.testAllBitsSet_iff :
    testAllBitsSet se.bitmap se.nSlices = true ↔
      (∀ q < se.nSlices, q ∈ stored) ∧ se.nSlices ∉ stored := by
  have hpos := h.pos
  have hle := h.le
  rw [maxSliceNum_eq] at hle
  have hset : (∀ i < se.nSlices.toNat, bit se.bitmap i = true) ↔ ∀ q < se.nSlices, q ∈ stored := by
    constructor
    · intro hall q hq
      exact (h.bits q).1 (hall _ (UInt8.lt_iff_toNat_lt.1 hq))
    · intro hall i hi
      have hq : (UInt8.ofNat i).toNat = i := by
        rw [UInt8.toNat_ofNat']
        omega
      rw [← hq, h.bits]
      exact hall _ (UInt8.lt_iff_toNat_lt.2 (by rw [hq]; exact hi))
  have hclear : (∀ i, se.nSlices.toNat ≤ i → i < 32 * (se.nSlices.toNat / 32 + 1) →
      bit se.bitmap i = false) ↔ se.nSlices ∉ stored := by
    constructor
    · intro hall hmem
      have hbit := (h.bits _).2 hmem
      rw [hall _ (Nat.le_refl _) (by omega)] at hbit
      cases hbit
    · intro hnot i hlo hhi
      have hq : (UInt8.ofNat i).toNat = i := by
        rw [UInt8.toNat_ofNat']
        omega
      rw [← hq, Bool.eq_false_iff]
      intro hbit
      have hmem := (h.bits _).1 hbit
      have hseq := UInt8.le_iff_toNat_le.1 (h.seqs _ hmem)
      rw [hq] at hseq
      have hsame : UInt8.ofNat i = se.nSlices := UInt8.toNat_inj.1 (by rw [hq]; omega)
      exact hnot (hsame ▸ hmem)
  rw [Ipcf.testAllBitsSet_iff, hset]
  refine and_congr_right fun _ => ?_
  rw [← hclear]
  exact ⟨fun hall => hall (by omega), fun hall _ => hall⟩

/-- The scan finds nothing when every slice was accepted. -/
lemma StoredSe.findFirstZero_iff :
    findFirstZero se.bitmap 0 se.nSlices = -1 ↔ ∀ q < se.nSlices, q ∈ stored := by
  rcases findFirstZero_spec se.bitmap 0 se.nSlices with ⟨hret, hall⟩ | ⟨i, hret, -, hi, hclear, -⟩
  · refine ⟨fun _ q hq => ?_, fun _ => hret⟩
    exact (h.bits q).1 (hall _ (Nat.zero_le _) (UInt8.lt_iff_toNat_lt.1 hq))
  · have hn := se.nSlices.toNat_lt
    have hq : (UInt8.ofNat i).toNat = i := by
      rw [UInt8.toNat_ofNat']
      omega
    constructor
    · intro hnone
      rw [hret] at hnone
      omega
    · intro hall
      have hbit := (h.bits _).2 (hall _ (UInt8.lt_iff_toNat_lt.2 (by rw [hq]; exact hi)))
      rw [hq, hclear] at hbit
      cases hbit

end

/-- What `send_ack` queues is one truthful acknowledgement, and the completion test and the scan for
missing slices agree. -/
def AcksTruthfully (stack : Stack) (dst src : UInt8) (stored : List UInt8) (se : Rse) : Prop :=
  (∃ fh mh data, (sendAck stack dst src se).1 = [framed (fh.bytes ++ mh.bytes ++ data)] ∧
    Truthful stored se.nSlices fh mh data) ∧
  (testAllBitsSet se.bitmap se.nSlices = true ↔ findFirstZero se.bitmap 0 se.nSlices = -1)

/-- **Acknowledgements tell the truth.**  In every state of every run in which the DATA headers
announce messages that fit, an acknowledgement of a session that does not wait for all of its
message again is truthful, unless every slice has been accepted and, besides, the slice behind the
last. -/
theorem acks_truthful_iff {es : List Event} (hrange : ∀ e ∈ es, HeaderInRange e) {k : UInt8}
    {se : Rse} (hse : (run es).rse k = some se) (hnak : se.nak = false) (stack : Stack)
    (dst src : UInt8) :
    AcksTruthfully stack dst src (storedSince k es) se ↔
      ¬ ((∀ q < se.nSlices, q ∈ storedSince k es) ∧ se.nSlices ∈ storedSince k es) := by
  have h := storedInv_run es hrange k se hse
  change StoredSe (storedSince k es) se at h
  have hack := sendAck_eq stack dst src se
  rw [hnak, if_neg Bool.false_ne_true] at hack
  rw [AcksTruthfully, h.testAllBitsSet_iff, h.findFirstZero_iff]
  by_cases hall : ∀ q < se.nSlices, q ∈ storedSince k es
  · have hnone : (missing se.bitmap se.nSlices).1 = [] := by
      apply List.eq_nil_iff_forall_not_mem.2
      intro q hq
      obtain ⟨hlt, hnot⟩ := (h.mem_missing_iff q).1 hq
      exact hnot (hall q hlt)
    by_cases hnext : se.nSlices ∈ storedSince k es
    · refine ⟨fun htrue => ?_, fun hnot => absurd ⟨hall, hnext⟩ hnot⟩
      exact absurd hnext (htrue.2.2 hall).2
    · have htest := h.testAllBitsSet_iff.2 ⟨hall, hnext⟩
      rw [if_pos htest] at hack
      refine ⟨fun _ hand => hnext hand.2, fun _ => ⟨⟨_, _, _, hack, ?_⟩, ?_⟩⟩
      · exact ⟨fun _ => rfl, fun hnot => absurd hall hnot⟩
      · exact ⟨fun hand => hand.1, fun _ => ⟨hall, hnext⟩⟩
  · have htest : testAllBitsSet se.bitmap se.nSlices = false := by
      rw [Bool.eq_false_iff, ne_eq, h.testAllBitsSet_iff]
      exact fun hand => hall hand.1
    have hsome : (missing se.bitmap se.nSlices).1 ≠ [] := by
      intro hnil
      apply hall
      intro q hq
      by_contra hnot
      have hmem := (h.mem_missing_iff q).2 ⟨hq, hnot⟩
      rw [hnil] at hmem
      cases hmem
    rw [if_neg (by rw [htest]; exact Bool.false_ne_true), if_neg hsome] at hack
    have hlen := length_missing_le se.bitmap se.nSlices
    have hn := se.nSlices.toNat_lt
    have hcount : (UInt16.ofNat (missing se.bitmap se.nSlices).1.length).toNat =
        (missing se.bitmap se.nSlices).1.length := by
      rw [UInt16.toNat_ofNat']
      omega
    have hsorted : (missing se.bitmap se.nSlices).1.Pairwise (· < ·) := by
      rw [missing_eq, List.pairwise_map]
      refine (List.pairwise_lt_range.filter _).imp_of_mem fun ha hb hlt => ?_
      have ha' := List.mem_range.1 (List.mem_filter.1 ha).1
      have hb' := List.mem_range.1 (List.mem_filter.1 hb).1
      rw [UInt8.lt_iff_toNat_lt, UInt8.toNat_ofNat', UInt8.toNat_ofNat']
      omega
    refine ⟨fun _ hand => hall hand.1, fun _ => ⟨⟨_, _, _, hack, ?_⟩, ?_⟩⟩
    · exact ⟨fun hbad => absurd hbad hall,
        fun _ => ⟨rfl, hsome, hcount, hcount, hsorted, h.mem_missing_iff⟩⟩
    · exact ⟨fun hand => hand.1, fun hbad => absurd hbad hall⟩

/-- A DATA frame that announces one byte, and holds it in slice 0, and a slice 1. -/
def boundaryFrame : Bytes :=
  framed ((frmHdr 1 2 frameTypeData 0 (frmMsgHdrLen + 2 * sliceLen)).bytes ++
    (msgHdr (csum32 [7]) 1 0 []).bytes ++ (fillSliceK 0 [7] ++ fillSliceK 1 []))

/-- The message is complete, and nothing is ever said of it. -/
theorem ack_withheld :
    ¬ ∀ (es : List Event) (k : UInt8) (se : Rse), (∀ e ∈ es, HeaderInRange e) →
      (run es).rse k = some se → se.nak = false → ∀ stack dst src,
        AcksTruthfully stack dst src (storedSince k es) se := by
  intro hall
  have hquiet : ((run [⟨1, default, .lowerPut boundaryFrame⟩]).rse 1).map
      (fun se => (se.nak, (sendAck default 1 2 se).1)) = some (false, []) := by decide +kernel
  obtain ⟨se, hse, hret⟩ := Option.map_eq_some_iff.1 hquiet
  obtain ⟨hnak, hsent⟩ := Prod.mk.inj hret
  obtain ⟨⟨fh, mh, data, hack, -⟩, -⟩ := hall _ 1 se (by decide +kernel) hse hnak default 1 2
  rw [hsent] at hack
  cases hack

/-- A message of three slices, of which the first and the last have arrived, the last one twice. -/
theorem acks_truthful_iff_some :
    let msg : Bytes := List.replicate 70 7
    let patch := fun ks : List ℕ =>
      framed ((frmHdr 1 2 frameTypePatch 0 (frmMsgHdrLen + sliceLen * ks.length)).bytes ++
        (msgHdr 0 ks.length 0 []).bytes ++ ks.flatMap (sliceOf msg))
    let es : List Event := [
      ⟨1, default, .lowerPut (framed ((frmHdr 1 2 frameTypeData 0 frmMsgHdrLen).bytes ++
        (msgHdr (csum32 msg) 70 0 []).bytes))⟩,
      ⟨2, default, .lowerPut (patch [2])⟩, ⟨3, default, .lowerPut (patch [2, 0])⟩]
    storedSince 1 es = [2, 2, 0] ∧
      ∃ se, (run es).rse 1 = some se ∧ AcksTruthfully default 1 2 [2, 2, 0] se := by
  intro msg patch es
  have hfresh : ((run es).rse 1).map (fun se => (se.nak, se.nSlices)) = some (false, 3) := by
    decide +kernel
  have hstored : storedSince 1 es = [2, 2, 0] := by decide +kernel
  obtain ⟨se, hse, hret⟩ := Option.map_eq_some_iff.1 hfresh
  obtain ⟨hnak, hn⟩ := Prod.mk.inj hret
  have hrange : ∀ e ∈ es, HeaderInRange e := by decide +kernel
  have htrue := acks_truthful_iff hrange hse hnak default 1 2
  rw [hstored, hn] at htrue
  exact ⟨hstored, se, hse, htrue.2 fun hand => absurd (hand.1 1 (by decide)) (by decide)⟩

end Ipcf
