import Ipcf.Framework.Lease
import Ipcf.Split.Isolation
import Ipcf.Split.Session

/-!
# How long a session lives

A send session is used when a message is handed to it, when an acknowledgement comes in from its
peer, whatever it acknowledges, and when its acknowledgement timer runs out; a receive session when
a DATA frame comes in, which also makes it, and when an ACKR or PATCH frame does.  Every use sets
the idle timer, and `proc_timer` frees the sessions whose idle timer has run out: so a session is
there exactly as long as `proc_timer` has not been called `IDLE_TIMEOUT` or more after the last use
(`sessions_leased`).
-/

namespace Ipcf

def Event.isTimer (e : Event) : Bool :=
  match e.op with
  | .procTimer => true
  | _ => false

/-- The event uses the send session of `k`, or makes it. -/
def usesSse (k : UInt8) (e : Event) (o : Option Sse) : Bool :=
  match e.op with
  | .upperSend _ dmac msg => decide (dmac = k ∧ msg ≠ [])
  | .lowerPut raw =>
    match accept raw with
    | some (.ackAll fh _) | some (.ackPart fh _ _) => fh.src == k && o.isSome
    | _ => false
  | .procTimer => o.any fun se => se.due e.now

/-- The event uses the receive session of `k`, or makes it. -/
def usesRse (k : UInt8) (e : Event) (o : Option Rse) : Bool :=
  match e.op with
  | .lowerPut raw =>
    match accept raw with
    | some (.data fh _ _) => fh.src == k
    | some (.ackReq fh _) | some (.patch fh _ _) => fh.src == k && o.isSome
    | _ => false
  | _ => false

/-- What `proc_timer` does to a session that it does not use. -/
def Event.lapse {σ : Type*} (expiry : σ → ℤ) (e : Event) : Option σ → Option σ
  | none => none
  | some s => if e.isTimer ∧ expiry s ≤ e.now then none else some s

lemma lapse_of_not_timer {σ : Type*} {expiry : σ → ℤ} {e : Event} (h : e.isTimer = false)
    (o : Option σ) : e.lapse expiry o = o := by
  cases o with
  | none => rfl
  | some s =>
    rw [Event.lapse, h]
    exact if_neg fun h => Bool.false_ne_true h.1

/-! ## Idle timers of send sessions -/

section

variable {k : UInt8} {e : Event}

lemma procAckAllSse_idleTimeout (now : ℤ) (fh : FrmHdr) (mh : MsgHdr) (se : Sse) :
    (procAckAllSse now fh mh se).1.idleTimeout = se.idleTimeout := by
  rcases procAckAllSse_cases now fh mh se with ⟨-, h⟩ | ⟨_, _, -, -, -, -, h⟩
  · rw [h]
  · rw [h, tryLowerSend_idleTimeout]

lemma procAckPartSse_idleTimeout (now : ℤ) (stack : Stack) (fh : FrmHdr) (mh : MsgHdr)
    (data : Bytes) (se : Sse) :
    (procAckPartSse now stack fh mh data se).1.idleTimeout = se.idleTimeout := by
  rcases procAckPartSse_cases now stack fh mh data se with ⟨-, h⟩ | ⟨_, _, -, -, -, -, h⟩ <;>
    rw [h]

lemma upperSendSse_idleTimeout (now : ℤ) (stack : Stack) (smac dmac : UInt8) (msg : Bytes)
    (se : Sse) : (upperSendSse now stack smac dmac msg se).1.1.idleTimeout = se.idleTimeout := by
  rw [upperSendSse]
  split
  · rfl
  · rw [tryLowerSend_idleTimeout]

lemma procSseAckTimeout_idleTimeout (now : ℤ) (stack : Stack) {se : Sse} (hne : se.pktList ≠ []) :
    (procSseAckTimeout now stack se).1.idleTimeout = now + idleTimeout := by
  obtain ⟨pkt, pkts, hlist⟩ := List.exists_cons_of_ne_nil hne
  rcases procSseAckTimeout_cases now stack hlist with ⟨-, h⟩ | ⟨-, -, h⟩ | ⟨-, -, h⟩
  · rw [h]
  · rw [h, tryLowerSend_idleTimeout]
  · rw [h, tryLowerSend_idleTimeout]

/-- A handler behind the look-up uses the session that it finds. -/
lemma onSse_used {handler : Sse → Sse × List Bytes}
    (hhandler : ∀ se, (handler se).1.idleTimeout = se.idleTimeout) {now : ℤ} {o : Option Sse}
    (ho : o.isSome = true) :
    ∃ se, (onSse now handler o).1 = some se ∧ se.idleTimeout = now + idleTimeout := by
  obtain ⟨se, rfl⟩ := Option.isSome_iff_exists.1 ho
  exact ⟨_, rfl, hhandler _⟩

/-- A use of a send session sets its idle timer. -/
lemma stepSse_used {o : Option Sse} (hsound : ∀ se, o = some se → SseSound k se)
    (huse : usesSse k e o = true) :
    ∃ se, (stepSse k e o).1 = some se ∧ se.idleTimeout = e.now + idleTimeout := by
  rw [usesSse] at huse
  cases hop : e.op with
  | upperSend smac dmac msg =>
    simp only [hop, decide_eq_true_eq] at huse
    simp only [stepSse, hop, huse, and_self, if_true, ne_eq, not_false_eq_true, Option.some.injEq,
      exists_eq_left', upperSendSse_idleTimeout]
    cases o <;> rfl
  | lowerPut raw =>
    simp only [hop] at huse
    cases haccept : accept raw with
    | none => simp [haccept] at huse
    | some a =>
      cases a <;> simp only [haccept, Bool.false_eq_true, Bool.and_eq_true, beq_iff_eq] at huse
      · simp only [stepSse, hop, haccept, if_pos huse.1]
        exact onSse_used (procAckAllSse_idleTimeout _ _ _) huse.2
      · simp only [stepSse, hop, haccept, if_pos huse.1]
        exact onSse_used (procAckPartSse_idleTimeout _ _ _ _ _) huse.2
  | procTimer =>
    simp only [hop] at huse
    obtain ⟨se, rfl, hdue⟩ := (Option.any_eq_true _ _).1 huse
    have hne := (hsound se rfl).ne_nil_of_due hdue
    simp only [stepSse, hop, tickSse_due hdue hne]
    exact ⟨_, rfl, procSseAckTimeout_idleTimeout _ _ hne⟩

/-- What is not a use leaves a send session alone, but for the timer that frees it. -/
lemma stepSse_unused {o : Option Sse} (huse : usesSse k e o = false) :
    (stepSse k e o).1 = e.lapse Sse.idleTimeout o := by
  rw [usesSse] at huse
  cases hop : e.op with
  | upperSend smac dmac msg =>
    simp only [hop, decide_eq_false_iff_not] at huse
    rw [lapse_of_not_timer (by simp only [Event.isTimer, hop])]
    simp only [stepSse, hop, if_neg huse]
  | lowerPut raw =>
    simp only [hop] at huse
    rw [lapse_of_not_timer (by simp only [Event.isTimer, hop])]
    cases haccept : accept raw with
    | none => simp only [stepSse, hop, haccept]
    | some a =>
      cases a <;> simp only [stepSse, hop, haccept]
      all_goals
        simp only [haccept, Bool.and_eq_false_iff, beq_eq_false_iff_ne,
          Option.isSome_eq_false_iff, Option.isNone_iff_eq_none] at huse
        rcases huse with hsrc | rfl
        · rw [if_neg hsrc]
        · split_ifs <;> rfl
  | procTimer =>
    cases o with
    | none => simp only [stepSse, hop, tickSse, Event.lapse]
    | some se =>
      simp only [hop, Option.any_some] at huse
      have hdue : ¬ se.due e.now = true := Bool.not_eq_true _ ▸ huse
      simp only [stepSse, hop, tickSse_not_due _ hdue, Event.lapse, Event.isTimer, true_and,
        ge_iff_le]

end

/-! ## Idle timers of receive sessions -/

section

variable {k : UInt8} {e : Event}

lemma cpSliceToRse_idleTimeout (se : Rse) (s : Bytes) :
    (cpSliceToRse se s).1.idleTimeout = se.idleTimeout := by
  rw [cpSliceToRse]
  split_ifs <;> rfl

lemma patchRse_idleTimeout (se : Rse) (data : Bytes) (n : ℕ) :
    (patchRse se data n).1.idleTimeout = se.idleTimeout := by
  induction n generalizing se data with
  | zero => rfl
  | succ n ih =>
    rw [patchRse]
    exact (ih _ _).trans (cpSliceToRse_idleTimeout se _)

lemma finishRse_idleTimeout (stack : Stack) (fh : FrmHdr) (se : Rse) :
    (finishRse stack fh se).se.idleTimeout = se.idleTimeout := by
  rw [finishRse]
  split_ifs <;> rfl

lemma procDataRse_idleTimeout (stack : Stack) (fh : FrmHdr) (mh : MsgHdr) (data : Bytes)
    (se : Rse) : (procDataRse stack fh mh data se).se.idleTimeout = se.idleTimeout := by
  rw [procDataRse]
  simp only
  split_ifs
  · exact (finishRse_idleTimeout _ _ _).trans (patchRse_idleTimeout _ _ _)
  · exact patchRse_idleTimeout _ _ _

lemma procAckReqRse_idleTimeout (stack : Stack) (fh : FrmHdr) (mh : MsgHdr) (se : Rse) :
    (procAckReqRse stack fh mh se).se.idleTimeout = se.idleTimeout := by
  rw [procAckReqRse]
  split_ifs <;> rfl

lemma procPatchRse_idleTimeout (stack : Stack) (fh : FrmHdr) (mh : MsgHdr) (data : Bytes)
    (se : Rse) : (procPatchRse stack fh mh data se).se.idleTimeout = se.idleTimeout := by
  simp only [procPatchRse]
  generalize (if (UInt8.ofNat (data.length / sliceLen)).toNat > mh.len.toNat then mh.len.toUInt8
    else UInt8.ofNat (data.length / sliceLen)) = nSlices
  split_ifs
  · rfl
  · exact (finishRse_idleTimeout _ _ _).trans (patchRse_idleTimeout _ _ _)
  · exact patchRse_idleTimeout _ _ _
  · rfl

/-- A use of a receive session sets its idle timer. -/
lemma stepPeer_used {sse : Option Sse} {o : Option Rse} (huse : usesRse k e o = true) :
    ∃ se, (stepPeer k e (sse, o)).1.2 = some se ∧ se.idleTimeout = e.now + idleTimeout := by
  rw [usesRse] at huse
  cases hop : e.op with
  | upperSend smac dmac msg => simp [hop] at huse
  | procTimer => simp [hop] at huse
  | lowerPut raw =>
    simp only [hop] at huse
    cases haccept : accept raw with
    | none => simp [haccept] at huse
    | some a =>
      cases a <;> simp only [haccept, Bool.false_eq_true, Bool.and_eq_true, beq_iff_eq] at huse
      · subst huse
        simp only [stepPeer, hop, haccept, Accepted.src, if_true, Received.part,
          Option.some.injEq, exists_eq_left', procDataRse_idleTimeout]
        cases o <;> rfl
      all_goals
        obtain ⟨rfl, ho⟩ := huse
        obtain ⟨se, rfl⟩ := Option.isSome_iff_exists.1 ho
        simp only [stepPeer, hop, haccept, Accepted.src, if_true, Received.part,
          Option.some.injEq, exists_eq_left', procAckReqRse_idleTimeout, procPatchRse_idleTimeout]

/-- What is not a use leaves a receive session alone, but for the timer that frees it. -/
lemma stepPeer_unused {sse : Option Sse} {o : Option Rse} (huse : usesRse k e o = false) :
    (stepPeer k e (sse, o)).1.2 = e.lapse Rse.idleTimeout o := by
  rw [usesRse] at huse
  cases hop : e.op with
  | upperSend smac dmac msg =>
    rw [lapse_of_not_timer (by simp only [Event.isTimer, hop])]
    simp only [stepPeer, hop]
    split_ifs <;> rfl
  | lowerPut raw =>
    simp only [hop] at huse
    rw [lapse_of_not_timer (by simp only [Event.isTimer, hop])]
    cases haccept : accept raw with
    | none => simp only [stepPeer, hop, haccept]
    | some a =>
      by_cases hsrc : a.src = k
      · subst hsrc
        cases a
        · simp [haccept, Accepted.src] at huse
        all_goals
          cases sse <;> cases o <;>
            simp [haccept, Accepted.src] at huse <;>
              simp only [stepPeer, hop, haccept, Accepted.src, if_true]
      · simp only [stepPeer, hop, haccept, if_neg hsrc]
  | procTimer =>
    simp only [stepPeer, hop]
    cases o with
    | none => rfl
    | some se => simp only [tickRse, Event.lapse, Event.isTimer, hop, true_and, ge_iff_le]

end

/-! ## Runs -/

/-- A session is leased, if a use sets its idle timer and only the timer frees it. -/
lemma leased_of_step {σ : Type*} {thing : List Event → Option σ} {uses : Event → Option σ → Bool}
    {expiry : σ → ℤ} (hstart : thing [] = none)
    (hused : ∀ es e, uses e (thing es) = true →
      ∃ s, thing (es ++ [e]) = some s ∧ expiry s = e.now + idleTimeout)
    (hunused : ∀ es e, uses e (thing es) = false →
      thing (es ++ [e]) = e.lapse expiry (thing es)) :
    Leased Event.now (fun es e => uses e (thing es)) Event.isTimer idleTimeout thing expiry where
  start := hstart
  used := hused
  absent es e huse hnone := by
    rw [hunused es e huse, hnone]
    rfl
  kept es e s huse hs hcheck := by
    refine ⟨s, ?_, rfl⟩
    rw [hunused es e huse, hs, Event.lapse]
    exact if_neg fun h => Int.not_le.2 (hcheck h.1) h.2
  expired es e s huse hs hcheck hend := by
    rw [hunused es e huse, hs, Event.lapse]
    exact if_pos ⟨hcheck, hend⟩

lemma sse_leased (k : UInt8) :
    Leased Event.now (fun es e => usesSse k e ((run es).sse k)) Event.isTimer idleTimeout
      (fun es => (run es).sse k) Sse.idleTimeout := by
  refine leased_of_step rfl (fun es e huse => ?_) fun es e huse => ?_
  · rw [run_concat, (sessions_step _ e).sse]
    exact stepSse_used (sseSound_run es k) huse
  · rw [run_concat, (sessions_step _ e).sse]
    exact stepSse_unused huse

lemma rse_leased (k : UInt8) :
    Leased Event.now (fun es e => usesRse k e ((run es).rse k)) Event.isTimer idleTimeout
      (fun es => (run es).rse k) Rse.idleTimeout := by
  have hstep : ∀ es e, (run (es ++ [e])).rse k =
      (stepPeer k e ((run es).sse k, (run es).rse k)).1.2 := by
    intro es e
    rw [run_concat]
    exact congrArg Prod.snd ((peers_step (run es) e).sessions k)
  refine leased_of_step rfl (fun es e huse => ?_) fun es e huse => ?_
  · rw [hstep]
    exact stepPeer_used huse
  · rw [hstep]
    exact stepPeer_unused huse

/-- **How long sessions live.**  After any run, a session that was last used at `t` is there with
its idle timer at `t + IDLE_TIMEOUT`, unless `proc_timer` was called at that time or later; and
there are no other sessions. -/
theorem sessions_leased (k : UInt8) (es : List Event) (t : ℤ) :
    ((∃ se, (run es).sse k = some se ∧ se.idleTimeout = t + idleTimeout) ↔
      Lease Event.now (fun es e => usesSse k e ((run es).sse k)) Event.isTimer idleTimeout es t) ∧
    ((∃ se, (run es).rse k = some se ∧ se.idleTimeout = t + idleTimeout) ↔
      Lease Event.now (fun es e => usesRse k e ((run es).rse k)) Event.isTimer idleTimeout es t) :=
  ⟨(sse_leased k).lease_iff es t, (rse_leased k).lease_iff es t⟩

end Ipcf
