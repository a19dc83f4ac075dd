import Ipcf.Framework.Fold
import Ipcf.Split.Packet
import Mathlib.Data.List.Induction
import Mathlib.Data.List.Nodup

/-!
# Runs of one endpoint

A run is a list of events: the calls of `upper_send`, `lower_put` and `proc_timer`, each with the
time at which it happens and the contents of the uninitialised arrays it finds.  `run` is the
state after it, from `split_init` on.

`proc_timer` is reduced to its effect on one session (`tickSse`, `tickRse`): the loop visits every
key once and looks at nothing but the session of that key, so `procTimer_sse` and
`procTimer_lowerSendList` describe it key by key.
-/

namespace Ipcf

inductive Op
  | upperSend (smac dmac : UInt8) (msg : Bytes)
  | lowerPut (raw : Bytes)
  | procTimer

/-- A call, the time of it, and the local arrays it finds; only `proc_timer` can queue several
frames, and it queues at most one for each key. -/
structure Event where
  now : ℤ
  stack : UInt8 → Stack
  op : Op

def Split.step (s : Split) (e : Event) : Split :=
  match e.op with
  | .upperSend smac dmac msg => (upperSend e.now (e.stack 0) smac dmac msg s).1
  | .lowerPut raw => (lowerPut e.now (e.stack 0) raw s).1
  | .procTimer => procTimer e.now e.stack s

/-- The state after the events, from `split_init` on. -/
def run (es : List Event) : Split := es.foldl Split.step splitInit

@[simp] lemma run_nil : run [] = splitInit := rfl

@[simp] lemma run_concat (es : List Event) (e : Event) : run (es ++ [e]) = (run es).step e := by
  simp [run]

/-- An invariant of every run whose events meet `P`. -/
lemma run_induction (Inv : Split → Prop) {P : Event → Prop} (hinit : Inv splitInit)
    (hstep : ∀ s e, P e → Inv s → Inv (s.step e)) (es : List Event) (hes : ∀ e ∈ es, P e) :
    Inv (run es) := by
  induction es using List.reverseRecOn with
  | nil => exact hinit
  | append_singleton es e ih =>
    rw [run_concat]
    exact hstep _ _ (hes e (by simp)) (ih fun e' he' => hes e' (by simp [he']))

section

variable {s : Split} {e : Event}

lemma step_upperSend {smac dmac : UInt8} {msg : Bytes} (hop : e.op = .upperSend smac dmac msg) :
    s.step e = (upperSend e.now (e.stack 0) smac dmac msg s).1 := by
  rw [Split.step, hop]

lemma step_procTimer (hop : e.op = .procTimer) : s.step e = procTimer e.now e.stack s := by
  rw [Split.step, hop]

/-- Bytes that no handler accepts change nothing. -/
lemma step_rejected {raw : Bytes} (hop : e.op = .lowerPut raw) (h : accept raw = none) :
    s.step e = s := by
  rw [Split.step, hop]
  simp only [lowerPut_eq, h]

lemma step_accepted {raw : Bytes} {a : Accepted} (hop : e.op = .lowerPut raw)
    (h : accept raw = some a) : s.step e = s.act e.now (e.stack 0) a := by
  rw [Split.step, hop]
  simp only [lowerPut_eq, h]

end

/-- The number of packets in the queue for `k`. -/
def queueLen (k : UInt8) (a : Split) : ℕ := ((a.sse k).map fun se => se.pktList.length).getD 0

/-! ## The timer, one session at a time -/

/-- What `proc_timer` does to the send session of one key, and what it queues for it. -/
def tickSse (now : ℤ) (stack : Stack) : Option Sse → Option Sse × List Bytes
  | none => (none, [])
  | some se =>
    let r := if se.ackTimeout > 0 ∧ now ≥ se.ackTimeout then procSseAckTimeout now stack se
      else (se, [])
    (if now ≥ r.1.idleTimeout then none else some r.1, r.2)

/-- What `proc_timer` does to the receive session of one key. -/
def tickRse (now : ℤ) : Option Rse → Option Rse
  | none => none
  | some se => if now ≥ se.idleTimeout then none else some se

lemma procTimerSse_eq (now : ℤ) (stack : UInt8 → Stack) (s : Split) (i : UInt8) :
    procTimerSse now stack s i =
      { s with
        sse := Function.update s.sse i (tickSse now (stack i) (s.sse i)).1
        lowerSendList := s.lowerSendList ++ (tickSse now (stack i) (s.sse i)).2 } := by
  unfold procTimerSse tickSse
  cases h : s.sse i with
  | none =>
    have : Function.update s.sse i none = s.sse := by
      rw [← h, Function.update_eq_self]
    simp [this]
  | some se => rfl

lemma procTimerRse_eq (now : ℤ) (s : Split) (i : UInt8) :
    procTimerRse now s i =
      { s with rse := Function.update s.rse i (tickRse now (s.rse i)) } := by
  unfold procTimerRse tickRse
  cases h : s.rse i with
  | none =>
    have : Function.update s.rse i none = s.rse := by
      rw [← h, Function.update_eq_self]
    simp [this]
  | some se => rfl

lemma mem_macs (k : UInt8) : k ∈ macs := by
  rw [macs, List.mem_map]
  exact ⟨k.toNat, List.mem_range.2 k.toNat_lt, by simp⟩

lemma nodup_macs : macs.Nodup := by
  apply List.Nodup.map_on _ List.nodup_range
  intro i hi j hj h
  have h' := congrArg UInt8.toNat h
  rw [List.mem_range] at hi hj
  simp only [UInt8.toNat_ofNat'] at h'
  omega

section

variable (now : ℤ) (stack : UInt8 → Stack) (s : Split)

lemma procTimerSse_sse (s : Split) (i k : UInt8) :
    (procTimerSse now stack s i).sse k =
      if k = i then (tickSse now (stack i) (s.sse i)).1 else s.sse k := by
  rw [procTimerSse_eq]
  simp only [Function.update_apply]

/-- The send sessions in the middle of the first loop. -/
lemma foldl_procTimerSse_sse {keys : List UInt8} (hkeys : keys.Nodup) (k : UInt8) :
    (keys.foldl (procTimerSse now stack) s).sse k =
      if k ∈ keys then (tickSse now (stack k) (s.sse k)).1 else s.sse k :=
  foldl_entry Split.sse (fun i o => (tickSse now (stack i) o).1) (procTimerSse_sse now stack) hkeys
    s k

@[simp] lemma procTimer_sse (k : UInt8) :
    (procTimer now stack s).sse k = (tickSse now (stack k) (s.sse k)).1 := by
  have hrse : ∀ s i, (procTimerRse now s i).sse = s.sse := by
    intro s i
    rw [procTimerRse_eq]
  rw [procTimer, foldl_const Split.sse hrse, foldl_procTimerSse_sse now stack s nodup_macs,
    if_pos (mem_macs k)]

@[simp] lemma procTimer_rse (k : UInt8) :
    (procTimer now stack s).rse k = tickRse now (s.rse k) := by
  have hsse : ∀ s i, (procTimerSse now stack s i).rse = s.rse := by
    intro s i
    rw [procTimerSse_eq]
  have hbody : ∀ s i k, (procTimerRse now s i).rse k =
      if k = i then tickRse now (s.rse i) else s.rse k := by
    intro s i k
    rw [procTimerRse_eq]
    simp only [Function.update_apply]
  rw [procTimer, foldl_entry Split.rse (fun _ => tickRse now) hbody nodup_macs, if_pos (mem_macs k),
    foldl_const Split.rse hsse]

@[simp] lemma procTimer_lowerSendList :
    (procTimer now stack s).lowerSendList =
      s.lowerSendList ++ macs.flatMap fun i => (tickSse now (stack i) (s.sse i)).2 := by
  have hrse : ∀ s i, (procTimerRse now s i).lowerSendList = s.lowerSendList := by
    intro s i
    rw [procTimerRse_eq]
  have hout : ∀ s i, (procTimerSse now stack s i).lowerSendList =
      s.lowerSendList ++ (tickSse now (stack i) (s.sse i)).2 := by
    intro s i
    rw [procTimerSse_eq]
  rw [procTimer, foldl_const Split.lowerSendList hrse, foldl_output Split.sse
    (fun i o => (tickSse now (stack i) o).1) Split.lowerSendList
    (fun i o => (tickSse now (stack i) o).2) (procTimerSse_sse now stack) hout nodup_macs]

@[simp] lemma procTimer_upperRecvList :
    (procTimer now stack s).upperRecvList = s.upperRecvList := by
  rw [procTimer, foldl_const Split.upperRecvList, foldl_const Split.upperRecvList]
  · intro s i
    rw [procTimerSse_eq]
  · intro s i
    rw [procTimerRse_eq]

/-- Where there are no send sessions the timer only frees receive sessions. -/
lemma procTimer_of_noSse {s : Split} (h : ∀ k, s.sse k = none) :
    (∀ k, (procTimer now stack s).sse k = none) ∧
      (procTimer now stack s).lowerSendList = s.lowerSendList ∧
      ∀ k se, (procTimer now stack s).rse k = some se → s.rse k = some se := by
  have hnone : ∀ k, tickSse now (stack k) (s.sse k) = (none, []) := by
    intro k
    rw [h k]
    rfl
  refine ⟨fun k => ?_, ?_, fun k se hse => ?_⟩
  · rw [procTimer_sse, hnone]
  · rw [procTimer_lowerSendList]
    simp [hnone]
  · rw [procTimer_rse] at hse
    cases hget : s.rse k with
    | none =>
      rw [hget] at hse
      cases hse
    | some se' =>
      rw [hget, tickRse] at hse
      split_ifs at hse
      exact hse

@[simp] lemma procTimer_accesses : (procTimer now stack s).accesses = s.accesses := by
  rw [procTimer, foldl_const Split.accesses, foldl_const Split.accesses]
  · intro s i
    rw [procTimerSse_eq]
  · intro s i
    rw [procTimerRse_eq]

end

/-! ## Calls of the upper layer -/

lemma upperSend_nil (now : ℤ) (stack : Stack) (smac dmac : UInt8) (s : Split) :
    upperSend now stack smac dmac [] s = (s, -1) := rfl

/-- A message that is not empty is accepted, at least in part, by the session of its receiver,
which is made if it does not exist. -/
lemma upperSend_spec (now : ℤ) (stack : Stack) (smac dmac : UInt8) {msg : Bytes} (hmsg : msg ≠ [])
    (s : Split) :
    ∃ (se : Sse) (p : Packet) (pkt : SendNode),
      se = (getSse now dmac s).getD (createSse now) ∧
      upperSend now stack smac dmac msg s =
        (s.sent dmac (tryLowerSend now
          { se with seq := se.seq + 1, pktList := se.pktList ++ [pkt] }), (p.payload.length : ℤ)) ∧
      p.seq = se.seq ∧ p.payload = msg.take p.payload.length ∧ pkt.Carries smac dmac p := by
  obtain ⟨p, pkt, hret, hseq, htake, hcarries⟩ := upperSendSse_spec now stack smac dmac hmsg
    ((getSse now dmac s).getD (createSse now))
  refine ⟨_, p, pkt, rfl, ?_, hseq, htake, hcarries⟩
  have hlen : ¬ msg.length ≤ 0 := Nat.not_le.2 (List.length_pos_iff.2 hmsg)
  rw [upperSend, if_neg hlen, hret]

/-! ## Calls of the lower layer -/

/-- What `lower_fetch` takes from the front of the list, or nothing. -/
lemma lowerFetch_spec (len : ℕ) (s : Split) :
    (lowerFetch len s).1 = { s with lowerSendList := s.lowerSendList.tail } ∧
      ((lowerFetch len s).2.1 = [] ∨ (lowerFetch len s).2.1 ∈ s.lowerSendList) := by
  unfold lowerFetch
  cases hlist : s.lowerSendList with
  | nil =>
    refine ⟨?_, .inl rfl⟩
    cases s
    simp only at hlist
    simp [hlist]
  | cons f fs =>
    simp only
    split_ifs
    · exact ⟨rfl, .inr (List.mem_cons_self ..)⟩
    · exact ⟨rfl, .inl rfl⟩

/-! ## Sessions touched by one call -/

section

variable (s : Split) (k : UInt8)

@[simp] lemma sent_sse (r : Sse × List Bytes) (i : UInt8) :
    (s.sent k r).sse i = if i = k then some r.1 else s.sse i := by
  simp only [Split.sent, Function.update_apply]

@[simp] lemma sent_rse (r : Sse × List Bytes) : (s.sent k r).rse = s.rse := rfl

@[simp] lemma sent_lowerSendList (r : Sse × List Bytes) :
    (s.sent k r).lowerSendList = s.lowerSendList ++ r.2 := rfl

@[simp] lemma sent_upperRecvList (r : Sse × List Bytes) :
    (s.sent k r).upperRecvList = s.upperRecvList := rfl

@[simp] lemma sent_accesses (r : Sse × List Bytes) : (s.sent k r).accesses = s.accesses := rfl

@[simp] lemma received_sse (r : Received) : (s.received k r).sse = s.sse := rfl

@[simp] lemma received_rse (r : Received) (i : UInt8) :
    (s.received k r).rse i = if i = k then some r.se else s.rse i := by
  simp only [Split.received, Function.update_apply]

@[simp] lemma received_lowerSendList (r : Received) :
    (s.received k r).lowerSendList = s.lowerSendList ++ r.queued := rfl

@[simp] lemma received_upperRecvList (r : Received) :
    (s.received k r).upperRecvList = s.upperRecvList ++ r.submitted := rfl

@[simp] lemma received_accesses (r : Received) :
    (s.received k r).accesses = s.accesses ++ r.accesses := rfl

end

end Ipcf
