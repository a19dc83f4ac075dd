import Ipcf.Split.Lifetime
import Ipcf.Split.Retry

/-!
# When nobody answers

A packet is given up at its 36-th acknowledgement timeout if its receiver never asks for slices.
`work` is how many more timeouts it takes until the queue of a session is empty: while the peer does
not acknowledge anything, a timeout takes one off and a message puts 36 on, whatever else happens
(`work_silent`).  And if `proc_timer` is called at times `ACK_TIMEOUT` or more apart, every call is
a timeout as long as there is work (`silent_peer`).

So nothing is kept for ever: once nobody sends anything any more, the calls of `proc_timer` empty
all queues, and a last one, when `IDLE_TIMEOUT` has passed, frees all sessions (`quiet_forgets`).
-/

namespace Ipcf

/-- The event is an acknowledgement from `k`. -/
def Event.answers (k : UInt8) (e : Event) : Bool :=
  match e.op with
  | .lowerPut raw =>
    match accept raw with
    | some (.ackAll fh _) | some (.ackPart fh _ _) => fh.src == k
    | _ => false
  | _ => false

/-- The number of timeouts after which a packet is given up. -/
def timeoutsEach : ℕ := (maxRetryTimes + 1) ^ 2

def Sse.work (se : Sse) : ℕ :=
  timeoutsEach * se.pktList.length - ((maxRetryTimes + 1) * se.dataRetry + se.ackRetry)

/-- The number of timeouts until the queue of a session is empty. -/
def work (o : Option Sse) : ℕ := (o.map Sse.work).getD 0

/-- The number of acknowledgement timeouts of the session of `k` during `es'`, after `es`. -/
def timeoutsDuring (k : UInt8) : (es es' : List Event) → ℕ
  | _, [] => 0
  | es, e :: es' => timeouts (heard k e ((run es).sse k)) + timeoutsDuring k (es ++ [e]) es'

section

variable {k : UInt8} {e : Event} {o o' : Option Sse} {accepts : Bool} {hs ss : List Happening}
  {se : Sse}

/-! ## Work -/

@[simp] lemma work_none : work none = 0 := rfl

@[simp] lemma work_some (se : Sse) : work (some se) = se.work := rfl

@[simp] lemma Sse.work_restart (se : Sse) (now : ℤ) (pkts : List SendNode) :
    (se.restart now pkts).work = timeoutsEach * pkts.length := by
  simp [Sse.work, Sse.restart]

/-- The retries of the packet in front are less than it is given. -/
lemma SseSound.work_add (h : SseSound k se) :
    se.work + ((maxRetryTimes + 1) * se.dataRetry + se.ackRetry) =
      timeoutsEach * se.pktList.length := by
  cases hlist : se.pktList with
  | nil => simp [Sse.work, hlist, h.empty hlist]
  | cons pkt pkts =>
    have hdata := h.dataRetry_le
    have hack := h.ackRetry_le
    simp only [Sse.work, hlist, List.length_cons, timeoutsEach, maxRetryTimes] at *
    omega

/-- The packets that are left are the work that is left, rounded up. -/
lemma pending_eq (h : ∀ se, o = some se → SseSound k se) :
    pending o = (work o + (timeoutsEach - 1)) / timeoutsEach := by
  cases o with
  | none => rfl
  | some se =>
    have hadd := (h se rfl).work_add
    have hdata := (h se rfl).dataRetry_le
    have hack := (h se rfl).ackRetry_le
    change se.pktList.length = _
    rcases Nat.eq_zero_or_pos se.pktList.length with hlen | hlen
    · rw [hlen] at hadd ⊢
      simp only [work_some, timeoutsEach, maxRetryTimes] at *
      omega
    · simp only [work_some, timeoutsEach, maxRetryTimes] at *
      omega

lemma pending_eq_zero_iff (h : ∀ se, o = some se → SseSound k se) : pending o = 0 ↔ work o = 0 := by
  rw [pending_eq h]
  simp only [timeoutsEach, maxRetryTimes]
  omega

/-! ## One event -/

/-- `proc_timer`: one timeout less. -/
lemma SseChange.work_timer (h : SseChange k e o o' accepts hs ss) (hop : e.op = .procTimer)
    (hsound : ∀ se, o = some se → SseSound k se) (hfreed : o' = none → work o = 0) :
    work o' + timeouts hs = work o := by
  cases h with
  | absent => rfl
  | kept => rfl
  | freed => exact (hfreed rfl).symm
  | started h => exact absurd hop h
  | appended _ h => exact absurd hop h
  | acked _ h => exact absurd hop h
  | partAcked _ h => exact absurd hop h
  | @asked se _ _ _ hne _ =>
    have hadd := (hsound se rfl).work_add
    have hlen := List.length_pos_iff.2 hne
    have hdata := (hsound se rfl).dataRetry_le
    change timeoutsEach * se.pktList.length -
      ((maxRetryTimes + 1) * se.dataRetry + (se.ackRetry + 1)) + 1 = se.work
    simp only [timeoutsEach, maxRetryTimes] at *
    omega
  | @resent se _ _ _ hne hack hdata =>
    have hadd := (hsound se rfl).work_add
    have hlen := List.length_pos_iff.2 hne
    change timeoutsEach * se.pktList.length -
      ((maxRetryTimes + 1) * (se.dataRetry + 1) + 0) + 1 = se.work
    simp only [timeoutsEach, maxRetryTimes] at *
    omega
  | @dropped se pkt pkts _ _ _ hlist hack hdata =>
    have hadd := (hsound se rfl).work_add
    change (se.restart e.now pkts).work + 1 = se.work
    rw [Sse.work_restart]
    rw [hlist, hack, hdata, List.length_cons] at hadd
    simp only [timeoutsEach, maxRetryTimes] at *
    omega

/-- A message: 36 timeouts more. -/
lemma SseChange.work_accepts (h : SseChange k e o o' true hs ss)
    (hsound : ∀ se, o = some se → SseSound k se) :
    work o' + timeouts hs = work o + timeoutsEach := by
  cases h with
  | @started _ se pkt _ hbase hnil _ =>
    have hwork : work o = 0 := by
      rcases hbase with ⟨rfl, -⟩ | ⟨se', t, rfl, rfl⟩
      · rfl
      · have hnil' : se'.pktList = [] := hnil
        rw [work_some, Sse.work, hnil', List.length_nil, Nat.mul_zero, Nat.zero_sub]
    rw [hwork]
    rfl
  | @appended se pkt _ _ hne _ =>
    have hadd := (hsound se rfl).work_add
    have hlen := List.length_pos_iff.2 hne
    have hdata := (hsound se rfl).dataRetry_le
    have hack := (hsound se rfl).ackRetry_le
    change timeoutsEach * (se.pktList ++ [pkt]).length -
      ((maxRetryTimes + 1) * se.dataRetry + se.ackRetry) + 0 = se.work + timeoutsEach
    rw [List.length_append, List.length_singleton]
    simp only [timeoutsEach, maxRetryTimes] at *
    omega

/-- Nothing else is of concern to a session that gets no answer. -/
lemma stepSse_silent (hop : e.op ≠ .procTimer) (hsends : e.sendsTo k = false)
    (hsilent : e.answers k = false) (o : Option Sse) :
    (stepSse k e o).1 = o ∧ heard k e o = [] := by
  cases hop' : e.op with
  | procTimer => exact absurd hop' hop
  | upperSend smac dmac msg =>
    have hother : ¬ (dmac = k ∧ msg ≠ []) := by
      simp only [Event.sendsTo, hop'] at hsends
      rintro ⟨rfl, hmsg⟩
      cases msg with
      | nil => exact hmsg rfl
      | cons x xs => simp at hsends
    simp only [stepSse, heard, hop', if_neg hother, and_self]
  | lowerPut raw =>
    simp only [Event.answers, hop'] at hsilent
    constructor
    · cases haccept : accept raw with
      | none => simp only [stepSse, hop', haccept]
      | some a =>
        cases a <;> simp only [haccept, beq_eq_false_iff_ne] at hsilent <;>
          simp only [stepSse, hop', haccept, hsilent, if_false]
    · cases o with
      | none => simp only [heard, hop']
      | some se =>
        cases haccept : accept raw with
        | none => simp only [heard, hop', haccept]
        | some a =>
          cases a <;> simp only [haccept, beq_eq_false_iff_ne] at hsilent <;>
            simp only [heard, hop', haccept, hsilent, false_and, if_false]

/-- A session is freed only when its queue is empty: a timeout that is due comes first. -/
lemma work_of_freed {now : ℤ} {stack : Stack} (hok : ∀ se, o = some se → SseOk se)
    (h : (tickSse now stack o).1 = none) : work o = 0 := by
  cases o with
  | none => rfl
  | some se =>
    have hnil : se.pktList = [] := by
      by_contra hne
      by_cases hdue : se.due now = true
      · rw [tickSse_due hdue hne] at h
        cases h
      · rw [tickSse_not_due stack hdue] at h
        have harmed := (hok se rfl).armed.2 hne
        have hlt := (hok se rfl).lt_idle ((hok se rfl).waiting.2 hne)
        rw [Sse.due, decide_eq_true_eq] at hdue
        split_ifs at h with hidle
        omega
    rw [work_some, Sse.work, hnil, List.length_nil, Nat.mul_zero, Nat.zero_sub]

/-- **One event**, when it is no answer. -/
lemma work_step (hsound : ∀ se, o = some se → SseSound k se) (hok : ∀ se, o = some se → SseOk se)
    (hsilent : e.answers k = false) :
    work (stepSse k e o).1 + timeouts (heard k e o) =
      work o + timeoutsEach * (e.sendsTo k).toNat := by
  by_cases hop : e.op = .procTimer
  · have hsends : e.sendsTo k = false := by simp only [Event.sendsTo, hop]
    rw [hsends, Bool.toNat_false, Nat.mul_zero, Nat.add_zero]
    refine (sseChange_procTimer hop hsound).work_timer hop hsound fun hnone => ?_
    simp only [stepSse, hop] at hnone
    exact work_of_freed hok hnone
  · cases hsends : e.sendsTo k with
    | true =>
      have hchange := sseChange_stepSse k e hsound
      rw [hsends] at hchange
      rw [Bool.toNat_true, Nat.mul_one]
      exact hchange.work_accepts hsound
    | false =>
      obtain ⟨hsame, hheard⟩ := stepSse_silent hop hsends hsilent o
      rw [hsame, hheard]
      rfl

end

/-! ## Runs -/

section

variable {k : UInt8} {es es' : List Event} {e : Event}

lemma sseOk_run (hclock : Clocked es) (k : UInt8) :
    ∀ se, (run es).sse k = some se → SseOk se := by
  intro se hse
  obtain ⟨now, hinv⟩ := exists_sendInv_run es hclock
  exact (hinv k se hse).toSseOk

lemma Clocked.prefix (h : Clocked (es ++ es')) : Clocked es :=
  ⟨(List.pairwise_append.1 h.1).1, fun e he => h.2 e (List.mem_append_left _ he)⟩

lemma work_run (hclock : Clocked es) (hsilent : e.answers k = false) :
    work ((run (es ++ [e])).sse k) + timeouts (heard k e ((run es).sse k)) =
      work ((run es).sse k) + timeoutsEach * (e.sendsTo k).toNat := by
  rw [run_concat, (sessions_step _ e).sse]
  exact work_step (sseSound_run es k) (sseOk_run hclock k) hsilent

end

/-- **The accounts of a silent peer.**  While `k` acknowledges nothing, every acknowledgement
timeout of its session takes one off the work, and every message for `k` puts 36 on; nothing else
counts. -/
theorem work_silent (k : UInt8) (es es' : List Event) (hclock : Clocked (es ++ es'))
    (hsilent : ∀ e ∈ es', e.answers k = false) :
    work ((run (es ++ es')).sse k) + timeoutsDuring k es es' =
      work ((run es).sse k) + timeoutsEach * es'.countP (Event.sendsTo k) := by
  induction es' generalizing es with
  | nil => simp [timeoutsDuring]
  | cons e es' ih =>
    rw [List.append_cons] at hclock ⊢
    have hrun := ih (es ++ [e]) hclock fun e' he' => hsilent e' (List.mem_cons_of_mem _ he')
    have hstep := work_run (k := k) hclock.prefix.prefix (hsilent e List.mem_cons_self)
    rw [timeoutsDuring, List.countP_cons, Nat.mul_add]
    have htoNat : (if e.sendsTo k = true then 1 else 0) = (e.sendsTo k).toNat := by
      cases e.sendsTo k <;> rfl
    rw [htoNat]
    omega

/-- Two messages, and three timeouts. -/
theorem work_silent_twice :
    let es : List Event := [⟨1, default, .upperSend 1 2 [7]⟩, ⟨2, default, .upperSend 1 2 [8]⟩]
    let es' : List Event :=
      [⟨4000, default, .procTimer⟩, ⟨4001, default, .procTimer⟩, ⟨4002, default, .procTimer⟩]
    work ((run (es ++ es')).sse 2) + 3 = 72 := by
  have hduring : timeoutsDuring 2
      [⟨1, default, .upperSend 1 2 [7]⟩, ⟨2, default, .upperSend 1 2 [8]⟩]
      [⟨4000, default, .procTimer⟩, ⟨4001, default, .procTimer⟩, ⟨4002, default, .procTimer⟩] =
        3 := by
    decide +kernel
  have hbefore : work ((run [⟨1, default, .upperSend 1 2 [7]⟩,
      ⟨2, default, .upperSend 1 2 [8]⟩]).sse 2) = 72 := by
    decide +kernel
  have hsilent := work_silent 2
    [⟨1, default, .upperSend 1 2 [7]⟩, ⟨2, default, .upperSend 1 2 [8]⟩]
    [⟨4000, default, .procTimer⟩, ⟨4001, default, .procTimer⟩, ⟨4002, default, .procTimer⟩]
    (by simp [Clocked]) (by simp [Event.answers])
  rw [hduring, hbefore] at hsilent
  exact hsilent

/-! ## Calls of the timer that are far enough apart -/

/-- The acknowledgement timer of the session of `k` was not set after `t`. -/
def ArmedBy (k : UInt8) (t : ℤ) (o : Option Sse) : Prop :=
  ∀ se, o = some se → se.ackTimeout ≤ t + ackTimeout

section

variable {k : UInt8} {es es' : List Event} {e : Event} {t : ℤ}

lemma Event.isTimer_iff : e.isTimer = true ↔ e.op = .procTimer := by
  rw [Event.isTimer]
  cases e.op <;> simp

lemma armedBy_of_past (hclock : Clocked es) (hpast : ∀ e ∈ es, e.now ≤ t) (k : UInt8) :
    ArmedBy k t ((run es).sse k) := fun se hse => (sendInv_run es hclock hpast k se hse).recent

/-- A call of `proc_timer` at the right time is a timeout, if there is work. -/
lemma timeouts_timer {o : Option Sse} (hsound : ∀ se, o = some se → SseSound k se)
    (hok : ∀ se, o = some se → SseOk se) (harmed : ArmedBy k t o) (hop : e.op = .procTimer)
    (hspaced : t + ackTimeout ≤ e.now) : timeouts (heard k e o) = min (work o) 1 := by
  cases o with
  | none =>
    simp only [heard, hop]
    rfl
  | some se =>
    simp only [heard, hop]
    by_cases hnil : se.pktList = []
    · have hdue : ¬ se.due e.now = true := fun hdue => (hsound se rfl).ne_nil_of_due hdue hnil
      rw [if_neg hdue, work_some, Sse.work, hnil, List.length_nil, Nat.mul_zero, Nat.zero_sub]
      rfl
    · have hpos := (hok se rfl).armed.2 hnil
      have hle := harmed se rfl
      have hdue : se.due e.now = true := decide_eq_true ⟨hpos, by omega⟩
      have hwork : work (some se) ≠ 0 := fun h =>
        hnil (List.length_eq_zero_iff.1 ((pending_eq_zero_iff hsound).2 h))
      rw [if_pos hdue, Nat.min_eq_right (Nat.one_le_iff_ne_zero.2 hwork)]
      rfl

/-- And whatever it does, the timer was not set after that call. -/
lemma SseChange.armedBy {o o' : Option Sse} {accepts : Bool} {hs ss : List Happening}
    (h : SseChange k e o o' accepts hs ss) (hop : e.op = .procTimer) (hpos : 0 < e.now)
    (harmed : ArmedBy k t o) (hspaced : t + ackTimeout ≤ e.now) : ArmedBy k e.now o' := by
  rintro se' rfl
  have hack : 0 < ackTimeout := by decide
  cases h with
  | @kept se =>
    have hle := harmed se rfl
    change se.ackTimeout ≤ _
    omega
  | started h => exact absurd hop h
  | appended _ h => exact absurd hop h
  | acked _ h => exact absurd hop h
  | partAcked _ h => exact absurd hop h
  | @asked se =>
    have hle := harmed se rfl
    change se.ackTimeout ≤ _
    omega
  | resent => exact Int.le_refl _
  | @dropped se _ pkts =>
    change (if pkts.isEmpty then -1 else e.now + ackTimeout) ≤ _
    split_ifs <;> omega

lemma work_spaced (hclock : Clocked (es ++ es')) (harmed : ArmedBy k t ((run es).sse k))
    (hsilent : ∀ e ∈ es', e.answers k = false) (hsends : ∀ e ∈ es', e.sendsTo k = false)
    (hspaced : (t :: (es'.filter Event.isTimer).map Event.now).IsChain
      fun a b => a + ackTimeout ≤ b) :
    work ((run (es ++ es')).sse k) = work ((run es).sse k) - es'.countP Event.isTimer := by
  induction es' generalizing es t with
  | nil => rw [List.append_nil, List.countP_nil, Nat.sub_zero]
  | cons e es' ih =>
    have hsilent₀ := hsilent e List.mem_cons_self
    have hsends₀ := hsends e List.mem_cons_self
    have hsilent₁ : ∀ e ∈ es', e.answers k = false :=
      fun e he => hsilent e (List.mem_cons_of_mem _ he)
    have hsends₁ : ∀ e ∈ es', e.sendsTo k = false :=
      fun e he => hsends e (List.mem_cons_of_mem _ he)
    rw [List.append_cons] at hclock ⊢
    cases htimer : e.isTimer with
    | false =>
      have hop : e.op ≠ .procTimer := fun h =>
        Bool.false_ne_true (htimer.symm.trans (Event.isTimer_iff.2 h))
      have hsame : (run (es ++ [e])).sse k = (run es).sse k := by
        rw [run_concat, (sessions_step _ e).sse]
        exact (stepSse_silent hop hsends₀ hsilent₀ _).1
      rw [List.filter_cons_of_neg (by simp [htimer])] at hspaced
      rw [ih hclock (hsame ▸ harmed) hsilent₁ hsends₁ hspaced, hsame,
        List.countP_cons_of_neg (by simp [htimer])]
    | true =>
      have hop := Event.isTimer_iff.1 htimer
      rw [List.filter_cons_of_pos htimer, List.map_cons, List.isChain_cons_cons] at hspaced
      have hone := work_run (k := k) hclock.prefix.prefix hsilent₀
      rw [timeouts_timer (sseSound_run es k) (sseOk_run hclock.prefix.prefix k) harmed hop
        hspaced.1, hsends₀, Bool.toNat_false, Nat.mul_zero] at hone
      have harmed' : ArmedBy k e.now ((run (es ++ [e])).sse k) :=
        (sseChange_run es e k).armedBy hop (hclock.2 e (by simp)) harmed hspaced.1
      rw [ih hclock harmed' hsilent₁ hsends₁ hspaced.2, List.countP_cons_of_pos htimer]
      omega

end

/-- **A silent peer.**  From any state that a run can reach: if `k` does not acknowledge anything,
no message is sent to it, and the calls of `proc_timer` come `ACK_TIMEOUT` or more after what was
before and after each other, then every call takes one off the work that there is.  So a queue of
`n` packets, the first of them just sent, is empty after `36 * n` calls, and not before. -/
theorem silent_peer (k : UInt8) (es es' : List Event) (t : ℤ) (hclock : Clocked (es ++ es'))
    (hpast : ∀ e ∈ es, e.now ≤ t) (hsilent : ∀ e ∈ es', e.answers k = false)
    (hsends : ∀ e ∈ es', e.sendsTo k = false)
    (hspaced : (t :: (es'.filter Event.isTimer).map Event.now).IsChain
      fun a b => a + ackTimeout ≤ b) :
    work ((run (es ++ es')).sse k) = work ((run es).sse k) - es'.countP Event.isTimer ∧
      pending ((run (es ++ es')).sse k) =
        (work ((run es).sse k) - es'.countP Event.isTimer + (timeoutsEach - 1)) / timeoutsEach := by
  have hwork := work_spaced hclock (armedBy_of_past hclock.prefix hpast k) hsilent hsends hspaced
  refine ⟨hwork, ?_⟩
  rw [pending_eq (sseSound_run _ k), hwork]

instance (es : List Event) : Decidable (Clocked es) :=
  inferInstanceAs (Decidable (es.Pairwise _ ∧ ∀ e ∈ es, 0 < e.now))

/-- A message is sent at the time 1. -/
def oneSent : List Event := [⟨1, default, .upperSend 1 2 [7]⟩]

/-- Calls of `proc_timer`, `ACK_TIMEOUT` apart. -/
def ticks (n : ℕ) : List Event :=
  (List.range n).map fun i => ⟨1 + (i + 1) * ackTimeout, default, .procTimer⟩

lemma op_ticks {n : ℕ} {e : Event} (he : e ∈ ticks n) : e.op = .procTimer := by
  obtain ⟨i, -, rfl⟩ := List.mem_map.1 he
  rfl

lemma work_oneSent (k : UInt8) : work ((run oneSent).sse k) ≤ 36 := by
  by_cases hk : k = 2
  · rw [hk]
    decide +kernel
  · have hother : (run oneSent).sse k = none := by
      change (splitInit.step ⟨1, default, .upperSend 1 2 [7]⟩).sse k = none
      rw [(sessions_step _ _).sse]
      simp [stepSse, Ne.symm hk, splitInit]
    simp [hother]

theorem silent_peer_once : pending ((run (oneSent ++ ticks 36)).sse 2) = 0 ∧
    pending ((run (oneSent ++ ticks 35)).sse 2) = 1 := by
  have hbefore : work ((run oneSent).sse 2) = 36 := by
    decide +kernel
  have h : ∀ n, n = 35 ∨ n = 36 → pending ((run (oneSent ++ ticks n)).sse 2) =
      (36 - (ticks n).countP Event.isTimer + (timeoutsEach - 1)) / timeoutsEach := by
    intro n hn
    rw [← hbefore]
    refine (silent_peer 2 oneSent (ticks n) 1 ?_ (by decide +kernel)
      (fun e he => by simp only [Event.answers, op_ticks he])
      (fun e he => by simp only [Event.sendsTo, op_ticks he]) ?_).2
    · rcases hn with rfl | rfl <;> decide +kernel
    · rcases hn with rfl | rfl <;> decide +kernel
  rw [h 36 (.inr rfl), h 35 (.inl rfl)]
  decide +kernel

/-! ## When all is quiet -/

/-- **Nothing is kept for ever.**  From any state that a run can reach, if only `proc_timer` is
called: as many calls, `ACK_TIMEOUT` or more apart, as there is work for any peer, and one more when
`IDLE_TIMEOUT` has passed, and there is no session left. -/
theorem quiet_forgets (es calls : List Event) (last : Event) (t : ℤ)
    (hclock : Clocked (es ++ calls ++ [last])) (hpast : ∀ e ∈ es, e.now ≤ t)
    (hcalls : ∀ e ∈ calls, e.op = .procTimer)
    (hspaced : (t :: calls.map Event.now).IsChain fun a b => a + ackTimeout ≤ b)
    (hwork : ∀ k, work ((run es).sse k) ≤ calls.length) (hlast : last.op = .procTimer)
    (hidle : ∀ e ∈ es ++ calls, e.now + idleTimeout ≤ last.now) :
    ∀ k, (run (es ++ calls ++ [last])).sse k = none ∧
      (run (es ++ calls ++ [last])).rse k = none := by
  intro k
  have hfilter : calls.filter Event.isTimer = calls :=
    List.filter_eq_self.2 fun e he => Event.isTimer_iff.2 (hcalls e he)
  have hdone : work ((run (es ++ calls)).sse k) = 0 := by
    rw [work_spaced hclock.prefix (armedBy_of_past hclock.prefix.prefix hpast k)
      (fun e he => by simp only [Event.answers, hcalls e he])
      (fun e he => by simp only [Event.sendsTo, hcalls e he]) (by rw [hfilter]; exact hspaced),
      List.countP_eq_length_filter, hfilter]
    exact Nat.sub_eq_zero_of_le (hwork k)
  constructor
  · refine (sse_leased k).gone ?_ (Event.isTimer_iff.2 hlast) hidle
    simp only [usesSse, hlast]
    cases hget : (run (es ++ calls)).sse k with
    | none => rfl
    | some se =>
      have hsound := sseSound_run (es ++ calls) k
      rw [← pending_eq_zero_iff hsound, hget] at hdone
      have hnil : se.pktList = [] := List.length_eq_zero_iff.1 hdone
      rw [Option.any_some, ← Bool.not_eq_true]
      exact fun hdue => (hsound se hget).ne_nil_of_due hdue hnil
  · refine (rse_leased k).gone ?_ (Event.isTimer_iff.2 hlast) hidle
    simp only [usesRse, hlast]

theorem quiet_forgets_once :
    let s := run (oneSent ++ ticks 36 ++ [⟨1000000, default, .procTimer⟩])
    s.sse = (fun _ => none) ∧ s.rse = fun _ => none := by
  have hforgets := quiet_forgets oneSent (ticks 36) ⟨1000000, default, .procTimer⟩ 1
    (by decide +kernel) (by decide +kernel) (fun _ => op_ticks) (by decide +kernel)
    (fun k => (work_oneSent k).trans (by decide)) rfl (by decide +kernel)
  exact ⟨funext fun k => (hforgets k).1, funext fun k => (hforgets k).2⟩

end Ipcf
