import Ipcf.Split.History
import Mathlib.Data.List.DropRight

/-!
# The retry budget

A session has two counters: how often the acknowledgement of the front was asked for since the
last partial acknowledgement or the last resend, and how often the front was sent again.  What they
say about the story of the front is `Told`: while no partial acknowledgement came, they are the
digits of the number of timeouts in base `MAX_RETRY_TIMES + 1`, and in general a lower bound.

So every story is within the budget (`WithinBudget`): the headers go out at most
`MAX_RETRY_TIMES + 1` times, and the timeout that drops the packet is at least the 36-th, and
exactly the 36-th when the receiver never asked for slices.
-/

namespace Ipcf

def Happening.isTimeout : Happening → Bool
  | .timeout _ => true
  | _ => false

/-- The number of acknowledgement timeouts of a packet. -/
def timeouts (w : List Happening) : ℕ := w.countP Happening.isTimeout

/-- What has happened to a packet since the last partial acknowledgement. -/
def unanswered (w : List Happening) : List Happening := w.rtakeWhile (· ≠ .partAck)

/-- A timeout after the story `pre` drops the packet only if there were enough timeouts before it,
all in all and since the last partial acknowledgement; and if there was none, exactly then. -/
structure TimeoutOk (pre : List Happening) (drops : Bool) : Prop where
  total : drops = true → (maxRetryTimes + 1) ^ 2 ≤ timeouts pre + 1
  recent : drops = true → maxRetryTimes + 1 ≤ timeouts (unanswered pre) + 1
  exact : .partAck ∉ pre → timeouts pre + 1 ≤ (maxRetryTimes + 1) ^ 2 ∧
    (drops = true ↔ timeouts pre + 1 = (maxRetryTimes + 1) ^ 2)

/-- The story of a packet keeps to the budget. -/
structure WithinBudget (w : List Happening) : Prop where
  datas : w.count .data ≤ maxRetryTimes + 1
  dropped : ∀ pre drops post, w = pre ++ .timeout drops :: post → TimeoutOk pre drops

/-- What the counters say about the story of the packet in front. -/
structure Told (w : List Happening) (dataRetry ackRetry : ℕ) : Prop where
  datas : w.count .data = dataRetry + 1
  total : (maxRetryTimes + 1) * dataRetry + ackRetry ≤ timeouts w
  recent : ackRetry ≤ timeouts (unanswered w)
  exact : .partAck ∉ w → timeouts w = (maxRetryTimes + 1) * dataRetry + ackRetry

section

variable {w : List Happening} {dataRetry ackRetry : ℕ}

/-! ## Stories -/

@[simp] lemma timeouts_append (w w' : List Happening) :
    timeouts (w ++ w') = timeouts w + timeouts w' := List.countP_append

lemma unanswered_concat (w : List Happening) (x : Happening) :
    unanswered (w ++ [x]) = if x = .partAck then [] else unanswered w ++ [x] := by
  rw [unanswered, List.rtakeWhile_concat]
  by_cases hx : x = .partAck <;> simp [hx, unanswered]

lemma withinBudget_nil : WithinBudget [] where
  datas := Nat.zero_le _
  dropped := by simp

lemma withinBudget_concat (h : WithinBudget w) {x : Happening}
    (hdata : x = .data → w.count .data ≤ maxRetryTimes)
    (htimeout : ∀ drops, x = .timeout drops → TimeoutOk w drops) : WithinBudget (w ++ [x]) where
  datas := by
    rw [List.count_append, List.count_singleton]
    split_ifs with hx
    · have := hdata (by simpa using hx)
      omega
    · exact h.datas
  dropped := by
    intro pre drops post heq
    rcases split_concat heq with ⟨rfl, hx, -⟩ | ⟨post', -, hw⟩
    · exact htimeout drops hx.symm
    · exact h.dropped pre drops post' hw

/-- Frames other than a DATA frame, and partial acknowledgements, are free. -/
lemma withinBudget_free (h : WithinBudget w) {x : Happening} (hdata : x ≠ .data)
    (htimeout : x.isTimeout = false) : WithinBudget (w ++ [x]) :=
  withinBudget_concat h (fun hx => absurd hx hdata) fun drops hx => by
    rw [hx] at htimeout
    cases htimeout

/-! ## The counters and the story of the front -/

lemma told_started : Told [.data] 0 0 where
  datas := rfl
  total := Nat.zero_le _
  recent := Nat.zero_le _
  exact _ := rfl

lemma withinBudget_started : WithinBudget [.data] :=
  withinBudget_concat (w := []) withinBudget_nil (fun _ => Nat.zero_le _) (by simp)

lemma Told.partAcked (h : Told w dataRetry ackRetry) {sent : List Happening}
    (hsent : sent = [] ∨ sent = [.patch]) :
    Told (w ++ [Happening.partAck] ++ sent) dataRetry 0 := by
  have hcount : (w ++ [Happening.partAck] ++ sent).count .data = w.count .data := by
    rcases hsent with rfl | rfl <;> simp
  have htimeouts : timeouts (w ++ [Happening.partAck] ++ sent) = timeouts w := by
    rcases hsent with rfl | rfl <;> simp [timeouts, Happening.isTimeout]
  refine ⟨hcount.trans h.datas, ?_, Nat.zero_le _, fun hno => absurd (by simp) hno⟩
  have := h.total
  omega

lemma withinBudget_partAcked (h : WithinBudget w) {sent : List Happening}
    (hsent : sent = [] ∨ sent = [.patch]) : WithinBudget (w ++ [Happening.partAck] ++ sent) := by
  have hack := withinBudget_free h (x := .partAck) (by simp) rfl
  rcases hsent with rfl | rfl
  · simpa using hack
  · exact withinBudget_free hack (by simp) rfl

lemma Told.asked (h : Told w dataRetry ackRetry) :
    Told (w ++ [Happening.timeout false] ++ [.ackr]) dataRetry (ackRetry + 1) where
  datas := by simpa using h.datas
  total := by
    have := h.total
    simp only [timeouts_append]
    change _ ≤ timeouts w + 1 + 0
    omega
  recent := by
    have := h.recent
    rw [unanswered_concat, if_neg (by simp), unanswered_concat, if_neg (by simp)]
    simp only [timeouts_append]
    change _ ≤ timeouts (unanswered w) + 1 + 0
    omega
  exact := by
    intro hno
    have := h.exact fun hmem => hno (by simp [hmem])
    simp only [timeouts_append]
    change timeouts w + 1 + 0 = _
    omega

lemma Told.resent (h : Told w dataRetry maxRetryTimes) :
    Told (w ++ [Happening.timeout false] ++ [.data]) (dataRetry + 1) 0 where
  datas := by simp [h.datas]
  total := by
    have := h.total
    simp only [timeouts_append]
    change _ ≤ timeouts w + 1 + 0
    rw [Nat.mul_succ]
    omega
  recent := Nat.zero_le _
  exact := by
    intro hno
    have := h.exact fun hmem => hno (by simp [hmem])
    simp only [timeouts_append]
    change timeouts w + 1 + 0 = _
    rw [Nat.mul_succ]
    omega

/-- A timeout that does not drop the packet comes before the last one. -/
lemma Told.timeout_kept (h : Told w dataRetry ackRetry) (hdata : dataRetry ≤ maxRetryTimes)
    (hack : ackRetry ≤ maxRetryTimes)
    (hless : ackRetry + 1 ≤ maxRetryTimes ∨ dataRetry + 1 ≤ maxRetryTimes) :
    TimeoutOk w false where
  total h := by cases h
  recent h := by cases h
  exact := by
    intro hno
    have := h.exact hno
    simp only [maxRetryTimes] at *
    constructor
    · omega
    · simp only [Bool.false_eq_true, false_iff]
      omega

lemma Told.timeout_dropped (h : Told w maxRetryTimes maxRetryTimes) : TimeoutOk w true where
  total _ := by
    have := h.total
    simp only [maxRetryTimes] at *
    omega
  recent _ := by
    have := h.recent
    omega
  exact := by
    intro hno
    have := h.exact hno
    simp only [maxRetryTimes] at *
    constructor
    · omega
    · simp only [true_iff]
      omega

lemma withinBudget_timeout (h : WithinBudget w) {drops : Bool} (hok : TimeoutOk w drops) :
    WithinBudget (w ++ [.timeout drops]) :=
  withinBudget_concat h (by simp) fun drops' heq => by
    rw [← Happening.timeout.inj heq]
    exact hok

end

/-! ## Every story of a run -/

/-- Every story is within the budget, and the story of the front is what the counters say. -/
structure Budget (l : Log) (o : Option Sse) : Prop extends Numbered l o where
  within : ∀ m, WithinBudget (l.whats m)
  told : ∀ se, o = some se → se.pktList ≠ [] → Told (l.whats (l.front o)) se.dataRetry se.ackRetry

section

variable {k : UInt8} {e : Event} {o o' : Option Sse} {accepts : Bool} {hs ss : List Happening}
  {l : Log}

lemma Numbered.whats_upcoming (h : Numbered l o) {m : ℕ} (hm : l.front o ≤ m)
    (hm' : m = l.front o → pending o = 0) : l.whats m = [] := by
  rw [Log.whats, h.upcoming m hm hm', List.map_nil]

/-- An event without anything heard or sent leaves the stories as they are. -/
lemma note_whats_nil (now : ℤ) (m : ℕ) : (l.note now o o' accepts [] []).whats m = l.whats m := by
  rw [note_whats]
  simp

/-- The story of the front grows by what is heard of it, and that of the next front begins. -/
lemma note_whats_moved {now : ℤ} {n : ℕ} (hn : l.front o = n)
    (hn' : (l.note now o o' accepts hs ss).front o' = n + 1) (m : ℕ) :
    (l.note now o o' accepts hs ss).whats m =
      if m = n then l.whats n ++ hs else if m = n + 1 then l.whats (n + 1) ++ ss
      else l.whats m := by
  rw [note_whats, hn, hn']
  by_cases h : m = n
  · rw [if_pos h, if_pos h, if_neg (by omega), List.append_nil, h]
  · rw [if_neg h, if_neg h, List.append_nil]
    by_cases h' : m = n + 1
    · rw [if_pos h', if_pos h', h']
    · rw [if_neg h', if_neg h', List.append_nil]

/-- The story of the front grows by what is heard of it and what is sent for it. -/
lemma note_whats_stayed {now : ℤ} {n : ℕ} (hn : l.front o = n)
    (hn' : (l.note now o o' accepts hs ss).front o' = n) (m : ℕ) :
    (l.note now o o' accepts hs ss).whats m =
      if m = n then l.whats n ++ hs ++ ss else l.whats m := by
  rw [note_whats, hn, hn']
  split_ifs with h
  · rw [h]
  · rw [List.append_nil, List.append_nil]

/-- The front stays, and its story grows by what is heard of it and what is sent for it. -/
lemma budget_stayed {se se' : Sse} (h : Budget l (some se)) {now : ℤ}
    (hnum : Numbered (l.note now (some se) (some se') false hs ss) (some se'))
    (hlist : se'.pktList = se.pktList)
    (hwithin : WithinBudget (l.whats (l.front (some se)) ++ hs ++ ss))
    (htold : Told (l.whats (l.front (some se)) ++ hs ++ ss) se'.dataRetry se'.ackRetry) :
    Budget (l.note now (some se) (some se') false hs ss) (some se') := by
  have hfront : (l.note now (some se) (some se') false hs ss).front (some se') =
      l.front (some se) := front_note now (by simp [hlist])
  have hstayed := note_whats_stayed rfl hfront
  refine ⟨hnum, fun m => ?_, ?_⟩
  · rw [hstayed]
    split_ifs
    · exact hwithin
    · exact h.within m
  · rintro _ ⟨⟩ -
    rw [hfront, hstayed, if_pos rfl]
    exact htold

/-- The front is gone, with what is heard of it; what was behind it is in front and is sent. -/
lemma budget_moved {se : Sse} (h : Budget l (some se)) {pkt : SendNode}
    {pkts : List SendNode} (hlist : se.pktList = pkt :: pkts) {now t : ℤ}
    (hnum : Numbered (l.note now (some se) (some { se.restart now pkts with idleTimeout := t })
      false hs (firstSent pkts)) (some { se.restart now pkts with idleTimeout := t }))
    (hwithin : WithinBudget (l.whats (l.front (some se)) ++ hs)) :
    Budget (l.note now (some se) (some { se.restart now pkts with idleTimeout := t }) false
      hs (firstSent pkts)) (some { se.restart now pkts with idleTimeout := t }) := by
  have hle := h.pending_le
  rw [pending_some, hlist, List.length_cons] at hle
  have hn : l.front (some se) = l.accepted - (pkts.length + 1) := by
    rw [Log.front, pending_some, hlist, List.length_cons]
  have hn' : (l.note now (some se) (some { se.restart now pkts with idleTimeout := t }) false
      hs (firstSent pkts)).front (some { se.restart now pkts with idleTimeout := t }) =
      l.front (some se) + 1 := by
    rw [hn]
    simp only [Log.front, Log.note, pending_some, Sse.restart, Bool.toNat_false]
    omega
  have hnext : l.whats (l.front (some se) + 1) = [] := h.whats_upcoming (by omega) (by omega)
  have hmoved := note_whats_moved rfl hn'
  refine ⟨hnum, fun m => ?_, ?_⟩
  · rw [hmoved]
    split_ifs
    · exact hwithin
    · rw [hnext]
      unfold firstSent
      split_ifs
      · exact withinBudget_nil
      · exact withinBudget_started
    · exact h.within m
  · rintro _ ⟨⟩ hne
    have hpkts : pkts ≠ [] := hne
    rw [hn', hmoved, if_neg (by omega), if_pos rfl, hnext, firstSent_of_ne_nil hpkts]
    exact told_started

lemma budget_note (h : Budget l o) (hsound : ∀ se, o = some se → SseSound k se)
    (hchange : SseChange k e o o' accepts hs ss) : Budget (l.note e.now o o' accepts hs ss) o' := by
  have hnum := numbered_note h.toNumbered hchange
  have hle := h.pending_le
  cases hchange with
  | absent =>
    exact ⟨hnum, fun m => by rw [note_whats_nil]; exact h.within m, fun _ hse => by cases hse⟩
  | freed =>
    exact ⟨hnum, fun m => by rw [note_whats_nil]; exact h.within m, fun _ hse => by cases hse⟩
  | @kept se t _ =>
    refine ⟨hnum, fun m => by rw [note_whats_nil]; exact h.within m, ?_⟩
    rintro _ ⟨⟩ hne
    rw [note_whats_nil]
    exact h.told se rfl hne
  | @started _ se pkt _ hbase hnil _ =>
    have hempty : pending o = 0 := pending_started hbase hnil
    have hnew : l.whats l.accepted = [] :=
      h.whats_upcoming (by simp [Log.front]) fun _ => hempty
    have hfront : (l.note e.now o (some { se.restart e.now [pkt] with seq := se.seq + 1 }) true []
        [.data]).front (some { se.restart e.now [pkt] with seq := se.seq + 1 }) = l.accepted := by
      simp [Log.front, Log.note]
    have hstayed := note_whats_stayed (by rw [Log.front, hempty, Nat.sub_zero]) hfront
    refine ⟨hnum, fun m => ?_, ?_⟩
    · rw [hstayed]
      split_ifs
      · rw [hnew]
        exact withinBudget_started
      · exact h.within m
    · rintro _ ⟨⟩ -
      rw [hfront, hstayed, if_pos rfl, hnew]
      exact told_started
  | @appended se pkt t _ hne _ =>
    refine ⟨hnum, fun m => by rw [note_whats_nil]; exact h.within m, ?_⟩
    rintro _ ⟨⟩ -
    rw [front_note e.now (by simp), note_whats_nil]
    exact h.told se rfl hne
  | acked t _ hlist =>
    refine budget_moved h hlist hnum ?_
    rw [List.append_nil]
    exact h.within _
  | partAcked t _ hne hsent =>
    exact budget_stayed h hnum rfl (withinBudget_partAcked (h.within _) hsent)
      ((h.told _ rfl hne).partAcked hsent)
  | asked t _ _ hne hretry =>
    have htold := h.told _ rfl hne
    have hok := htold.timeout_kept (hsound _ rfl).dataRetry_le (hsound _ rfl).ackRetry_le
      (.inl hretry)
    exact budget_stayed h hnum rfl
      (withinBudget_free (withinBudget_timeout (h.within _) hok) (by simp) rfl) htold.asked
  | @resent se t _ _ hne hack hretry =>
    have htold := h.told _ rfl hne
    have hok := htold.timeout_kept (hsound _ rfl).dataRetry_le (hsound _ rfl).ackRetry_le
      (.inr hretry)
    refine budget_stayed h hnum rfl
      (withinBudget_concat (withinBudget_timeout (h.within _) hok) (fun _ => ?_) (by simp)) ?_
    · have := htold.datas
      rw [List.count_append, this]
      change se.dataRetry + 1 + 0 ≤ maxRetryTimes
      omega
    · rw [hack] at htold
      exact htold.resent
  | dropped t _ _ hlist hack hdata =>
    refine budget_moved h hlist hnum (withinBudget_timeout (h.within _) ?_)
    have htold := h.told _ rfl (by simp [hlist])
    rw [hack, hdata] at htold
    exact htold.timeout_dropped

end

lemma budget_run (k : UInt8) (es : List Event) : Budget (log k es) ((run es).sse k) := by
  induction es using List.reverseRecOn with
  | nil =>
    refine ⟨numbered_run k [], fun m => withinBudget_nil, fun se hse => ?_⟩
    simp [splitInit] at hse
  | append_singleton es e ih =>
    rw [log_concat]
    exact budget_note ih (sseSound_run es k) (sseChange_run es e k)

/-! ## The front -/

section

variable {k : UInt8} {e : Event} {o o' : Option Sse} {accepts : Bool} {hs ss : List Happening}
  {l : Log}

/-- Whoever was not in front before the event gets there with both counters at zero. -/
lemma SseChange.counters_zero (h : SseChange k e o o' accepts hs ss) (hne' : pending o' ≠ 0)
    (hnew : pending o = 0 ∨
      (l.note e.now o o' accepts hs ss).front o' ≠ l.front o) :
    ∃ se, o' = some se ∧ se.dataRetry = 0 ∧ se.ackRetry = 0 := by
  cases h with
  | absent => exact absurd rfl hne'
  | freed => exact absurd rfl hne'
  | started => exact ⟨_, rfl, rfl, rfl⟩
  | acked => exact ⟨_, rfl, rfl, rfl⟩
  | dropped => exact ⟨_, rfl, rfl, rfl⟩
  | kept => exact absurd rfl (hnew.resolve_left hne')
  | partAcked => exact absurd rfl (hnew.resolve_left hne')
  | asked => exact absurd rfl (hnew.resolve_left hne')
  | resent => exact absurd rfl (hnew.resolve_left hne')
  | appended _ _ hne _ =>
    exact absurd (front_note e.now (by simp)) (hnew.resolve_left (pending_pos hne))

/-- A packet that is dropped makes way for the one behind it, which is sent in the same event. -/
lemma SseChange.next_sent (h : SseChange k e o o' accepts hs ss)
    (hdrop : .timeout true ∈ hs) (hmore : 1 < pending o) :
    ss = [.data] ∧ pending o' + 1 = pending o ∧ accepts = false := by
  cases h with
  | dropped t _ _ hlist _ _ =>
    rw [pending_some, hlist, List.length_cons] at hmore
    refine ⟨firstSent_of_ne_nil ?_, by simp [hlist], rfl⟩
    rintro rfl
    simp at hmore
  | _ => simp at hdrop

/-- A DATA frame that a session sends is that of the packet in front of it afterwards. -/
lemma stepSse_front (h : ∀ se, o = some se → SseSound k se) {f : Bytes}
    (hf : f ∈ (stepSse k e o).2) (htype : frameType f = some frameTypeData) :
    ∃ se pkt pkts, (stepSse k e o).1 = some se ∧ se.pktList = pkt :: pkts ∧
      f = framed (pkt.fh.bytes ++ pkt.mh.bytes) := by
  have hfront : ∀ r : Sse × List Bytes, stepSse k e o = (some r.1, r.2) →
      OnlyFront r.1.pktList r.2 → ∃ se pkt pkts, (stepSse k e o).1 = some se ∧
        se.pktList = pkt :: pkts ∧ f = framed (pkt.fh.bytes ++ pkt.mh.bytes) := by
    intro r hstep honly
    rw [hstep] at hf ⊢
    obtain ⟨pkt, pkts, hlist, heq⟩ := honly f hf htype
    exact ⟨r.1, pkt, pkts, rfl, hlist, heq⟩
  cases hop : e.op with
  | upperSend smac dmac msg =>
    by_cases hto : dmac = k ∧ msg ≠ []
    · obtain ⟨rfl, hmsg⟩ := hto
      obtain ⟨se, pkt, -, hsound, hnext, hstep⟩ := stepSse_upperSend hop hmsg h
      exact hfront _ hstep (onlyFront_tryLowerSend (carried_append hsound hnext).1)
    · simp [stepSse, hop, if_neg hto] at hf
  | lowerPut raw =>
    cases o with
    | none =>
      simp only [stepSse, hop] at hf
      split at hf
      · split_ifs at hf <;> cases hf
      · split_ifs at hf <;> cases hf
      · cases hf
    | some se =>
      have hcarried := ((h se rfl).touch (e.now + idleTimeout)).carried
      cases haccept : accept raw with
      | none => simp [stepSse, hop, haccept] at hf
      | some a =>
        cases a with
        | data => simp [stepSse, hop, haccept] at hf
        | ackReq => simp [stepSse, hop, haccept] at hf
        | patch => simp [stepSse, hop, haccept] at hf
        | ackAll fh mh =>
          simp only [stepSse, hop, haccept] at hf
          split_ifs at hf with hsrc
          · exact hfront (procAckAllSse e.now fh mh { se with idleTimeout := e.now + idleTimeout })
              (by simp only [stepSse, hop, haccept, if_pos hsrc]; rfl)
              (onlyFront_procAckAllSse (k := k) hcarried fh mh)
          · cases hf
        | ackPart fh mh data =>
          simp only [stepSse, hop, haccept] at hf
          split_ifs at hf with hsrc
          · exact hfront (procAckPartSse e.now (e.stack 0) fh mh data
                { se with idleTimeout := e.now + idleTimeout })
              (by simp only [stepSse, hop, haccept, if_pos hsrc]; rfl)
              (onlyFront_procAckPartSse (k := k) hcarried (e.stack 0) fh mh data)
          · cases hf
  | procTimer =>
    cases o with
    | none => simp [stepSse, hop, tickSse] at hf
    | some se =>
      by_cases hdue : se.due e.now = true
      · exact hfront (procSseAckTimeout e.now (e.stack k) se)
          (by simp only [stepSse, hop, tickSse_due hdue ((h se rfl).ne_nil_of_due hdue)])
          (onlyFront_procSseAckTimeout (k := k) (h se rfl).carried (e.stack k))
      · simp only [stepSse, hop, tickSse_not_due _ hdue] at hf
        cases hf

end

/-- **The retry budget of every run.**  Whatever frames come and however the clock goes, the story
of every packet is within the budget; neither counter exceeds the maximum, and both are zero when a
packet gets to the front; a packet that is dropped makes way for the next one, which is sent at
once; and the DATA frames that are sent are those of the fronts, so that the stories count them. -/
theorem retry_budget (k : UInt8) (es : List Event) :
    (∀ m, WithinBudget ((log k es).whats m)) ∧
    (∀ se, (run es).sse k = some se →
      se.dataRetry ≤ maxRetryTimes ∧ se.ackRetry ≤ maxRetryTimes) ∧
    ∀ e,
      (∀ n, frontNo k (es ++ [e]) = some n → frontNo k es ≠ some n →
        ∃ se, (run (es ++ [e])).sse k = some se ∧ se.dataRetry = 0 ∧ se.ackRetry = 0) ∧
      (∀ n, frontNo k es = some n → .timeout true ∈ heard k e ((run es).sse k) →
        1 < pending ((run es).sse k) →
          frontNo k (es ++ [e]) = some (n + 1) ∧
            ((log k (es ++ [e])).story (n + 1)) = [⟨e.now, .data⟩]) ∧
      ∀ f ∈ (stepSse k e ((run es).sse k)).2, frameType f = some frameTypeData →
        ∃ se pkt pkts, (run (es ++ [e])).sse k = some se ∧ se.pktList = pkt :: pkts ∧
          f = framed (pkt.fh.bytes ++ pkt.mh.bytes) := by
  have hbudget := budget_run k es
  have hsound := sseSound_run es k
  refine ⟨hbudget.within, fun se hse => ⟨(hsound se hse).dataRetry_le, (hsound se hse).ackRetry_le⟩,
    fun e => ?_⟩
  have hchange := sseChange_run es e k
  refine ⟨fun n hn hnew => ?_, fun n hn hdrop hmore => ?_, fun f hf htype => ?_⟩
  · unfold frontNo at hn hnew
    split_ifs at hn with hne'
    refine hchange.counters_zero (l := log k es) hne' ?_
    rw [← log_concat, Option.some.inj hn]
    by_cases hne : pending ((run es).sse k) = 0
    · exact .inl hne
    · rw [if_neg hne] at hnew
      exact .inr fun heq => hnew (by rw [heq])
  · obtain ⟨hsent, hless, hnone⟩ := hchange.next_sent hdrop hmore
    have hpending := hbudget.pending_le
    have hfront : (log k es).front ((run es).sse k) = n := by
      unfold frontNo at hn
      split_ifs at hn
      exact Option.some.inj hn
    have hfront' : (log k (es ++ [e])).front ((run (es ++ [e])).sse k) = n + 1 := by
      rw [log_concat, hnone]
      simp only [Log.front, Log.note, Bool.toNat_false] at hfront ⊢
      omega
    constructor
    · rw [frontNo, if_neg (by omega), hfront']
    · rw [log_concat] at hfront' ⊢
      rw [note_story, hfront, hfront', if_neg (by omega), if_pos rfl, hsent,
        hbudget.upcoming (n + 1) (by omega) (by omega)]
      rfl
  · rw [run_concat, (sessions_step _ e).sse]
    exact stepSse_front hsound hf htype

end Ipcf
