import Ipcf.Split.History
import Mathlib.Data.List.Chain

/-!
# The spacing of retransmissions

The frames of a packet that wait for an acknowledgement should be `ACK_TIMEOUT` apart when the
timer is what sends the later one (`Spaced`).  A DATA frame and a PATCH arm the timer of their
session; a request for an acknowledgement does not, and so the timer, which has run out once, runs
out again at the next call of `proc_timer`.

The packet in front therefore has one of two kinds of last frame (`Timing`): one that armed the
timer, or a request, sent at the last call of `proc_timer`.  So the frames are apart if and only if
the calls of `proc_timer` are that find a request (`spaced_iff`).
-/

namespace Ipcf

/-- The happenings that are frames. -/
def Happening.isFrame : Happening → Bool
  | .data => true
  | .ackr => true
  | .patch => true
  | _ => false

/-- The frames of a story: each of them waits for an acknowledgement. -/
def Log.frames (l : Log) (m : ℕ) : List Moment := (l.story m).filter fun x => x.what.isFrame

/-- Of two consecutive frames of a packet, the second is a PATCH, which answers a partial
acknowledgement, or comes `ACK_TIMEOUT` after the first. -/
def Spaced (l : Log) : Prop :=
  ∀ m, (l.frames m).IsChain fun x y => y.what ≠ .patch → x.now + ackTimeout ≤ y.now

/-- A call of `proc_timer` after `es` that finds a session which has asked for an acknowledgement
since its timer was armed, and does not give the packet up, comes `ACK_TIMEOUT` after the calls
before it. -/
def Unhurried (es : List Event) (e : Event) (o : Option Sse) : Prop :=
  e.op = .procTimer → ∀ se, o = some se → 0 < se.ackRetry →
    ¬ (se.ackRetry = maxRetryTimes ∧ se.dataRetry = maxRetryTimes) →
    ∀ e' ∈ es, e'.op = .procTimer → e'.now + ackTimeout ≤ e.now

/-- Every event of the run is unhurried for the session of `k`. -/
def SlowPolling (k : UInt8) (es : List Event) : Prop :=
  ∀ pre e post, es = pre ++ e :: post → Unhurried pre e ((run pre).sse k)

section

variable {k : UInt8} {e : Event} {o o' : Option Sse} {accepts : Bool} {hs ss : List Happening}
  {l : Log}

/-! ## One event and the frames -/

/-- What is heard is no frame, what is sent is one frame at most. -/
lemma SseChange.frames (h : SseChange k e o o' accepts hs ss) :
    hs.filter Happening.isFrame = [] ∧ (ss = [] ∨ ∃ w, ss = [w] ∧ w.isFrame = true) := by
  have hfirst : ∀ pkts, firstSent pkts = [] ∨ ∃ w, firstSent pkts = [w] ∧ w.isFrame = true := by
    intro pkts
    unfold firstSent
    split_ifs
    · exact .inl rfl
    · exact .inr ⟨.data, rfl, rfl⟩
  cases h with
  | absent => exact ⟨rfl, .inl rfl⟩
  | kept => exact ⟨rfl, .inl rfl⟩
  | freed => exact ⟨rfl, .inl rfl⟩
  | started => exact ⟨rfl, .inr ⟨.data, rfl, rfl⟩⟩
  | appended => exact ⟨rfl, .inl rfl⟩
  | acked => exact ⟨rfl, hfirst _⟩
  | partAcked _ _ _ hsent =>
    rcases hsent with rfl | rfl
    · exact ⟨rfl, .inl rfl⟩
    · exact ⟨rfl, .inr ⟨.patch, rfl, rfl⟩⟩
  | asked => exact ⟨rfl, .inr ⟨.ackr, rfl, rfl⟩⟩
  | resent => exact ⟨rfl, .inr ⟨.data, rfl, rfl⟩⟩
  | dropped => exact ⟨rfl, hfirst _⟩

lemma frames_map (now : ℤ) (ws : List Happening) :
    (ws.map fun w => (⟨now, w⟩ : Moment)).filter (fun x => x.what.isFrame) =
      (ws.filter Happening.isFrame).map fun w => ⟨now, w⟩ := by
  rw [List.filter_map]
  rfl

/-- The frames of the front grow by what is sent. -/
lemma note_frames (hhs : hs.filter Happening.isFrame = [])
    (hss : ss = [] ∨ ∃ w, ss = [w] ∧ w.isFrame = true) (now : ℤ) (m : ℕ) :
    (l.note now o o' accepts hs ss).frames m = l.frames m ++
      (if m = (l.note now o o' accepts hs ss).front o' then ss.map fun w => ⟨now, w⟩ else []) := by
  have hall : ss.filter Happening.isFrame = ss := by
    rcases hss with rfl | ⟨w, rfl, hw⟩
    · rfl
    · rw [List.filter_cons_of_pos hw, List.filter_nil]
  rw [Log.frames, note_story, List.filter_append, List.filter_append, List.append_assoc]
  congr 1
  have hheard : (if m = l.front o then hs.map fun w => (⟨now, w⟩ : Moment) else []).filter
      (fun x => x.what.isFrame) = [] := by
    split_ifs
    · rw [frames_map, hhs, List.map_nil]
    · rfl
  rw [hheard, List.nil_append]
  split_ifs
  · rw [frames_map, hall]
  · rfl

lemma note_frames_nil (hhs : hs.filter Happening.isFrame = []) (now : ℤ) (m : ℕ) :
    (l.note now o o' accepts hs []).frames m = l.frames m := by
  rw [note_frames hhs (.inl rfl), List.map_nil, ite_self, List.append_nil]

/-- The frame that is sent, if any, comes long enough after the last one of its packet. -/
def Gap (l : Log) (now : ℤ) (m : ℕ) (ss : List Happening) : Prop :=
  ∀ x ∈ (l.frames m).getLast?, ∀ w ∈ ss, w ≠ .patch → x.now + ackTimeout ≤ now

lemma spaced_note (hhs : hs.filter Happening.isFrame = [])
    (hss : ss = [] ∨ ∃ w, ss = [w] ∧ w.isFrame = true) (now : ℤ) :
    Spaced (l.note now o o' accepts hs ss) ↔
      Spaced l ∧ Gap l now ((l.note now o o' accepts hs ss).front o') ss := by
  have hchain : ∀ m, ((l.note now o o' accepts hs ss).frames m).IsChain
      (fun x y => y.what ≠ .patch → x.now + ackTimeout ≤ y.now) ↔
      (l.frames m).IsChain (fun x y => y.what ≠ .patch → x.now + ackTimeout ≤ y.now) ∧
        (m = (l.note now o o' accepts hs ss).front o' → Gap l now m ss) := by
    intro m
    rw [note_frames hhs hss, List.isChain_append]
    refine and_congr_right fun _ => ?_
    split_ifs with hm
    · simp only [hm, forall_const]
      rcases hss with rfl | ⟨w, rfl, -⟩
      · simp [Gap]
      · simp [Gap]
    · simp [hm]
  simp only [Spaced, hchain, forall_and, forall_eq]

lemma gap_nil (now : ℤ) (m : ℕ) : Gap l now m [] := by
  intro x _ w hw
  cases hw

/-- There is no frame before the first. -/
lemma gap_new (now : ℤ) {m : ℕ} (hstory : l.story m = []) (ss : List Happening) :
    Gap l now m ss := by
  intro x hx
  simp [Log.frames, hstory] at hx

end

/-! ## The last frame of the front -/

/-- What is known of the timer from `x`, the last frame of the packet in front: either `x`, or an
acknowledgement after it, armed the timer; or `x` is a request, the timer has run out, and `x` was
sent at the last call of `proc_timer`. -/
structure Timing (es : List Event) (x : Moment) (se : Sse) : Prop where
  past : ∃ e ∈ es, e.now = x.now
  armed : se.ackRetry = 0 → x.now + ackTimeout ≤ se.ackTimeout
  expired : 0 < se.ackRetry → 0 < se.ackTimeout ∧ se.ackTimeout ≤ x.now
  called : 0 < se.ackRetry → ∃ e ∈ es, e.op = .procTimer ∧ e.now = x.now
  last : 0 < se.ackRetry → ∀ e ∈ es, e.op = .procTimer → e.now ≤ x.now

/-- A call at another time, or of another kind, is no new request. -/
lemma Timing.later {es : List Event} {x : Moment} {se se' : Sse} (h : Timing es x se) {e : Event}
    (hcall : 0 < se.ackRetry → e.op ≠ .procTimer) (hretry : se'.ackRetry = se.ackRetry)
    (htimer : se'.ackTimeout = se.ackTimeout) : Timing (es ++ [e]) x se' where
  past := by
    obtain ⟨e', he', hnow⟩ := h.past
    exact ⟨e', List.mem_append_left _ he', hnow⟩
  armed h0 := by
    rw [htimer]
    exact h.armed (hretry ▸ h0)
  expired hpos := by
    rw [htimer]
    exact h.expired (hretry ▸ hpos)
  called hpos := by
    obtain ⟨e', he', hop, hnow⟩ := h.called (hretry ▸ hpos)
    exact ⟨e', List.mem_append_left _ he', hop, hnow⟩
  last hpos := by
    intro e' he' hop
    rcases List.mem_append.1 he' with hold | hnew
    · exact h.last (hretry ▸ hpos) e' hold hop
    · rw [List.mem_singleton.1 hnew] at hop
      exact absurd hop (hcall (hretry ▸ hpos))

/-- A timer that was just armed is ahead of every frame so far. -/
lemma timing_armed {es : List Event} {x : Moment} {se : Sse} (hpast : ∃ e ∈ es, e.now = x.now)
    (hretry : se.ackRetry = 0) (htimer : x.now + ackTimeout ≤ se.ackTimeout) :
    Timing es x se :=
  have hnot {p : Prop} (hpos : 0 < se.ackRetry) : p := absurd hpos (by omega)
  ⟨hpast, fun _ => htimer, hnot, hnot, hnot⟩

/-- The session and the frames of its front agree. -/
structure Timed (es : List Event) (l : Log) (o : Option Sse) : Prop extends Numbered l o where
  timing : ∀ se, o = some se → se.pktList ≠ [] →
    ∃ x ∈ (l.frames (l.front o)).getLast?, Timing es x se

section

variable {k : UInt8} {e : Event} {o o' : Option Sse} {accepts : Bool} {hs ss : List Happening}
  {l : Log} {es : List Event}

/-- A timer that has run out once runs out again at once. -/
lemma Timing.due {x : Moment} {se : Sse} (h : Timing es x se) (hpos : 0 < se.ackRetry)
    (hclock : ∀ e' ∈ es, e'.now ≤ e.now) : se.due e.now = true := by
  obtain ⟨htimer, hle⟩ := h.expired hpos
  obtain ⟨e', he', hnow⟩ := h.past
  have := hclock e' he'
  rw [Sse.due, decide_eq_true_eq]
  omega

/-- The frame that is sent is the last of its packet. -/
lemma getLast?_note_frames {w : Happening} (hhs : hs.filter Happening.isFrame = [])
    (hw : w.isFrame = true) (now : ℤ) {m : ℕ}
    (hm : (l.note now o o' accepts hs [w]).front o' = m) :
    ((l.note now o o' accepts hs [w]).frames m).getLast? = some ⟨now, w⟩ := by
  rw [note_frames hhs (.inr ⟨w, rfl, hw⟩), if_pos hm.symm, List.map_singleton,
    List.getLast?_concat]

/-- A packet that gets to the front is sent, which arms the timer. -/
lemma timing_restart (hhs : hs.filter Happening.isFrame = []) {se : Sse} {pkts : List SendNode}
    (hpkts : pkts ≠ []) {t : ℤ} :
    ∃ x ∈ ((l.note e.now o (some { se.restart e.now pkts with idleTimeout := t }) accepts hs
        (firstSent pkts)).frames ((l.note e.now o
          (some { se.restart e.now pkts with idleTimeout := t }) accepts hs
          (firstSent pkts)).front (some { se.restart e.now pkts with idleTimeout := t }))).getLast?,
      Timing (es ++ [e]) x { se.restart e.now pkts with idleTimeout := t } := by
  rw [firstSent_of_ne_nil hpkts]
  refine ⟨_, getLast?_note_frames hhs rfl _ rfl, timing_armed ⟨e, by simp, rfl⟩ rfl ?_⟩
  simp [Sse.restart, hpkts]

lemma timed_note (h : Timed es l o) (hsound : ∀ se, o = some se → SseSound k se)
    (hclock : ∀ e' ∈ es, e'.now ≤ e.now) (hchange : SseChange k e o o' accepts hs ss) :
    Timed (es ++ [e]) (l.note e.now o o' accepts hs ss) o' := by
  refine ⟨numbered_note h.toNumbered hchange, ?_⟩
  obtain ⟨hhs, -⟩ := hchange.frames
  have hnow : ∃ e' ∈ es ++ [e], e'.now = e.now := ⟨e, by simp, rfl⟩
  cases hchange with
  | absent =>
    intro se hse
    cases hse
  | freed =>
    intro se hse
    cases hse
  | @kept se t hnot =>
    rintro _ ⟨⟩ hne
    obtain ⟨x, hx, htiming⟩ := h.timing se rfl hne
    refine ⟨x, ?_, htiming.later (fun hpos hop => ?_) rfl rfl⟩
    · rw [note_frames_nil hhs]
      exact hx
    · have := htiming.due hpos hclock
      rw [hnot hop] at this
      cases this
  | @started o se pkt _ _ _ _ =>
    rintro _ ⟨⟩ -
    exact ⟨_, getLast?_note_frames hhs rfl _ rfl, timing_armed hnow rfl (Int.le_refl _)⟩
  | @appended se pkt t hnot hne _ =>
    rintro _ ⟨⟩ -
    obtain ⟨x, hx, htiming⟩ := h.timing se rfl hne
    refine ⟨x, ?_, htiming.later (fun _ => hnot) rfl rfl⟩
    rw [note_frames_nil hhs, front_note e.now (by simp)]
    exact hx
  | acked =>
    rintro _ ⟨⟩ hne
    exact timing_restart hhs hne
  | @partAcked se _ t _ hne hsent =>
    rintro _ ⟨⟩ -
    rcases hsent with rfl | rfl
    · obtain ⟨x, hx, htiming⟩ := h.timing se rfl hne
      obtain ⟨e', he', hnow'⟩ := htiming.past
      have := hclock e' he'
      refine ⟨x, ?_, timing_armed ⟨e', List.mem_append_left _ he', hnow'⟩ rfl ?_⟩
      · rw [note_frames_nil hhs]
        exact hx
      · simp only
        omega
    · exact ⟨_, getLast?_note_frames hhs rfl _ rfl, timing_armed hnow rfl (Int.le_refl _)⟩
  | @asked se t hop hdue _ _ =>
    rintro _ ⟨⟩ -
    obtain ⟨hpos, hle⟩ : se.ackTimeout > 0 ∧ e.now ≥ se.ackTimeout := of_decide_eq_true hdue
    refine ⟨_, getLast?_note_frames hhs rfl _ rfl, hnow, fun h0 => ?_, fun _ => ⟨hpos, hle⟩,
      fun _ => ⟨e, by simp, hop, rfl⟩, fun _ e' he' _ => ?_⟩
    · simp at h0
    · rcases List.mem_append.1 he' with hold | hnew
      · exact hclock e' hold
      · rw [List.mem_singleton.1 hnew]
  | @resent se t _ _ hne _ _ =>
    rintro _ ⟨⟩ -
    exact ⟨_, getLast?_note_frames hhs rfl _ rfl, timing_armed hnow rfl (Int.le_refl _)⟩
  | dropped =>
    rintro _ ⟨⟩ hne
    exact timing_restart hhs hne

/-- A frame that a timeout sends for the front comes long enough after the last one of the front
just when the call of `proc_timer` is unhurried. -/
lemma gap_timeout (h : Timed es l o) {se : Sse} (ho : o = some se) (hne : se.pktList ≠ [])
    (hdue : se.due e.now = true) (hop : e.op = .procTimer)
    (hretry : ¬ (se.ackRetry = maxRetryTimes ∧ se.dataRetry = maxRetryTimes)) {w : Happening}
    (hw : w ≠ .patch) : Gap l e.now (l.front o) [w] ↔ Unhurried es e o := by
  obtain ⟨x, hx, htiming⟩ := h.timing se ho hne
  have hgap : Gap l e.now (l.front o) [w] ↔ x.now + ackTimeout ≤ e.now := by
    rw [Option.mem_def] at hx
    simp [Gap, hx, hw]
  rw [hgap]
  constructor
  · intro hle _ se' hse' hpos _ e' he' hop'
    rw [ho] at hse'
    cases hse'
    have := htiming.last hpos e' he' hop'
    omega
  · intro hun
    rcases Nat.eq_zero_or_pos se.ackRetry with h0 | hpos
    · have harmed := htiming.armed h0
      have hfire : se.ackTimeout > 0 ∧ e.now ≥ se.ackTimeout := of_decide_eq_true hdue
      omega
    · obtain ⟨e', he', hop', hnow⟩ := htiming.called hpos
      have := hun hop se ho hpos hretry e' he' hop'
      omega

/-- What the event sends comes long enough after the frame before it just when the event is
unhurried. -/
lemma gap_iff (h : Timed es l o) (hclock : ∀ e' ∈ es, e'.now ≤ e.now)
    (hsound : ∀ se, o = some se → SseSound k se) (hchange : SseChange k e o o' accepts hs ss) :
    Gap l e.now ((l.note e.now o o' accepts hs ss).front o') ss ↔ Unhurried es e o := by
  have hother : e.op ≠ .procTimer → Unhurried es e o := fun hnot hop => absurd hop hnot
  have hnotdue : ∀ se, o = some se → se.due e.now = false → Unhurried es e o := by
    intro se ho hdue _ se' hse' hpos
    rw [ho] at hse'
    cases hse'
    have hne : se.pktList ≠ [] := by
      intro hnil
      have := ((hsound se ho).empty hnil).2.2
      omega
    obtain ⟨x, -, htiming⟩ := h.timing se ho hne
    rw [htiming.due hpos hclock] at hdue
    cases hdue
  have hnew : pending o' + 1 = pending o → accepts = false → Gap l e.now
      ((l.note e.now o o' accepts hs ss).front o') ss := by
    rintro hless rfl
    refine gap_new _ (h.upcoming _ ?_ ?_) _
    · simp only [Log.front, Log.note]
      omega
    · have := h.pending_le
      simp only [Log.front, Log.note, Bool.toNat_false]
      omega
  cases hchange with
  | absent => exact iff_of_true (gap_nil _ _) fun _ se hse => by cases hse
  | @kept se t hnot =>
    refine iff_of_true (gap_nil _ _) fun hop => hnotdue se rfl (hnot hop) hop
  | freed hop hdue => exact iff_of_true (gap_nil _ _) (hnotdue _ rfl hdue)
  | @started o se pkt hnot hbase hnil _ =>
    have hempty : pending o = 0 := pending_started hbase hnil
    refine iff_of_true (gap_new _ (h.upcoming _ ?_ fun _ => hempty) _) (hother hnot)
    simp [Log.front, Log.note]
  | appended t hnot => exact iff_of_true (gap_nil _ _) (hother hnot)
  | acked t hnot hlist => exact iff_of_true (hnew (by simp [hlist]) rfl) (hother hnot)
  | partAcked t hnot _ hsent =>
    refine iff_of_true ?_ (hother hnot)
    rcases hsent with rfl | rfl
    · exact gap_nil _ _
    · intro x _ w hw hpatch
      exact absurd (List.mem_singleton.1 hw) hpatch
  | asked t hop hdue hne hretry =>
    exact gap_timeout h rfl hne hdue hop (by omega) (by simp)
  | resent t hop hdue hne _ hretry =>
    exact gap_timeout h rfl hne hdue hop (by omega) (by simp)
  | dropped t hop _ hlist hack hdata =>
    refine iff_of_true (hnew (by simp [hlist]) rfl) fun _ se' hse' _ hnot => ?_
    cases hse'
    exact absurd ⟨hack, hdata⟩ hnot

end

/-! ## Runs -/

lemma timed_run (k : UInt8) (es : List Event) (hclock : es.Pairwise fun a b => a.now ≤ b.now) :
    Timed es (log k es) ((run es).sse k) := by
  induction es using List.reverseRecOn with
  | nil =>
    refine ⟨numbered_run k [], fun se hse => ?_⟩
    simp [splitInit] at hse
  | append_singleton es e ih =>
    rw [List.pairwise_append] at hclock
    rw [log_concat]
    exact timed_note (ih hclock.1) (sseSound_run es k)
      (fun e' he' => hclock.2.2 e' he' e (by simp)) (sseChange_run es e k)

lemma slowPolling_concat (k : UInt8) (es : List Event) (e : Event) :
    SlowPolling k (es ++ [e]) ↔ SlowPolling k es ∧ Unhurried es e ((run es).sse k) := by
  constructor
  · intro h
    refine ⟨fun pre e' post heq => h pre e' (post ++ [e]) (by simp [heq]), h es e [] rfl⟩
  · rintro ⟨hes, he⟩ pre e' post heq
    rcases split_concat heq with ⟨rfl, rfl, -⟩ | ⟨post', -, hes'⟩
    · exact he
    · exact hes pre e' post' hes'

/-- It is enough that `proc_timer` is called no more often than every `ACK_TIMEOUT`. -/
lemma slowPolling_of_apart (k : UInt8) {es : List Event}
    (h : es.Pairwise fun a b => a.op = .procTimer → b.op = .procTimer →
      a.now + ackTimeout ≤ b.now) : SlowPolling k es := by
  rintro pre e post rfl hop _ _ _ _ e' he' hop'
  exact (List.pairwise_append.1 h).2.2 e' he' e (by simp) hop' hop

/-- **The spacing of the frames.**  With a clock that does not go backwards, the frames of the
packets of a session are `ACK_TIMEOUT` apart, as far as the timer sends them, if and only if every
call of `proc_timer` that finds the session after a request for an acknowledgement, unless it gives
the packet up, comes `ACK_TIMEOUT` after the calls before it. -/
theorem spaced_iff (k : UInt8) (es : List Event) (hclock : es.Pairwise fun a b => a.now ≤ b.now) :
    Spaced (log k es) ↔ SlowPolling k es := by
  induction es using List.reverseRecOn with
  | nil => exact iff_of_true (fun m => List.isChain_nil) (by rintro pre e post heq; simp at heq)
  | append_singleton es e ih =>
    rw [List.pairwise_append] at hclock
    have hchange := sseChange_run es e k
    obtain ⟨hhs, hss⟩ := hchange.frames
    rw [slowPolling_concat, log_concat, spaced_note hhs hss, ih hclock.1,
      gap_iff (timed_run k es hclock.1) (fun e' he' => hclock.2.2 e' he' e (by simp))
        (sseSound_run es k) hchange]

/-- A message, and calls of `proc_timer` at the given times. -/
def polls (times : List ℤ) : List Event :=
  ⟨1, default, .upperSend 1 2 [7]⟩ :: times.map fun now => ⟨now, default, .procTimer⟩

/-- Calls that are `ACK_TIMEOUT` apart send requests that are. -/
theorem spaced_iff_polls : Spaced (log 2 (polls [4000, 7000, 10000])) :=
  (spaced_iff 2 (polls [4000, 7000, 10000]) (by simp [polls])).2
    (slowPolling_of_apart 2 (by simp [polls, ackTimeout]))

lemma story_polls : (log 2 (polls [4000, 4001])).story 0 =
    [⟨1, .data⟩, ⟨4000, .timeout false⟩, ⟨4000, .ackr⟩, ⟨4001, .timeout false⟩, ⟨4001, .ackr⟩] := by
  decide +kernel

/-- Two requests within a millisecond. -/
theorem requests_unspaced :
    (polls [4000, 4001]).Pairwise (fun a b => a.now ≤ b.now) ∧
      ¬ Spaced (log 2 (polls [4000, 4001])) := by
  refine ⟨by simp [polls], fun h => ?_⟩
  have := h 0
  rw [Log.frames, story_polls] at this
  simp [Happening.isFrame, ackTimeout] at this

end Ipcf
