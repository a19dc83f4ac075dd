import Ipcf.Split.Session

/-!
# The history of a send session

The packets that are handed to the session of one receiver are numbered as they come; as they leave
the queue at its front only, the number of the front is the number of packets so far less the
length of the queue.  A `Log` keeps the story of every packet: what has happened to it, and when.
What is heard in an event concerns the front before it, what is sent the front after it.

`numbered_run` says that the stories are kept apart: nothing has happened to a packet that has not
been in front.
-/

namespace Ipcf

/-- Something that happens at a time. -/
structure Moment where
  now : ℤ
  what : Happening
  deriving DecidableEq, Repr

/-- The number of packets handed to a session, and the story of each packet. -/
structure Log where
  accepted : ℕ
  story : ℕ → List Moment

namespace Log

/-- The number of the packet in front of the session `o`; that of the next one if it is empty. -/
def front (l : Log) (o : Option Sse) : ℕ := l.accepted - pending o

/-- What an event adds to the stories. -/
def note (l : Log) (now : ℤ) (o o' : Option Sse) (accepts : Bool) (hs ss : List Happening) :
    Log where
  accepted := l.accepted + accepts.toNat
  story m := l.story m ++ (if m = l.accepted - pending o then hs.map fun w => ⟨now, w⟩ else []) ++
    (if m = l.accepted + accepts.toNat - pending o' then ss.map fun w => ⟨now, w⟩ else [])

/-- What the event does to the log of the session of `k`, which is `o` before it. -/
def step (k : UInt8) (l : Log) (e : Event) (o : Option Sse) : Log :=
  l.note e.now o (stepSse k e o).1 (e.sendsTo k) (heard k e o) (sends k e o)

/-- The story without the times. -/
def whats (l : Log) (m : ℕ) : List Happening := (l.story m).map Moment.what

end Log

/-- The log of the session of `k` after the events. -/
def log (k : UInt8) (es : List Event) : Log :=
  (es.foldl (fun r e => (r.1.step e, r.2.step k e (r.1.sse k))) (splitInit, ⟨0, fun _ => []⟩)).2

/-- The number of the packet in front of the session of `k`, if there is one. -/
def frontNo (k : UInt8) (es : List Event) : Option ℕ :=
  if pending ((run es).sse k) = 0 then none else some ((log k es).front ((run es).sse k))

@[simp] lemma log_nil (k : UInt8) : log k [] = ⟨0, fun _ => []⟩ := rfl

lemma log_concat (k : UInt8) (es : List Event) (e : Event) :
    log k (es ++ [e]) = (log k es).note e.now ((run es).sse k) ((run (es ++ [e])).sse k)
      (e.sendsTo k) (heard k e ((run es).sse k)) (sends k e ((run es).sse k)) := by
  have hrun := foldl_observer Split.step (fun s l e => Log.step k l e (s.sse k)) es splitInit
    ⟨0, fun _ => []⟩
  rw [run_concat, (sessions_step (run es) e).sse, log, List.foldl_append, List.foldl_cons,
    List.foldl_nil, hrun]
  rfl

section

variable {k : UInt8} {e : Event} {o o' : Option Sse} {accepts : Bool} {hs ss : List Happening}
  {l : Log}

@[simp] lemma pending_none : pending none = 0 := rfl

@[simp] lemma pending_some (se : Sse) : pending (some se) = se.pktList.length := rfl

lemma pending_pos {se : Sse} (h : se.pktList ≠ []) : pending (some se) ≠ 0 := by
  simpa using h

@[simp] lemma restart_pktList (now : ℤ) (pkts : List SendNode) (se : Sse) :
    (se.restart now pkts).pktList = pkts := rfl

/-- The story of a packet that is not in front stays as it is. -/
lemma note_story (now : ℤ) (m : ℕ) : (l.note now o o' accepts hs ss).story m =
    l.story m ++ (if m = l.front o then hs.map fun w => ⟨now, w⟩ else []) ++
      (if m = (l.note now o o' accepts hs ss).front o' then ss.map fun w => ⟨now, w⟩ else []) :=
  rfl

lemma note_whats (now : ℤ) (m : ℕ) : (l.note now o o' accepts hs ss).whats m =
    l.whats m ++ (if m = l.front o then hs else []) ++
      (if m = (l.note now o o' accepts hs ss).front o' then ss else []) := by
  have hwhats : ∀ ws : List Happening,
      (ws.map fun w => (⟨now, w⟩ : Moment)).map Moment.what = ws := by
    intro ws
    rw [List.map_map]
    exact List.map_id ws
  rw [Log.whats, note_story, List.map_append, List.map_append]
  congr 1
  · congr 1
    split_ifs
    · exact hwhats hs
    · rfl
  · split_ifs
    · exact hwhats ss
    · rfl

/-- A session that is started, or started again, has nothing in its queue. -/
lemma pending_started {se : Sse} {now : ℤ}
    (hbase : o = none ∧ se = createSse now ∨
      ∃ se' t, o = some se' ∧ se = { se' with idleTimeout := t })
    (hnil : se.pktList = []) : pending o = 0 := by
  rcases hbase with ⟨rfl, -⟩ | ⟨se', t, rfl, rfl⟩
  · rfl
  · simpa using hnil

/-- The front stays when the queue grows by what is accepted only. -/
lemma front_note (now : ℤ) (h : pending o' = pending o + accepts.toNat) :
    (l.note now o o' accepts hs ss).front o' = l.front o := by
  simp only [Log.front, Log.note]
  omega

lemma firstSent_of_ne_nil {pkts : List SendNode} (h : pkts ≠ []) : firstSent pkts = [.data] := by
  rw [firstSent, if_neg]
  simpa using h

lemma firstSent_ne_nil {pkts : List SendNode} (h : firstSent pkts ≠ []) : pkts ≠ [] := by
  rintro rfl
  exact h rfl

/-- A queue grows by the packet that is accepted at most; who is heard or sent has a queue. -/
lemma SseChange.counts (h : SseChange k e o o' accepts hs ss) :
    pending o' ≤ pending o + accepts.toNat ∧ (hs ≠ [] → pending o ≠ 0) ∧
      (ss ≠ [] → pending o' ≠ 0) := by
  cases h with
  | absent => simp
  | kept => simp
  | freed => simp
  | started _ hbase hnil _ => simp
  | appended _ _ hne _ => simp
  | acked _ _ hlist =>
    refine ⟨by simp [hlist], by simp, fun hss => ?_⟩
    simpa using firstSent_ne_nil hss
  | partAcked _ _ hne _ => exact ⟨by simp, fun _ => pending_pos hne, fun _ => pending_pos hne⟩
  | asked _ _ _ hne _ => exact ⟨by simp, fun _ => pending_pos hne, fun _ => pending_pos hne⟩
  | resent _ _ _ hne _ _ => exact ⟨by simp, fun _ => pending_pos hne, fun _ => pending_pos hne⟩
  | dropped _ _ _ hlist _ _ =>
    refine ⟨by simp [hlist], fun _ => by simp [hlist], fun hss => ?_⟩
    simpa using firstSent_ne_nil hss

/-- The packets are numbered in order: those in the queue are the last that were accepted, and
nothing has happened to a packet behind the front. -/
structure Numbered (l : Log) (o : Option Sse) : Prop where
  pending_le : pending o ≤ l.accepted
  upcoming : ∀ m, l.front o ≤ m → (m = l.front o → pending o = 0) → l.story m = []

lemma numbered_note (h : Numbered l o) (hchange : SseChange k e o o' accepts hs ss) :
    Numbered (l.note e.now o o' accepts hs ss) o' := by
  obtain ⟨hle, hheard, hsent⟩ := hchange.counts
  have hpending := h.pending_le
  have hfront : l.front o ≤ (l.note e.now o o' accepts hs ss).front o' := by
    simp only [Log.front, Log.note]
    omega
  have hpending' : pending o' ≤ (l.note e.now o o' accepts hs ss).accepted := by
    simp only [Log.note]
    omega
  refine ⟨hpending', fun m hm hm' => ?_⟩
  have hsame : m = l.front o → pending o = 0 := by
    intro heq
    have h0 := hm' (by omega)
    simp only [Log.front, Log.note] at hm heq hpending'
    omega
  have hold : l.story m = [] := h.upcoming m (by omega) hsame
  have hhs : (if m = l.front o then hs.map fun w => (⟨e.now, w⟩ : Moment) else []) = [] := by
    split_ifs with heq
    · have : hs = [] := by
        by_contra hne
        exact hheard hne (hsame heq)
      rw [this, List.map_nil]
    · rfl
  have hss : (if m = (l.note e.now o o' accepts hs ss).front o' then
      ss.map fun w => (⟨e.now, w⟩ : Moment) else []) = [] := by
    split_ifs with heq
    · have : ss = [] := by
        by_contra hne
        exact hsent hne (hm' heq)
      rw [this, List.map_nil]
    · rfl
  rw [note_story, hold, hhs, hss]
  rfl

end

lemma numbered_run (k : UInt8) (es : List Event) : Numbered (log k es) ((run es).sse k) := by
  induction es using List.reverseRecOn with
  | nil => exact ⟨by simp [splitInit], fun m _ _ => rfl⟩
  | append_singleton es e ih =>
    rw [log_concat]
    exact numbered_note ih (sseChange_run es e k)

end Ipcf
