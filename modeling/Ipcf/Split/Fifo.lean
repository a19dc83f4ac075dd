import Ipcf.Split.Peers
import Mathlib.Data.List.Induction

/-!
# At most once, in order, over a lossy link

Two endpoints joined by channels that keep the order of the frames and may lose any of them.  The
receiver ought to submit a subsequence of what was accepted from the sender.  It does not: its
guard against submitting twice is a flag of the session, and a DATA frame, which the sender repeats
when its acknowledgements are lost, opens the session anew (`submitted_twice`).

`fifo_at_most_once` says that nothing else goes wrong.  The accepted messages are numbered, and
each frame on the way carries, for the proof only, the number of the packet it is about.  If no
DATA frame of a message that was submitted already is delivered, then what is submitted is a
subsequence of what was accepted.  Only when the session of the sender has been freed, so that its
sequence numbers have started over, a second condition is needed: that no side acts on a frame
about another packet with the same sequence number.
-/

namespace Ipcf

/-! ## The link -/

inductive FifoOp
  | upperSend (msg : Bytes)
  | timerA
  | timerB
  | fetchA (len : ℕ)
  | fetchB (len : ℕ)
  | loseB (i : ℕ)
  | loseA (i : ℕ)
  | deliverB
  | deliverA

/-- An operation, the time of it, and the local arrays it finds. -/
structure FifoEvent where
  now : ℤ
  stack : UInt8 → Stack
  op : FifoOp

/-- Two endpoints and the frames between them, oldest first.  `tagsA` and `tagsB` number the frames
that are not fetched yet; `accepted` are the accepted parts of the messages, `current` is the
number of the packet that the session of B was opened for, `submitted` the numbers of the messages
that B has submitted, and `freed` says whether a session of A has been freed.  None of these are
part of the program. -/
structure Fifo where
  a : Split
  b : Split
  toB : List (ℕ × Bytes)
  toA : List (ℕ × Bytes)
  tagsA : List ℕ
  tagsB : List ℕ
  accepted : List Bytes
  current : ℕ
  submitted : List ℕ
  freed : Bool

namespace Fifo

def init : Fifo where
  a := splitInit
  b := splitInit
  toB := []
  toA := []
  tagsA := []
  tagsB := []
  accepted := []
  current := 0
  submitted := []
  freed := false

/-- The number of the packet in front of the queue of A. -/
def front (dmac : UInt8) (n : Fifo) : ℕ := n.accepted.length - queueLen dmac n.a

/-- A becomes `a`, which has accepted the messages `msgs`; what it has queued is about the packet
in front. -/
def stepA (dmac : UInt8) (a : Split) (msgs : List Bytes) (n : Fifo) : Fifo :=
  let accepted := n.accepted ++ msgs
  { n with
    a := a
    accepted := accepted
    tagsA := n.tagsA ++ List.replicate (a.lowerSendList.length - n.a.lowerSendList.length)
      (accepted.length - queueLen dmac a)
    freed := n.freed || (n.a.sse dmac).isSome && (a.sse dmac).isNone }

/-- B becomes `b`, with a session for the packet `current`. -/
def stepB (b : Split) (current : ℕ) (n : Fifo) : Fifo :=
  { n with
    b := b
    current := current
    tagsB := n.tagsB ++ List.replicate (b.lowerSendList.length - n.b.lowerSendList.length) current
    submitted := n.submitted ++
      List.replicate (b.upperRecvList.length - n.b.upperRecvList.length) current }

def step (smac dmac : UInt8) (n : Fifo) (e : FifoEvent) : Fifo :=
  match e.op with
  | .upperSend msg =>
    let r := upperSend e.now (e.stack 0) smac dmac msg n.a
    n.stepA dmac r.1 (if 0 < r.2 then [msg.take r.2.toNat] else [])
  | .timerA => n.stepA dmac (procTimer e.now e.stack n.a) []
  | .timerB => n.stepB (procTimer e.now e.stack n.b) n.current
  | .fetchA len =>
    let r := lowerFetch len n.a
    { n with
      a := r.1
      tagsA := n.tagsA.tail
      toB := n.toB ++ n.tagsA.head?.toList.map fun i => (i, r.2.1) }
  | .fetchB len =>
    let r := lowerFetch len n.b
    { n with
      b := r.1
      tagsB := n.tagsB.tail
      toA := n.toA ++ n.tagsB.head?.toList.map fun i => (i, r.2.1) }
  | .loseB i => { n with toB := n.toB.eraseIdx i }
  | .loseA i => { n with toA := n.toA.eraseIdx i }
  | .deliverB =>
    match n.toB with
    | [] => n
    | (i, raw) :: toB =>
      { n with toB := toB }.stepB (lowerPut e.now (e.stack 0) raw n.b).1
        (if isData raw then i else n.current)
  | .deliverA =>
    match n.toA with
    | [] => n
    | (_, raw) :: toA =>
      { n with toA := toA }.stepA dmac (lowerPut e.now (e.stack 0) raw n.a).1 []

/-- The state after the events, from two fresh endpoints. -/
def run (smac dmac : UInt8) (es : List FifoEvent) : Fifo := es.foldl (step smac dmac) init

@[simp] lemma run_nil (smac dmac : UInt8) : run smac dmac [] = init := rfl

@[simp] lemma run_concat (smac dmac : UInt8) (es : List FifoEvent) (e : FifoEvent) :
    run smac dmac (es ++ [e]) = (run smac dmac es).step smac dmac e := by
  simp [run]

/-- No two packets had the same sequence number so far. -/
def distinct (n : Fifo) : Bool := !n.freed && decide (n.accepted.length ≤ 256)

/-- The event is no DATA frame of a message that B has submitted already, no PATCH frame whose
slices B stores for another packet, and no request that A answers for another packet; the last two
are possible only when sequence numbers were used again. -/
def fine (smac dmac : UInt8) (n : Fifo) (e : FifoEvent) : Bool :=
  match e.op, n.toB, n.toA with
  | .deliverB, (i, raw) :: _, _ =>
    match accept raw with
    | some (.data _ _ _) => decide (i ∉ n.submitted)
    | some (.patch _ mh _) =>
      match n.b.rse smac with
      | some se =>
        n.distinct || decide (se.completed = false → se.seqExp = mh.seq → i = n.current)
      | none => true
    | _ => true
  | .deliverA, _, (i, raw) :: _ =>
    match accept raw, (n.a.sse dmac).map Sse.pktList with
    | some (.ackPart _ mh _), some (pkt :: _) =>
      n.distinct || decide (pkt.mh.seq = mh.seq → i = n.front dmac)
    | _, _ => true
  | _, _, _ => true

/-- The numbered frames of A on their way to B, and those of B on their way to A. -/
def inFlightB (n : Fifo) : List (ℕ × Bytes) := n.toB ++ n.tagsA.zip n.a.lowerSendList

def inFlightA (n : Fifo) : List (ℕ × Bytes) := n.toA ++ n.tagsB.zip n.b.lowerSendList

end Fifo

/-! ## The invariant -/

/-- The invariant, with the packets `ps` that were accepted so far.  The numbers on the way to B
are in order, between that of the session of B and that of the packet in front of A. -/
structure FifoInv (smac dmac : UInt8) (ps : List Packet) (n : Fifo) : Prop where
  accepted : n.accepted = ps.map Packet.payload
  sender : ∃ qs, qs <:+ ps ∧ SenderInv smac dmac qs n.a
  numbered : n.freed = false → nextSeq dmac n.a = UInt8.ofNat ps.length ∧
    ∀ (i : ℕ) (p : Packet), ps[i]? = some p → p.seq = UInt8.ofNat i
  tagsA : n.tagsA.length = n.a.lowerSendList.length
  tagsB : n.tagsB.length = n.b.lowerSendList.length
  ordered : (n.current :: n.inFlightB.map Prod.fst ++ [n.front dmac]).Pairwise (· ≤ ·)
  framesA : ∀ x ∈ n.inFlightB, accept x.2 = none ∨
    ∃ p, ps[x.1]? = some p ∧ FrameOf smac dmac p x.2
  framesB : ∀ x ∈ n.inFlightA, accept x.2 = none ∨
    ∃ p, ps[x.1]? = some p ∧ AckOf smac dmac p True x.2
  noSse : ∀ k, n.b.sse k = none
  session : ∀ se, n.b.rse smac = some se → ∃ p, ps[n.current]? = some p ∧ Serves p se ∧
    (se.completed = false → n.current ∉ n.submitted)
  le_current : ∀ i ∈ n.submitted, i ≤ n.current
  increasing : n.submitted.Pairwise (· < ·)
  upper : n.b.upperRecvList.map some = n.submitted.map fun i => n.accepted[i]?

lemma fifoInv_init (smac dmac : UInt8) : FifoInv smac dmac [] Fifo.init where
  accepted := rfl
  sender := ⟨[], List.suffix_refl _, senderInv_init smac dmac⟩
  numbered := fun _ => ⟨rfl, by simp⟩
  tagsA := rfl
  tagsB := rfl
  ordered := by simp [Fifo.init, Fifo.inFlightB, Fifo.front]
  framesA := by simp [Fifo.init, Fifo.inFlightB]
  framesB := by simp [Fifo.init, Fifo.inFlightA]
  noSse := fun _ => rfl
  session := by simp [Fifo.init, splitInit]
  le_current := by simp [Fifo.init]
  increasing := by simp [Fifo.init]
  upper := rfl

/-- Numbering the frames that are queued behind the others. -/
lemma zip_replicate_append {tags : List ℕ} {l queued : List Bytes} (h : tags.length = l.length)
    (i : ℕ) :
    (tags ++ List.replicate ((l ++ queued).length - l.length) i).zip (l ++ queued) =
      tags.zip l ++ queued.map fun f => (i, f) := by
  rw [List.length_append, Nat.add_sub_cancel_left, List.zip_append h]
  congr 1
  induction queued with
  | nil => rfl
  | cons f queued ih =>
    rw [List.length_cons, List.replicate_succ, List.zip_cons_cons, ih]
    rfl

/-- Numbers that are in order stay so when the last one grows and is repeated. -/
lemma pairwise_le_extend {xs : List ℕ} {x y : ℕ} (h : (xs ++ [x]).Pairwise (· ≤ ·)) (hxy : x ≤ y)
    (k : ℕ) : (xs ++ List.replicate k y ++ [y]).Pairwise (· ≤ ·) := by
  obtain ⟨hxs, -, hlast⟩ := List.pairwise_append.1 h
  rw [List.append_assoc, ← List.replicate_succ', List.pairwise_append]
  refine ⟨hxs, List.pairwise_replicate.2 (.inr (Nat.le_refl y)), fun a ha b hb => ?_⟩
  rw [List.eq_of_mem_replicate hb]
  exact Nat.le_trans (hlast a ha x (List.mem_singleton_self x)) hxy

section

variable {smac dmac : UInt8} {ps : List Packet} {n : Fifo}

lemma SenderInv.queueLen_eq {qs : List Packet} {a : Split} (h : SenderInv smac dmac qs a) :
    queueLen dmac a = qs.length := by
  unfold queueLen
  cases hget : a.sse dmac with
  | none =>
    rw [h.empty hget]
    rfl
  | some se => exact (h.holds se hget).length_eq

/-- The packet in front of the queue is the one with the number `front`. -/
lemma getElem?_front {qs : List Packet} {a : Split} (h : SenderInv smac dmac qs a)
    (hsuffix : qs <:+ ps) : ps[ps.length - queueLen dmac a]? = qs.head? := by
  obtain ⟨t, rfl⟩ := hsuffix
  rw [h.queueLen_eq, List.length_append, Nat.add_sub_cancel,
    List.getElem?_append_right (Nat.le_refl _),
    Nat.sub_self, List.head?_eq_getElem?]

/-- While no sequence number is used twice, it stands for one packet. -/
lemma FifoInv.seq_inj (h : FifoInv smac dmac ps n) (hdistinct : n.distinct = true) {i j : ℕ}
    {p q : Packet} (hp : ps[i]? = some p) (hq : ps[j]? = some q) (hseq : p.seq = q.seq) :
    i = j := by
  rw [Fifo.distinct, Bool.and_eq_true, Bool.not_eq_true', decide_eq_true_eq, h.accepted,
    List.length_map] at hdistinct
  obtain ⟨-, hseqs⟩ := h.numbered hdistinct.1
  have hi := (List.getElem?_eq_some_iff.1 hp).1
  have hj := (List.getElem?_eq_some_iff.1 hq).1
  rw [hseqs i p hp, hseqs j q hq] at hseq
  have hnat := congrArg UInt8.toNat hseq
  rwa [UInt8.toNat_ofNat', UInt8.toNat_ofNat', Nat.mod_eq_of_lt (by omega),
    Nat.mod_eq_of_lt (by omega)] at hnat

/-- Packets that are numbered on from the last one. -/
lemma FifoInv.numbered_append (h : FifoInv smac dmac ps n) (hfreed : n.freed = false) {a' : Split}
    {new : List Packet} (hone : new.length ≤ 1) (hnew : ∀ p ∈ new, p.seq = nextSeq dmac n.a)
    (hnext' : nextSeq dmac a' = nextSeq dmac n.a + UInt8.ofNat new.length) :
    nextSeq dmac a' = UInt8.ofNat (ps ++ new).length ∧
      ∀ (i : ℕ) (p : Packet), (ps ++ new)[i]? = some p → p.seq = UInt8.ofNat i := by
  obtain ⟨hnext, hold⟩ := h.numbered hfreed
  refine ⟨?_, fun i p hp => ?_⟩
  · rw [hnext', hnext, List.length_append]
    exact (UInt8.ofNat_add _ _).symm
  · by_cases hi : i < ps.length
    · rw [List.getElem?_append_left hi] at hp
      exact hold i p hp
    · have hlt := (List.getElem?_eq_some_iff.1 hp).1
      rw [List.length_append] at hlt
      rw [List.getElem?_append_right (Nat.le_of_not_lt hi)] at hp
      rw [hnew p (List.mem_of_getElem? hp), hnext, show i = ps.length by omega]

/-- What was submitted is still what was accepted when more is accepted. -/
lemma FifoInv.upper_append (h : FifoInv smac dmac ps n) (msgs : List Bytes) :
    n.b.upperRecvList.map some = n.submitted.map fun i => (n.accepted ++ msgs)[i]? := by
  have hupper := h.upper
  rw [hupper]
  apply List.map_congr_left
  intro i hi
  have hmem : n.accepted[i]? ∈ n.b.upperRecvList.map some := by
    rw [hupper]
    exact List.mem_map.2 ⟨i, hi, rfl⟩
  obtain ⟨m, -, hm⟩ := List.mem_map.1 hmem
  rw [List.getElem?_append_left (List.getElem?_eq_some_iff.1 hm.symm).1]

/-- A step of A. -/
lemma fifoInv_stepA (h : FifoInv smac dmac ps n) {a' : Split} {qs : List Packet}
    (new : List Packet) (hsuffix : qs <:+ ps ++ new) (hsender : SenderInv smac dmac qs a')
    (hfront : n.front dmac ≤ (ps ++ new).length - qs.length)
    (hseqs : ((n.a.sse dmac).isSome → (a'.sse dmac).isSome) → new.length ≤ 1 ∧
      (∀ p ∈ new, p.seq = nextSeq dmac n.a) ∧
      nextSeq dmac a' = nextSeq dmac n.a + UInt8.ofNat new.length)
    (hqueues : QueuesFront smac dmac qs n.a a') :
    FifoInv smac dmac (ps ++ new) (n.stepA dmac a' (new.map Packet.payload)) := by
  obtain ⟨queued, hlist, hframes⟩ := hqueues
  have haccepted : n.accepted ++ new.map Packet.payload = (ps ++ new).map Packet.payload := by
    rw [h.accepted, List.map_append]
  have hlen : (n.accepted ++ new.map Packet.payload).length = (ps ++ new).length := by
    rw [haccepted, List.length_map]
  have hget : ∀ (i : ℕ) (p : Packet), ps[i]? = some p → (ps ++ new)[i]? = some p := by
    intro i p hp
    rw [List.getElem?_append_left (List.getElem?_eq_some_iff.1 hp).1, hp]
  have hflight : (n.stepA dmac a' (new.map Packet.payload)).inFlightB =
      n.inFlightB ++
        queued.map fun f => ((n.stepA dmac a' (new.map Packet.payload)).front dmac, f) := by
    simp only [Fifo.inFlightB, Fifo.stepA, Fifo.front]
    rw [hlist, zip_replicate_append h.tagsA, List.append_assoc]
  have hfront' : (n.stepA dmac a' (new.map Packet.payload)).front dmac =
      (ps ++ new).length - qs.length := by
    simp only [Fifo.front, Fifo.stepA]
    rw [hlen, hsender.queueLen_eq]
  refine ⟨haccepted, ⟨qs, hsuffix, hsender⟩, ?_, ?_, h.tagsB, ?_, ?_, ?_, h.noSse, ?_, h.le_current,
    h.increasing, ?_⟩
  · intro hfreed
    simp only [Fifo.stepA, Bool.or_eq_false_iff, Bool.and_eq_false_imp] at hfreed
    obtain ⟨hone, hnew, hnext'⟩ := hseqs fun hsome => by
      rw [← Option.not_isNone, hfreed.2 hsome]
      rfl
    exact h.numbered_append hfreed.1 hone hnew hnext'
  · simp only [Fifo.stepA, List.length_append, List.length_replicate, h.tagsA, hlist]
    omega
  · have hfst : (queued.map fun f =>
        ((n.stepA dmac a' (new.map Packet.payload)).front dmac, f)).map Prod.fst =
        List.replicate queued.length ((n.stepA dmac a' (new.map Packet.payload)).front dmac) := by
      rw [List.map_map]
      exact List.map_const' ..
    rw [hflight, List.map_append, hfst, ← List.cons_append]
    exact pairwise_le_extend h.ordered (hfront'.symm ▸ hfront) _
  · intro x hx
    rw [hflight] at hx
    rcases List.mem_append.1 hx with hx | hx
    · rcases h.framesA x hx with hnone | ⟨p, hp, hframe⟩
      · exact .inl hnone
      · exact .inr ⟨p, hget _ _ hp, hframe⟩
    · obtain ⟨f, hf, rfl⟩ := List.mem_map.1 hx
      obtain ⟨p, qs', rfl, hframe⟩ := hframes f hf
      refine .inr ⟨p, ?_, hframe⟩
      have := getElem?_front hsender hsuffix
      rw [hsender.queueLen_eq] at this
      rw [hfront', this]
      rfl
  · intro x hx
    rcases h.framesB x hx with hnone | ⟨p, hp, hack⟩
    · exact .inl hnone
    · exact .inr ⟨p, hget _ _ hp, hack⟩
  · intro se hse
    obtain ⟨p, hp, hserves⟩ := h.session se hse
    exact ⟨p, hget _ _ hp, hserves⟩
  · exact h.upper_append _

lemma FifoInv.front_eq (h : FifoInv smac dmac ps n) {qs : List Packet}
    (hsender : SenderInv smac dmac qs n.a) : n.front dmac = ps.length - qs.length := by
  rw [Fifo.front, h.accepted, List.length_map, hsender.queueLen_eq]

/-- A step of A on the packets it holds. -/
lemma fifoInv_stepA_nil (h : FifoInv smac dmac ps n) {a' : Split} {qs qs' : List Packet}
    (hsuffix : qs <:+ ps) (hsender : SenderInv smac dmac qs n.a) (hsuffix' : qs' <:+ qs)
    (hsender' : SenderInv smac dmac qs' a')
    (hnext : ((n.a.sse dmac).isSome → (a'.sse dmac).isSome) → nextSeq dmac a' = nextSeq dmac n.a)
    (hqueues : QueuesFront smac dmac qs' n.a a') : FifoInv smac dmac ps (n.stepA dmac a' []) := by
  have hlen := hsuffix'.length_le
  have hps : ps ++ [] = ps := List.append_nil ps
  have hstep := fifoInv_stepA h [] (hps.symm ▸ hsuffix'.trans hsuffix) hsender'
    (by rw [h.front_eq hsender, hps]; omega)
    (fun hkept => ⟨Nat.zero_le _, by simp, by simpa using hnext hkept⟩) hqueues
  rwa [hps] at hstep

/-- A step on the links alone: frames are lost, or moved on. -/
lemma fifoInv_links (h : FifoInv smac dmac ps n) {a b : Split} {toB toA : List (ℕ × Bytes)}
    {tagsA tagsB : List ℕ} (hsse : a.sse = n.a.sse) (hbsse : b.sse = n.b.sse)
    (hrse : b.rse = n.b.rse) (hupper : b.upperRecvList = n.b.upperRecvList)
    (htagsA : tagsA.length = a.lowerSendList.length)
    (htagsB : tagsB.length = b.lowerSendList.length)
    (hB : ((toB ++ tagsA.zip a.lowerSendList).map Prod.fst).Sublist (n.inFlightB.map Prod.fst) ∧
      ∀ x ∈ toB ++ tagsA.zip a.lowerSendList, x ∈ n.inFlightB ∨ accept x.2 = none)
    (hA : ∀ x ∈ toA ++ tagsB.zip b.lowerSendList, x ∈ n.inFlightA ∨ accept x.2 = none) :
    FifoInv smac dmac ps
      { n with a := a, b := b, toB := toB, toA := toA, tagsA := tagsA, tagsB := tagsB } := by
  obtain ⟨qs, hsuffix, hsender⟩ := h.sender
  refine ⟨h.accepted, ⟨qs, hsuffix, ?_⟩, ?_, htagsA, htagsB, ?_, ?_, ?_, ?_, ?_, h.le_current,
    h.increasing, ?_⟩
  · exact ⟨fun k hk => by rw [hsse]; exact hsender.only k hk,
      fun se hse => hsender.holds se (hsse ▸ hse), fun hnone => hsender.empty (hsse ▸ hnone)⟩
  · intro hfreed
    rw [nextSeq, hsse]
    exact h.numbered hfreed
  · have hfront : n.accepted.length - queueLen dmac a = n.front dmac := by
      rw [Fifo.front, queueLen, queueLen, hsse]
    simp only [Fifo.front, hfront]
    exact h.ordered.sublist ((hB.1.cons_cons _).append (List.Sublist.refl _))
  · intro x hx
    rcases hB.2 x hx with hx | hx
    · exact h.framesA x hx
    · exact .inl hx
  · intro x hx
    rcases hA x hx with hx | hx
    · exact h.framesB x hx
    · exact .inl hx
  · intro k
    rw [hbsse]
    exact h.noSse k
  · intro se hse
    exact h.session se (hrse ▸ hse)
  · rw [hupper]
    exact h.upper

/-- Fetching a frame moves it on the link, or loses its bytes. -/
lemma fetched {tags : List ℕ} {s : Split} (htags : tags.length = s.lowerSendList.length) (len : ℕ) :
    tags.tail.length = (lowerFetch len s).1.lowerSendList.length ∧
      (tags.head?.toList.map (fun i => (i, (lowerFetch len s).2.1)) ++
        tags.tail.zip (lowerFetch len s).1.lowerSendList).map Prod.fst =
          (tags.zip s.lowerSendList).map Prod.fst ∧
      ∀ x ∈ tags.head?.toList.map (fun i => (i, (lowerFetch len s).2.1)) ++
          tags.tail.zip (lowerFetch len s).1.lowerSendList,
        x ∈ tags.zip s.lowerSendList ∨ accept x.2 = none := by
  unfold lowerFetch
  cases hlist : s.lowerSendList with
  | nil =>
    rw [hlist, List.length_nil, List.length_eq_zero_iff] at htags
    subst htags
    simp [hlist]
  | cons f fs =>
    cases tags with
    | nil =>
      rw [hlist] at htags
      cases htags
    | cons i tags =>
      rw [hlist] at htags
      simp only
      split_ifs <;> simpa using ⟨Nat.succ.inj htags, fun a b hab => .inl (.inr hab)⟩

/-- A step of B, which has a session for `current` afterwards and has submitted nothing or the
payload of that packet. -/
lemma fifoInv_stepB (h : FifoInv smac dmac ps n) {b' : Split} {current : ℕ} (gained : List Bytes)
    (hcurrent : n.current ≤ current)
    (hflight : (current :: n.inFlightB.map Prod.fst ++ [n.front dmac]).Pairwise (· ≤ ·))
    (hsse : ∀ k, b'.sse k = none)
    (hacks : ∃ queued, b'.lowerSendList = n.b.lowerSendList ++ queued ∧ ∀ f ∈ queued,
      ∃ p, ps[current]? = some p ∧ AckOf smac dmac p True f)
    (hupper : b'.upperRecvList = n.b.upperRecvList ++ gained)
    (hgained : gained = [] ∨ ∃ p, gained = [p.payload] ∧ ps[current]? = some p ∧
      ∀ i ∈ n.submitted, i < current)
    (hsession : ∀ se, b'.rse smac = some se → ∃ p, ps[current]? = some p ∧ Serves p se ∧
      (se.completed = false → gained = [] ∧ current ∉ n.submitted)) :
    FifoInv smac dmac ps (n.stepB b' current) := by
  obtain ⟨queued, hlist, hacks⟩ := hacks
  have hsub : (n.stepB b' current).submitted =
      n.submitted ++ List.replicate gained.length current := by
    simp only [Fifo.stepB, hupper, List.length_append, Nat.add_sub_cancel_left]
  refine ⟨h.accepted, h.sender, h.numbered, h.tagsA, ?_, hflight, h.framesA, ?_, hsse, ?_, ?_, ?_,
    ?_⟩
  · simp only [Fifo.stepB, List.length_append, List.length_replicate, h.tagsB, hlist]
    omega
  · intro x hx
    simp only [Fifo.inFlightA, Fifo.stepB] at hx
    rw [hlist, zip_replicate_append h.tagsB, ← List.append_assoc] at hx
    rcases List.mem_append.1 hx with hx | hx
    · exact h.framesB x hx
    · obtain ⟨f, hf, rfl⟩ := List.mem_map.1 hx
      exact .inr (hacks f hf)
  · intro se hse
    obtain ⟨p, hp, hserves, hpending⟩ := hsession se hse
    refine ⟨p, hp, hserves, fun hfalse => ?_⟩
    obtain ⟨rfl, hnot⟩ := hpending hfalse
    rw [hsub, List.length_nil, List.replicate_zero, List.append_nil]
    exact hnot
  · intro i hi
    rw [hsub] at hi
    rcases List.mem_append.1 hi with hi | hi
    · exact Nat.le_trans (h.le_current i hi) hcurrent
    · exact Nat.le_of_eq (List.eq_of_mem_replicate hi)
  · rw [hsub]
    rcases hgained with rfl | ⟨p, rfl, -, hlt⟩
    · simpa using h.increasing
    · rw [List.length_singleton, List.replicate_one, List.pairwise_append]
      refine ⟨h.increasing, List.pairwise_singleton .., fun i hi j hj => ?_⟩
      rw [List.mem_singleton.1 hj]
      exact hlt i hi
  · rw [hsub]
    change b'.upperRecvList.map some = _
    rw [hupper, List.map_append, h.upper, List.map_append]
    congr 1
    rcases hgained with rfl | ⟨p, rfl, hp, -⟩
    · rfl
    · simp [Fifo.stepB, h.accepted, hp]

/-- A frame that B does not accept. -/
lemma Fifo.stepB_same (n : Fifo) : n.stepB n.b n.current = n := by
  simp [Fifo.stepB]

/-- The first frame is taken off the link to B. -/
lemma FifoInv.takeB (h : FifoInv smac dmac ps n) {i : ℕ} {raw : Bytes} {toB : List (ℕ × Bytes)}
    (hto : n.toB = (i, raw) :: toB) :
    FifoInv smac dmac ps { n with toB := toB } ∧ n.current ≤ i ∧
      (i :: ({ n with toB := toB } : Fifo).inFlightB.map Prod.fst ++ [n.front dmac]).Pairwise
        (· ≤ ·) ∧
      (accept raw = none ∨ ∃ p, ps[i]? = some p ∧ FrameOf smac dmac p raw) := by
  have hflight : n.inFlightB = (i, raw) :: (toB ++ n.tagsA.zip n.a.lowerSendList) := by
    rw [Fifo.inFlightB, hto]
    rfl
  have hordered := h.ordered
  rw [hflight, List.map_cons, List.cons_append, List.cons_append] at hordered
  refine ⟨fifoInv_links h rfl rfl rfl rfl h.tagsA h.tagsB ⟨?_, fun x hx => ?_⟩
    fun x hx => .inl hx, List.rel_of_pairwise_cons hordered (List.mem_cons_self ..),
    (List.pairwise_cons.1 hordered).2,
    h.framesA (i, raw) (by rw [hflight]; exact List.mem_cons_self ..)⟩
  · rw [hflight, List.map_cons]
    exact List.sublist_cons_self _ _
  · rw [hflight]
    exact .inl (List.mem_cons_of_mem _ hx)

/-- The slices of a fine PATCH frame are stored for the packet that they belong to. -/
lemma FifoInv.same_of_fine (h : FifoInv smac dmac ps n) {i : ℕ} {p q : Packet} {fh : FrmHdr}
    {mh : MsgHdr} {data raw : Bytes} {se : Rse} (haccept : accept raw = some (.patch fh mh data))
    (hfine : n.distinct = true ∨ (se.completed = false → se.seqExp = mh.seq → i = n.current))
    (hp : ps[i]? = some p) (hframe : FrameOf smac dmac p raw) (hq : ps[n.current]? = some q)
    (hserves : Serves q se) (hpending : se.completed = false) (hseq : q.seq = p.seq) : q = p := by
  have hcur : i = n.current := by
    rcases hfine with hdistinct | hsame
    · exact h.seq_inj hdistinct hp hq hseq.symm
    · exact hsame hpending (by rw [hserves.receives.seqExp, hseq, hframe.patch_seq haccept])
  rw [← hcur] at hq
  exact Option.some.inj (hq.symm.trans hp)

lemma fifoInv_deliverB (h : FifoInv smac dmac ps n) (now : ℤ) (stack : UInt8 → Stack)
    (hfine : n.fine smac dmac ⟨now, stack, .deliverB⟩ = true) :
    FifoInv smac dmac ps (n.step smac dmac ⟨now, stack, .deliverB⟩) := by
  cases hto : n.toB with
  | nil =>
    simp only [Fifo.step, hto]
    exact h
  | cons x toB =>
    obtain ⟨i, raw⟩ := x
    simp only [Fifo.step, hto]
    simp only [Fifo.fine, hto] at hfine
    obtain ⟨h₁, hle, hi, hframe⟩ := h.takeB hto
    set n₁ : Fifo := { n with toB := toB } with hn₁
    have hsame : FifoInv smac dmac ps (n₁.stepB n₁.b n₁.current) := by
      rw [n₁.stepB_same]
      exact h₁
    have hdata : isData raw = true → i ∉ n.submitted := by
      intro hdata
      unfold isData at hdata
      split at hdata
      · rename_i haccept
        simpa [haccept] using hfine
      · cases hdata
    rcases hframe with hnone | ⟨p, hp, hframe⟩
    · have hnot : isData raw = false := by rw [isData, hnone]
      rw [lowerPut_rejected hnone, hnot]
      exact hsame
    · have hq : ∃ q, ∀ se, n.b.rse smac = some se → ps[n.current]? = some q ∧ Serves q se ∧
          (se.completed = false → n.current ∉ n.submitted) := by
        cases hget : n.b.rse smac with
        | none => exact ⟨p, by simp⟩
        | some se =>
          obtain ⟨q, hq, hserves⟩ := h.session se hget
          exact ⟨q, by rintro _ ⟨⟩; exact ⟨hq, hserves⟩⟩
      obtain ⟨q, hq⟩ := hq
      obtain ⟨hsse, hstep⟩ := receiverStep now (stack 0) hframe (fun se hse => (hq se hse).2.1)
        fun fh mh data haccept se hse => h.same_of_fine haccept
          (by simpa only [haccept, hse, Bool.or_eq_true, decide_eq_true_eq] using hfine)
          hp hframe (hq se hse).1 (hq se hse).2.1
      have hsse' : ∀ k, (lowerPut now (stack 0) raw n.b).1.sse k = none := by
        intro k
        rw [hsse]
        exact h.noSse k
      cases hstep with
      | none hother heq _ =>
        rw [heq, hother]
        exact hsame
      | @opened se' hopen hrse hserves hpending hupper hacks =>
        obtain ⟨queued, hlist, hqueued⟩ := hacks
        rw [hopen, if_pos rfl]
        refine fifoInv_stepB h₁ [] hle hi hsse' ⟨queued, hlist, fun f hf => ⟨p, hp, ?_⟩⟩
          (by rw [hupper, List.append_nil]) (.inl rfl) ?_
        · exact (hqueued f hf).mono False.elim
        · intro se hse
          obtain rfl : se' = se := Option.some.inj (hrse.symm.trans hse)
          exact ⟨p, hp, hserves, fun _ => ⟨rfl, hdata hopen⟩⟩
      | @kept se se' hother hget hrse hserves hcompleted hupper hacks =>
        obtain ⟨queued, hlist, hqueued⟩ := hacks
        obtain ⟨hqcur, -, hpending⟩ := hq se hget
        rw [hother, if_neg (by decide)]
        refine fifoInv_stepB h₁ [] (Nat.le_refl _) h₁.ordered hsse'
          ⟨queued, hlist, fun f hf => ⟨q, hqcur, ?_⟩⟩ (by rw [hupper, List.append_nil])
          (.inl rfl) ?_
        · exact (hqueued f hf).mono fun _ => trivial
        · intro se'' hse
          obtain rfl : se' = se'' := Option.some.inj (hrse.symm.trans hse)
          exact ⟨q, hqcur, hserves, fun hfalse => ⟨rfl, hpending (hcompleted ▸ hfalse)⟩⟩
      | @finished se se' hother hget hbefore hrse hserves hcompleted hqp hupper hacks =>
        obtain ⟨queued, hlist, hqueued⟩ := hacks
        obtain ⟨hqcur, -, hpending⟩ := hq se hget
        rw [hqp] at hqcur
        rw [hother, if_neg (by decide)]
        refine fifoInv_stepB h₁ [p.payload] (Nat.le_refl _) h₁.ordered hsse'
          ⟨queued, hlist, fun f hf => ⟨p, hqcur, ?_⟩⟩ hupper (.inr ⟨p, rfl, hqcur, ?_⟩) ?_
        · exact (hqueued f hf).mono fun _ => trivial
        · intro j hj
          exact Nat.lt_of_le_of_ne (h.le_current j hj) fun hj' => hpending hbefore (hj' ▸ hj)
        · intro se'' hse
          obtain rfl : se' = se'' := Option.some.inj (hrse.symm.trans hse)
          refine ⟨p, hqcur, hserves, fun hfalse => ?_⟩
          rw [hcompleted] at hfalse
          cases hfalse

/-- The first frame is taken off the link to A. -/
lemma FifoInv.takeA (h : FifoInv smac dmac ps n) {i : ℕ} {raw : Bytes} {toA : List (ℕ × Bytes)}
    (hto : n.toA = (i, raw) :: toA) :
    FifoInv smac dmac ps { n with toA := toA } ∧
      (accept raw = none ∨ ∃ q, ps[i]? = some q ∧ AckOf smac dmac q True raw) := by
  have hflight : n.inFlightA = (i, raw) :: (toA ++ n.tagsB.zip n.b.lowerSendList) := by
    rw [Fifo.inFlightA, hto]
    rfl
  refine ⟨fifoInv_links h rfl rfl rfl rfl h.tagsA h.tagsB
    ⟨List.Sublist.refl _, fun x hx => .inl hx⟩ fun x hx => ?_,
    h.framesB (i, raw) (by rw [hflight]; exact List.mem_cons_self ..)⟩
  rw [hflight]
  exact .inl (List.mem_cons_of_mem _ hx)

/-- A fine request is answered for the packet that it is about. -/
lemma FifoInv.front_of_fine (h : FifoInv smac dmac ps n) {i : ℕ} {p q : Packet} {fh : FrmHdr}
    {mh : MsgHdr} {req raw : Bytes} {qs : List Packet}
    (haccept : accept raw = some (.ackPart fh mh req))
    (hfine : ∀ pkt pkts, (n.a.sse dmac).map Sse.pktList = some (pkt :: pkts) →
      n.distinct = true ∨ (pkt.mh.seq = mh.seq → i = n.front dmac))
    (hq : ps[i]? = some q) (hack : AckOf smac dmac q True raw) (hsuffix : p :: qs <:+ ps)
    (hsender : SenderInv smac dmac (p :: qs) n.a) (hseq : p.seq = q.seq) : p = q := by
  cases hget : n.a.sse dmac with
  | none => cases hsender.empty hget
  | some se =>
    obtain ⟨pkt, pkts, hpkt, -, hlist⟩ := List.forall₂_cons_right_iff.1 (hsender.holds se hget)
    have hhead := getElem?_front hsender hsuffix
    rw [hsender.queueLen_eq, ← h.front_eq hsender, List.head?_cons] at hhead
    have hi : i = n.front dmac := by
      rcases hfine pkt pkts (by rw [hget, Option.map_some, hlist]) with hdistinct | hsame
      · exact h.seq_inj hdistinct hq hhead hseq.symm
      · exact hsame (by rw [hpkt.mh_seq, hseq, hack.part_seq haccept])
    rw [← hi] at hhead
    exact Option.some.inj (hhead.symm.trans hq)

lemma fifoInv_deliverA (h : FifoInv smac dmac ps n) (now : ℤ) (stack : UInt8 → Stack)
    (hfine : n.fine smac dmac ⟨now, stack, .deliverA⟩ = true) :
    FifoInv smac dmac ps (n.step smac dmac ⟨now, stack, .deliverA⟩) := by
  cases hto : n.toA with
  | nil =>
    simp only [Fifo.step, hto]
    exact h
  | cons x toA =>
    obtain ⟨i, raw⟩ := x
    simp only [Fifo.step, hto]
    simp only [Fifo.fine, hto] at hfine
    obtain ⟨h₁, hframe⟩ := h.takeA hto
    obtain ⟨qs, hsuffix, hsender⟩ := h.sender
    rcases hframe with hnone | ⟨q, hq, hack⟩
    · rw [lowerPut_rejected hnone]
      exact fifoInv_stepA_nil h₁ hsuffix hsender (List.suffix_refl _) hsender (fun _ => rfl)
        ⟨[], by simp, by simp⟩
    · have hpart : ∀ fh mh req, accept raw = some (.ackPart fh mh req) → ∀ p qs', qs = p :: qs' →
          p.seq = q.seq → p = q := by
        rintro fh mh req haccept p qs' rfl
        refine h.front_of_fine haccept (fun pkt pkts hlist => ?_) hq hack hsuffix hsender
        simpa only [haccept, hlist, Bool.or_eq_true, decide_eq_true_eq] using hfine
      obtain ⟨qs', hsender', hnext, -, hqueues, hres⟩ :=
        senderInv_ack hsender now (stack 0) hack hpart
      refine fifoInv_stepA_nil h₁ hsuffix hsender ?_ hsender' (fun _ => hnext) hqueues
      rcases hres with ⟨rfl, -⟩ | ⟨p, rfl, -⟩
      · exact List.suffix_refl _
      · exact List.suffix_cons _ _

lemma fifoInv_upperSend (h : FifoInv smac dmac ps n) (now : ℤ) (stack : UInt8 → Stack)
    (msg : Bytes) :
    ∃ ps', FifoInv smac dmac ps' (n.step smac dmac ⟨now, stack, .upperSend msg⟩) := by
  obtain ⟨qs, hsuffix, hsender⟩ := h.sender
  by_cases hmsg : msg = []
  · have hsame : FifoInv smac dmac ps (n.stepA dmac n.a []) :=
      fifoInv_stepA_nil h hsuffix hsender (List.suffix_refl _) hsender (fun _ => rfl)
        ⟨[], by simp, by simp⟩
    subst hmsg
    exact ⟨ps, hsame⟩
  · obtain ⟨p, hret, htake, hseq, hnext, hsender', hqueues⟩ :=
      senderInv_upperSend hsender now (stack 0) hmsg
    refine ⟨ps ++ [p], ?_⟩
    have hpos : 0 < (p.payload.length : ℤ) :=
      Int.natCast_pos.2 (List.length_pos_iff.2 p.payload_ne)
    have hsuffix' : qs ++ [p] <:+ ps ++ [p] := by
      obtain ⟨t, ht⟩ := hsuffix
      exact ⟨t, by rw [← ht, List.append_assoc]⟩
    have := fifoInv_stepA h [p] hsuffix' hsender' (by
      rw [h.front_eq hsender, List.length_append, List.length_append]
      simp only [List.length_singleton]
      omega) (fun _ => ⟨Nat.le_refl _, fun q hq => by rw [List.mem_singleton.1 hq, hseq],
        by rw [hnext, hseq]; rfl⟩) hqueues
    simp only [Fifo.step, hret, if_pos hpos, Int.toNat_natCast]
    rw [← htake]
    exact this

/-- B has no send session, so that a timer only frees its receive session. -/
lemma fifoInv_timerB (h : FifoInv smac dmac ps n) (now : ℤ) (stack : UInt8 → Stack) :
    FifoInv smac dmac ps (n.step smac dmac ⟨now, stack, .timerB⟩) := by
  obtain ⟨hsse, hlist, hrse⟩ := procTimer_of_noSse now stack h.noSse
  change FifoInv smac dmac ps (n.stepB (procTimer now stack n.b) n.current)
  refine fifoInv_stepB h [] (Nat.le_refl _) h.ordered hsse ⟨[], by simpa using hlist, by simp⟩
    (by simp) (.inl rfl) fun se hse => ?_
  obtain ⟨p, hp, hserves, hpending⟩ := h.session se (hrse smac se hse)
  exact ⟨p, hp, hserves, fun hfalse => ⟨rfl, hpending hfalse⟩⟩

lemma fifoInv_step (h : FifoInv smac dmac ps n) {e : FifoEvent}
    (hfine : n.fine smac dmac e = true) : ∃ ps', FifoInv smac dmac ps' (n.step smac dmac e) := by
  obtain ⟨now, stack, op⟩ := e
  cases op with
  | upperSend msg => exact fifoInv_upperSend h now stack msg
  | timerA =>
    obtain ⟨qs, hsuffix, hsender⟩ := h.sender
    obtain ⟨qs', hsuffix', hsender', hnext, hqueues⟩ := senderInv_procTimer hsender now stack
    have hstep := fifoInv_stepA_nil h hsuffix hsender hsuffix' hsender' hnext hqueues
    exact ⟨ps, hstep⟩
  | timerB => exact ⟨ps, fifoInv_timerB h now stack⟩
  | fetchA len =>
    obtain ⟨hs, -⟩ := lowerFetch_spec len n.a
    obtain ⟨hlen, hfst, hmem⟩ := fetched h.tagsA len
    refine ⟨ps, fifoInv_links h (by rw [hs]) rfl rfl rfl hlen h.tagsB ⟨?_, fun x hx => ?_⟩
      fun x hx => .inl hx⟩
    · rw [Fifo.inFlightB, List.append_assoc, List.map_append, hfst, ← List.map_append]
    · rw [List.append_assoc] at hx
      rcases List.mem_append.1 hx with hx | hx
      · exact .inl (List.mem_append_left _ hx)
      · exact (hmem x hx).imp_left fun hx => List.mem_append_right _ hx
  | fetchB len =>
    obtain ⟨hs, -⟩ := lowerFetch_spec len n.b
    obtain ⟨hlen, -, hmem⟩ := fetched h.tagsB len
    refine ⟨ps, fifoInv_links h rfl (by rw [hs]) (by rw [hs]) (by rw [hs]) h.tagsA hlen
      ⟨List.Sublist.refl _, fun x hx => .inl hx⟩ fun x hx => ?_⟩
    rw [List.append_assoc] at hx
    rcases List.mem_append.1 hx with hx | hx
    · exact .inl (List.mem_append_left _ hx)
    · exact (hmem x hx).imp_left fun hx => List.mem_append_right _ hx
  | loseB i =>
    refine ⟨ps, fifoInv_links h rfl rfl rfl rfl h.tagsA h.tagsB ⟨?_, fun x hx => .inl ?_⟩
      fun x hx => .inl hx⟩
    · rw [Fifo.inFlightB]
      exact ((List.eraseIdx_sublist _ _).append (List.Sublist.refl _)).map _
    · exact ((List.eraseIdx_sublist _ _).append (List.Sublist.refl _)).subset hx
  | loseA i =>
    refine ⟨ps, fifoInv_links h rfl rfl rfl rfl h.tagsA h.tagsB
      ⟨List.Sublist.refl _, fun x hx => .inl hx⟩ fun x hx => .inl ?_⟩
    exact ((List.eraseIdx_sublist _ _).append (List.Sublist.refl _)).subset hx
  | deliverB => exact ⟨ps, fifoInv_deliverB h now stack hfine⟩
  | deliverA => exact ⟨ps, fifoInv_deliverA h now stack hfine⟩

end

lemma fifoInv_run (smac dmac : UInt8) (es : List FifoEvent)
    (hfine : ∀ (i : ℕ) (hi : i < es.length),
      (Fifo.run smac dmac (es.take i)).fine smac dmac es[i] = true) :
    ∃ ps, FifoInv smac dmac ps (Fifo.run smac dmac es) := by
  induction es using List.reverseRecOn with
  | nil => exact ⟨[], fifoInv_init smac dmac⟩
  | append_singleton es e ih =>
    have hlast := hfine es.length (by simp)
    rw [List.take_left, List.getElem_concat_length rfl] at hlast
    obtain ⟨ps, hinv⟩ := ih fun i hi => by
      have hold := hfine i (by rw [List.length_append]; exact Nat.lt_add_right _ hi)
      rwa [List.take_append_of_le_length (Nat.le_of_lt hi), List.getElem_append_left hi] at hold
    rw [Fifo.run_concat]
    exact fifoInv_step hinv hlast

/-- Entries of a list at increasing places are a subsequence of it. -/
lemma sublist_of_increasing {α : Type*} {l xs : List α} {ids : List ℕ} (h : ids.Pairwise (· < ·))
    (hxs : xs.map some = ids.map fun i => l[i]?) : xs.Sublist l := by
  have hlt : ∀ i ∈ ids, i < l.length := by
    intro i hi
    have hmem : l[i]? ∈ xs.map some := by
      rw [hxs]
      exact List.mem_map.2 ⟨i, hi, rfl⟩
    obtain ⟨x, -, hx⟩ := List.mem_map.1 hmem
    exact (List.getElem?_eq_some_iff.1 hx.symm).1
  have hfin : (ids.pmap (fun i hi => (⟨i, hi⟩ : Fin l.length)) hlt).Pairwise (· < ·) :=
    h.pmap hlt fun i hi j hj hij => hij
  have heq : xs = (ids.pmap (fun i hi => (⟨i, hi⟩ : Fin l.length)) hlt).map fun i => l[i] := by
    apply List.map_injective_iff.2 (Option.some_injective α)
    rw [hxs, List.map_pmap, List.map_pmap, ← List.pmap_eq_map hlt]
    apply List.pmap_congr_left
    intro i _ hi _
    exact List.getElem?_eq_getElem hi
  rw [heq]
  exact List.map_getElem_sublist hfin

/-- **At most once, in order.**  In every run over links that keep the order of frames, all of
whose events are fine, what the receiver has submitted are accepted messages with increasing
numbers, so a subsequence of what was accepted. -/
theorem fifo_at_most_once (smac dmac : UInt8) (es : List FifoEvent)
    (hfine : ∀ (i : ℕ) (hi : i < es.length),
      (Fifo.run smac dmac (es.take i)).fine smac dmac es[i] = true) :
    (Fifo.run smac dmac es).submitted.Pairwise (· < ·) ∧
      (Fifo.run smac dmac es).b.upperRecvList.map some =
        (Fifo.run smac dmac es).submitted.map (fun i => (Fifo.run smac dmac es).accepted[i]?) ∧
      (Fifo.run smac dmac es).b.upperRecvList.Sublist (Fifo.run smac dmac es).accepted := by
  obtain ⟨ps, hinv⟩ := fifoInv_run smac dmac es hfine
  exact ⟨hinv.increasing, hinv.upper, sublist_of_increasing hinv.increasing hinv.upper⟩

/-- One message, delivered and acknowledged. -/
def Fifo.delivery : List FifoEvent :=
  [.upperSend [104, 105], .fetchA linkMtu, .deliverB, .fetchB linkMtu, .deliverA, .fetchA linkMtu,
    .deliverB, .fetchB linkMtu].map (FifoEvent.mk 1 default)

theorem fifo_at_most_once_delivery :
    (Fifo.run 1 2 Fifo.delivery).b.upperRecvList = [[104, 105]] ∧
      (Fifo.run 1 2 Fifo.delivery).b.upperRecvList.Sublist
        (Fifo.run 1 2 Fifo.delivery).accepted :=
  ⟨by decide +kernel, (fifo_at_most_once 1 2 Fifo.delivery (by decide +kernel)).2.2⟩

/-- The acknowledgement of the message is lost, and so are the five requests for another one; then
the sender repeats the DATA frame. -/
def Fifo.lostAcks : List FifoEvent :=
  Fifo.delivery ++ [⟨1, default, .loseA 0⟩] ++
    (List.replicate 5 [FifoOp.timerA, .fetchA linkMtu, .loseB 0]).flatten.map
      (FifoEvent.mk 3001 default) ++
    [.timerA, .fetchA linkMtu, .deliverB, .fetchB linkMtu, .deliverA, .fetchA linkMtu,
      .deliverB].map (FifoEvent.mk 3002 default)

/-- The receiver submits the message twice. -/
theorem submitted_twice :
    ¬ ∀ (smac dmac : UInt8) (es : List FifoEvent), (Fifo.run smac dmac es).accepted.length < 256 →
      (Fifo.run smac dmac es).b.upperRecvList.Sublist (Fifo.run smac dmac es).accepted := by
  intro h
  have hone : (Fifo.run 1 2 Fifo.lostAcks).accepted.length = 1 := by decide +kernel
  have htwo : (Fifo.run 1 2 Fifo.lostAcks).b.upperRecvList.length = 2 := by decide +kernel
  have hle := (h 1 2 Fifo.lostAcks (by rw [hone]; decide)).length_le
  rw [hone, htwo] at hle
  exact absurd hle (by decide)

end Ipcf
