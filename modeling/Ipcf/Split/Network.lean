import Ipcf.Split.Peers
import Mathlib.Logic.Relation

/-!
# Acknowledged means delivered

Two endpoints and a network that never forgets a frame: what one side has queued and fetched can
be delivered to the other at any time, any number of times, or never, so loss, duplication, delay
and reordering are all there.  Only the bytes of a frame stay as they are.

`acked_delivered` is what the acknowledgements are worth: when a full acknowledgement makes the
sender forget a packet, its payload has been submitted on the other side, under its sequence
number; and nothing is ever submitted there but what was accepted from a caller.

The sequence number is a byte, and a sender that is freed starts over.  So the runs are those in
which at most 256 messages are sent and the session of the sender is kept; the session of the
receiver may come and go.  `NetInv` is the invariant: each frame in the network is a frame of an
accepted packet or an acknowledgement of one, a full acknowledgement only of a submitted packet.
-/

namespace Ipcf

/-- Two endpoints, the frames of each that the network holds, the calls of `upper_send` with
their return values, and the messages submitted on the other side, each with the sequence number
of the session that submitted it. -/
structure Net where
  a : Split
  b : Split
  toB : List Bytes
  toA : List Bytes
  calls : List (Bytes × ℤ)
  submitted : List (UInt8 × Bytes)

namespace Net

def init : Net where
  a := splitInit
  b := splitInit
  toB := []
  toA := []
  calls := []
  submitted := []

/-- The part of each message that `upper_send` said it would send. -/
def accepted (n : Net) : List Bytes :=
  n.calls.filterMap fun c => if 0 < c.2 then some (c.1.take c.2.toNat) else none

/-! ## Steps -/

def upperSend (now : ℤ) (stack : Stack) (smac dmac : UInt8) (msg : Bytes) (n : Net) : Net :=
  let r := Ipcf.upperSend now stack smac dmac msg n.a
  { n with a := r.1, calls := n.calls ++ [(msg, r.2)] }

def timerA (now : ℤ) (stack : UInt8 → Stack) (n : Net) : Net :=
  { n with a := procTimer now stack n.a }

def timerB (now : ℤ) (stack : UInt8 → Stack) (n : Net) : Net :=
  { n with b := procTimer now stack n.b }

def fetchA (len : ℕ) (n : Net) : Net :=
  let r := lowerFetch len n.a
  { n with a := r.1, toB := n.toB ++ [r.2.1] }

def fetchB (len : ℕ) (n : Net) : Net :=
  let r := lowerFetch len n.b
  { n with b := r.1, toA := n.toA ++ [r.2.1] }

def deliverA (now : ℤ) (stack : Stack) (raw : Bytes) (n : Net) : Net :=
  { n with a := (lowerPut now stack raw n.a).1 }

def deliverB (now : ℤ) (stack : Stack) (smac : UInt8) (raw : Bytes) (n : Net) : Net :=
  let b := (lowerPut now stack raw n.b).1
  let seq := ((b.rse smac).map Rse.seqExp).getD 0
  { n with
    b := b
    submitted := n.submitted ++
      (b.upperRecvList.drop n.b.upperRecvList.length).map fun m => (seq, m) }

end Net

/-- One step: a call on either side, or the delivery of a frame that the network holds. -/
inductive NetStep (smac dmac : UInt8) (n : Net) : Net → Prop
  | upperSend (now : ℤ) (stack : Stack) (msg : Bytes) (room : n.calls.length < 256) :
    NetStep smac dmac n (n.upperSend now stack smac dmac msg)
  | timerA (now : ℤ) (stack : UInt8 → Stack)
      (kept : (n.a.sse dmac).isSome → ((procTimer now stack n.a).sse dmac).isSome) :
    NetStep smac dmac n (n.timerA now stack)
  | timerB (now : ℤ) (stack : UInt8 → Stack) : NetStep smac dmac n (n.timerB now stack)
  | fetchA (len : ℕ) : NetStep smac dmac n (n.fetchA len)
  | fetchB (len : ℕ) : NetStep smac dmac n (n.fetchB len)
  | deliverA (now : ℤ) (stack : Stack) {raw : Bytes} (held : raw ∈ n.toA) :
    NetStep smac dmac n (n.deliverA now stack raw)
  | deliverB (now : ℤ) (stack : Stack) {raw : Bytes} (held : raw ∈ n.toB) :
    NetStep smac dmac n (n.deliverB now stack smac raw)

/-- The states of all runs from two fresh endpoints. -/
def NetReach (smac dmac : UInt8) (n : Net) : Prop :=
  Relation.ReflTransGen (NetStep smac dmac) Net.init n

/-! ## The invariant -/

/-- The invariant, with the packets `ps` that were accepted so far. -/
structure NetInv (smac dmac : UInt8) (ps : List Packet) (n : Net) : Prop where
  accepted : n.accepted = ps.map Packet.payload
  short : ps.length ≤ n.calls.length
  room : n.calls.length ≤ 256
  seqs : ∀ (i : ℕ) (h : i < ps.length), ps[i].seq = UInt8.ofNat i
  sender : ∃ qs, qs <:+ ps ∧ SenderInv smac dmac qs n.a
  next : nextSeq dmac n.a = UInt8.ofNat ps.length
  fresh : n.a.sse dmac = none → ps = []
  framesA : ∀ f ∈ n.toB ++ n.a.lowerSendList, accept f = none ∨ ∃ p ∈ ps, FrameOf smac dmac p f
  framesB : ∀ f ∈ n.toA ++ n.b.lowerSendList, accept f = none ∨
    ∃ p ∈ ps, AckOf smac dmac p ((p.seq, p.payload) ∈ n.submitted) f
  noSse : ∀ k, n.b.sse k = none
  session : ∀ se, n.b.rse smac = some se →
    ∃ p ∈ ps, Serves p se ∧ (se.completed = true → (p.seq, p.payload) ∈ n.submitted)
  submitted : ∀ r ∈ n.submitted, ∃ p ∈ ps, r = (p.seq, p.payload)
  upper : n.b.upperRecvList = n.submitted.map Prod.snd

lemma netInv_init (smac dmac : UInt8) : NetInv smac dmac [] Net.init where
  accepted := rfl
  short := Nat.le_refl _
  room := Nat.zero_le _
  seqs := by simp
  sender := ⟨[], List.suffix_refl _, senderInv_init smac dmac⟩
  next := rfl
  fresh := fun _ => rfl
  framesA := by simp [Net.init, splitInit]
  framesB := by simp [Net.init, splitInit]
  noSse := fun _ => rfl
  session := by simp [Net.init, splitInit]
  submitted := by simp [Net.init]
  upper := rfl

section

variable {smac dmac : UInt8} {ps : List Packet} {n : Net}

/-- A sequence number stands for one packet. -/
lemma NetInv.seq_inj (h : NetInv smac dmac ps n) {p q : Packet} (hp : p ∈ ps) (hq : q ∈ ps)
    (hseq : p.seq = q.seq) : p = q := by
  obtain ⟨i, hi, rfl⟩ := List.getElem_of_mem hp
  obtain ⟨j, hj, rfl⟩ := List.getElem_of_mem hq
  have hshort := h.short
  have hroom := h.room
  rw [h.seqs i hi, h.seqs j hj] at hseq
  have hnat := congrArg UInt8.toNat hseq
  rw [UInt8.toNat_ofNat', UInt8.toNat_ofNat', Nat.mod_eq_of_lt (by omega),
    Nat.mod_eq_of_lt (by omega)] at hnat
  subst hnat
  rfl

/-- The sequence number of a packet is its place. -/
lemma NetInv.getElem?_seq (h : NetInv smac dmac ps n) {p : Packet} (hp : p ∈ ps) :
    n.accepted[p.seq.toNat]? = some p.payload := by
  obtain ⟨i, hi, rfl⟩ := List.getElem_of_mem hp
  have hshort := h.short
  have hroom := h.room
  have hi' : (ps[i].seq).toNat = i := by
    rw [h.seqs i hi, UInt8.toNat_ofNat', Nat.mod_eq_of_lt (by omega)]
  rw [hi', h.accepted, List.getElem?_map, List.getElem?_eq_getElem hi]
  rfl

/-- Fetching moves a frame, or loses it. -/
lemma mem_fetched {len : ℕ} {s : Split} {net : List Bytes} {f : Bytes}
    (hf : f ∈ (net ++ [(lowerFetch len s).2.1]) ++ (lowerFetch len s).1.lowerSendList) :
    f ∈ net ++ s.lowerSendList ∨ accept f = none := by
  obtain ⟨hs, hout⟩ := lowerFetch_spec len s
  rw [hs, List.append_assoc, List.mem_append, List.mem_append, List.mem_singleton] at hf
  rcases hf with hf | hf | hf
  · exact .inl (List.mem_append_left _ hf)
  · rcases hout with hout | hout
    · right
      rw [hf, hout, accept_nil]
    · left
      rw [hf]
      exact List.mem_append_right _ hout
  · exact .inl (List.mem_append_right _ (List.mem_of_mem_tail hf))

lemma FromFront.mem {qs : List Packet} {f : Bytes} (h : FromFront smac dmac qs f)
    (hsuffix : qs <:+ ps) : ∃ p ∈ ps, FrameOf smac dmac p f := by
  obtain ⟨p, qs', rfl, hframe⟩ := h
  exact ⟨p, hsuffix.subset (List.mem_cons_self ..), hframe⟩

/-- The frames of A after an operation of A. -/
lemma NetInv.framesA_of_queues (h : NetInv smac dmac ps n) {ps' qs : List Packet} {a' : Split}
    (hps : ∀ p ∈ ps, p ∈ ps') (hsuffix : qs <:+ ps')
    (hqueues : QueuesFront smac dmac qs n.a a') :
    ∀ f ∈ n.toB ++ a'.lowerSendList, accept f = none ∨ ∃ p ∈ ps', FrameOf smac dmac p f := by
  obtain ⟨queued, hlist, hframes⟩ := hqueues
  intro f hf
  rw [hlist, ← List.append_assoc] at hf
  rcases List.mem_append.1 hf with hf | hf
  · rcases h.framesA f hf with hnone | ⟨p, hp, hframe⟩
    · exact .inl hnone
    · exact .inr ⟨p, hps p hp, hframe⟩
  · exact .inr ((hframes f hf).mem hsuffix)

/-- A step of A that accepts no message. -/
lemma netInv_a (h : NetInv smac dmac ps n) {a' : Split} {qs : List Packet} (hsuffix : qs <:+ ps)
    (hsender : SenderInv smac dmac qs a') (hnext : nextSeq dmac a' = nextSeq dmac n.a)
    (hfresh : (n.a.sse dmac).isSome → (a'.sse dmac).isSome)
    (hqueues : QueuesFront smac dmac qs n.a a') : NetInv smac dmac ps { n with a := a' } where
  accepted := h.accepted
  short := h.short
  room := h.room
  seqs := h.seqs
  sender := ⟨qs, hsuffix, hsender⟩
  next := hnext.trans h.next
  fresh := by
    intro hnone
    apply h.fresh
    rw [← Option.not_isSome_iff_eq_none]
    intro hsome
    have := hfresh hsome
    rw [hnone] at this
    cases this
  framesA := h.framesA_of_queues (fun _ hp => hp) hsuffix hqueues
  framesB := h.framesB
  noSse := h.noSse
  session := h.session
  submitted := h.submitted
  upper := h.upper

lemma netInv_timerA (h : NetInv smac dmac ps n) (now : ℤ) (stack : UInt8 → Stack)
    (hkept : (n.a.sse dmac).isSome → ((procTimer now stack n.a).sse dmac).isSome) :
    NetInv smac dmac ps (n.timerA now stack) := by
  obtain ⟨qs, hsuffix, hsender⟩ := h.sender
  obtain ⟨qs', hsuffix', hsender', hnext, hqueues⟩ := senderInv_procTimer hsender now stack
  exact netInv_a h (hsuffix'.trans hsuffix) hsender' (hnext hkept) hkept hqueues

lemma netInv_upperSend (h : NetInv smac dmac ps n) (now : ℤ) (stack : Stack) (msg : Bytes)
    (hroom : n.calls.length < 256) :
    ∃ ps', NetInv smac dmac ps' (n.upperSend now stack smac dmac msg) := by
  by_cases hmsg : msg = []
  · refine ⟨ps, ?_⟩
    subst hmsg
    have haccepted : (n.upperSend now stack smac dmac []).accepted = n.accepted := by
      simp [Net.upperSend, Net.accepted, upperSend_nil]
    refine ⟨haccepted.trans h.accepted, ?_, ?_, h.seqs, h.sender, h.next, h.fresh, h.framesA,
      h.framesB, h.noSse, h.session, h.submitted, h.upper⟩
    · simp only [Net.upperSend, List.length_append, List.length_singleton]
      exact Nat.le_succ_of_le h.short
    · simp only [Net.upperSend, List.length_append, List.length_singleton]
      exact hroom
  · obtain ⟨qs, hsuffix, hsender⟩ := h.sender
    obtain ⟨p, hret, htake, hseq, hnext, hsender', hqueues⟩ :=
      senderInv_upperSend hsender now stack hmsg
    have hsuffix' : qs ++ [p] <:+ ps ++ [p] := by
      obtain ⟨t, ht⟩ := hsuffix
      exact ⟨t, by rw [← ht, List.append_assoc]⟩
    refine ⟨ps ++ [p], ?_, ?_, ?_, ?_, ⟨qs ++ [p], hsuffix', hsender'⟩, ?_, ?_, ?_, ?_, h.noSse,
      ?_, ?_, h.upper⟩
    · have hpos : 0 < (p.payload.length : ℤ) :=
        Int.natCast_pos.2 (List.length_pos_iff.2 p.payload_ne)
      have haccepted : (n.upperSend now stack smac dmac msg).accepted =
          n.accepted ++ [p.payload] := by
        simp only [Net.upperSend, Net.accepted, List.filterMap_append, hret, List.filterMap_cons,
          List.filterMap_nil, if_pos hpos, Int.toNat_natCast]
        rw [← htake]
      rw [haccepted, h.accepted, List.map_append]
      rfl
    · simp only [Net.upperSend, List.length_append, List.length_singleton]
      exact Nat.succ_le_succ h.short
    · simp only [Net.upperSend, List.length_append, List.length_singleton]
      exact hroom
    · intro i hi
      rw [List.getElem_append]
      split_ifs with hlt
      · exact h.seqs i hlt
      · rw [List.length_append, List.length_singleton] at hi
        rw [List.getElem_singleton, hseq, h.next, show i = ps.length by omega]
    · change nextSeq dmac (Ipcf.upperSend now stack smac dmac msg n.a).1 = _
      rw [hnext, hseq, h.next, List.length_append, List.length_singleton]
      exact (UInt8.ofNat_add _ _).symm
    · intro hnone
      have := hsender'.empty hnone
      simp at this
    · exact h.framesA_of_queues (fun q hq => List.mem_append_left _ hq) hsuffix' hqueues
    · intro f hf
      rcases h.framesB f hf with hnone | ⟨q, hq, hack⟩
      · exact .inl hnone
      · exact .inr ⟨q, List.mem_append_left _ hq, hack⟩
    · intro se hse
      obtain ⟨q, hq, hserves⟩ := h.session se hse
      exact ⟨q, List.mem_append_left _ hq, hserves⟩
    · intro r hr
      obtain ⟨q, hq, rfl⟩ := h.submitted r hr
      exact ⟨q, List.mem_append_left _ hq, rfl⟩

/-- A step of B: what it queues acknowledges accepted packets, in full only submitted ones. -/
lemma netInv_b (h : NetInv smac dmac ps n) (b' : Split) (new : List (UInt8 × Bytes))
    (hsse : ∀ k, b'.sse k = none)
    (hqueued : ∃ queued, b'.lowerSendList = n.b.lowerSendList ++ queued ∧ ∀ f ∈ queued,
      ∃ p ∈ ps, AckOf smac dmac p ((p.seq, p.payload) ∈ n.submitted ++ new) f)
    (hsession : ∀ se, b'.rse smac = some se → ∃ p ∈ ps, Serves p se ∧
      (se.completed = true → (p.seq, p.payload) ∈ n.submitted ++ new))
    (hnew : ∀ r ∈ new, ∃ p ∈ ps, r = (p.seq, p.payload))
    (hupper : b'.upperRecvList = n.b.upperRecvList ++ new.map Prod.snd) :
    NetInv smac dmac ps { n with b := b', submitted := n.submitted ++ new } where
  accepted := h.accepted
  short := h.short
  room := h.room
  seqs := h.seqs
  sender := h.sender
  next := h.next
  fresh := h.fresh
  framesA := h.framesA
  framesB := by
    obtain ⟨queued, hlist, hacks⟩ := hqueued
    intro f hf
    simp only at hf
    rw [hlist, ← List.append_assoc] at hf
    rcases List.mem_append.1 hf with hf | hf
    · rcases h.framesB f hf with hnone | ⟨p, hp, hack⟩
      · exact .inl hnone
      · exact .inr ⟨p, hp, hack.mono fun hold => List.mem_append_left _ hold⟩
    · exact .inr (hacks f hf)
  noSse := hsse
  session := hsession
  submitted := by
    intro r hr
    exact (List.mem_append.1 hr).elim (h.submitted r) (hnew r)
  upper := by rw [hupper, h.upper, List.map_append]

lemma netInv_timerB (h : NetInv smac dmac ps n) (now : ℤ) (stack : UInt8 → Stack) :
    NetInv smac dmac ps (n.timerB now stack) := by
  obtain ⟨hsse, hlist, hrse⟩ := procTimer_of_noSse now stack h.noSse
  have hb := netInv_b h (procTimer now stack n.b) [] hsse ⟨[], by simpa using hlist, by simp⟩ ?_
    (by simp) (by simp)
  · rw [List.append_nil] at hb
    exact hb
  · intro se hse
    rw [List.append_nil]
    exact h.session se (hrse smac se hse)

lemma netInv_fetchA (h : NetInv smac dmac ps n) (len : ℕ) : NetInv smac dmac ps (n.fetchA len) := by
  obtain ⟨hs, -⟩ := lowerFetch_spec len n.a
  obtain ⟨qs, hsuffix, hsender⟩ := h.sender
  refine ⟨h.accepted, h.short, h.room, h.seqs, ⟨qs, hsuffix, ?_⟩, ?_, ?_, ?_, h.framesB, h.noSse,
    h.session, h.submitted, h.upper⟩
  · simp only [Net.fetchA, hs]
    exact ⟨hsender.only, hsender.holds, hsender.empty⟩
  · simp only [Net.fetchA, hs]
    exact h.next
  · simp only [Net.fetchA, hs]
    exact h.fresh
  · intro f hf
    rcases mem_fetched hf with hf | hf
    · exact h.framesA f hf
    · exact .inl hf

lemma netInv_fetchB (h : NetInv smac dmac ps n) (len : ℕ) : NetInv smac dmac ps (n.fetchB len) := by
  obtain ⟨hs, -⟩ := lowerFetch_spec len n.b
  refine ⟨h.accepted, h.short, h.room, h.seqs, h.sender, h.next, h.fresh, h.framesA, ?_, ?_, ?_,
    h.submitted, ?_⟩
  · intro f hf
    rcases mem_fetched hf with hf | hf
    · exact h.framesB f hf
    · exact .inl hf
  · simp only [Net.fetchB, hs]
    exact h.noSse
  · simp only [Net.fetchB, hs]
    exact h.session
  · simp only [Net.fetchB, hs]
    exact h.upper

/-- A full acknowledgement that removes the packet in front: its payload has been submitted. -/
lemma netInv_deliverA (h : NetInv smac dmac ps n) (now : ℤ) (stack : Stack) {raw : Bytes}
    (hraw : raw ∈ n.toA) :
    NetInv smac dmac ps (n.deliverA now stack raw) ∧
      ∃ qs qs', SenderInv smac dmac qs n.a ∧
        SenderInv smac dmac qs' (lowerPut now stack raw n.a).1 ∧
        (((lowerPut now stack raw n.a).1.sse dmac).map Sse.pktList =
            (n.a.sse dmac).map Sse.pktList ∨
          ∃ p ∈ ps, qs = p :: qs' ∧ (p.seq, p.payload) ∈ n.submitted ∧
            ((lowerPut now stack raw n.a).1.sse dmac).map Sse.pktList =
              (n.a.sse dmac).map fun se => se.pktList.tail) := by
  obtain ⟨qs, hsuffix, hsender⟩ := h.sender
  rcases h.framesB raw (List.mem_append_left _ hraw) with hnone | ⟨q, hq, hack⟩
  · have heq := lowerPut_rejected hnone now stack n.a
    rw [Net.deliverA, heq]
    exact ⟨h, qs, qs, hsender, hsender, .inl rfl⟩
  · obtain ⟨qs', hsender', hnext, hsome, hqueues, hres⟩ :=
      senderInv_ack hsender now stack hack fun fh mh req _ p qs' hqs hseq =>
        h.seq_inj (hsuffix.subset (hqs ▸ List.mem_cons_self ..)) hq hseq
    rcases hres with ⟨rfl, hlist⟩ | ⟨p, rfl, hseq, hdone, hlist⟩
    · exact ⟨netInv_a h hsuffix hsender' hnext hsome hqueues, qs', qs', hsender, hsender',
        .inl hlist⟩
    · have hp : p ∈ ps := hsuffix.subset (List.mem_cons_self ..)
      obtain rfl := h.seq_inj hp hq hseq
      exact ⟨netInv_a h ((List.suffix_cons _ _).trans hsuffix) hsender' hnext hsome hqueues,
        _, qs', hsender, hsender', .inr ⟨p, hp, rfl, hdone, hlist⟩⟩

/-- What `upper_recv_list` gained, with the sequence number of the session. -/
lemma Net.deliverB_eq (now : ℤ) (stack : Stack) (smac : UInt8) (raw : Bytes) (n : Net)
    (gained : List Bytes) (seq : UInt8)
    (hupper : (lowerPut now stack raw n.b).1.upperRecvList = n.b.upperRecvList ++ gained)
    (hseq : gained ≠ [] →
      (((lowerPut now stack raw n.b).1.rse smac).map Rse.seqExp).getD 0 = seq) :
    n.deliverB now stack smac raw =
      { n with
        b := (lowerPut now stack raw n.b).1
        submitted := n.submitted ++ gained.map fun m => (seq, m) } := by
  rw [Net.deliverB, hupper, List.drop_left]
  cases gained with
  | nil => rfl
  | cons m gained => rw [hseq (List.cons_ne_nil _ _)]

lemma netInv_deliverB (h : NetInv smac dmac ps n) (now : ℤ) (stack : Stack) {raw : Bytes}
    (hraw : raw ∈ n.toB) : NetInv smac dmac ps (n.deliverB now stack smac raw) := by
  rcases h.framesA raw (List.mem_append_left _ hraw) with hnone | ⟨p, hp, hframe⟩
  · have heq := lowerPut_rejected hnone now stack n.b
    rw [n.deliverB_eq now stack smac raw [] 0 (by rw [heq, List.append_nil]) (by simp)]
    simpa [heq] using h
  · have hq : ∃ q ∈ ps, ∀ se, n.b.rse smac = some se →
        Serves q se ∧ (se.completed = true → (q.seq, q.payload) ∈ n.submitted) := by
      cases hget : n.b.rse smac with
      | none => exact ⟨p, hp, by simp⟩
      | some se =>
        obtain ⟨q, hq, hserves⟩ := h.session se hget
        refine ⟨q, hq, ?_⟩
        rintro _ ⟨⟩
        exact hserves
    obtain ⟨q, hq, hsession⟩ := hq
    obtain ⟨hsse, hstep⟩ := receiverStep now stack hframe (fun se hse => (hsession se hse).1)
      fun _ _ _ _ _ _ _ hseq => h.seq_inj hq hp hseq
    have hsse' : ∀ k, (lowerPut now stack raw n.b).1.sse k = none := by
      intro k
      rw [hsse]
      exact h.noSse k
    cases hstep with
    | none _ heq hnone =>
      rw [n.deliverB_eq now stack smac raw [] 0 (by rw [heq, List.append_nil]) (by simp)]
      simpa [heq] using h
    | @opened se' _ hrse hserves hpending hupper hacks =>
      rw [n.deliverB_eq now stack smac raw [] 0 (by rw [hupper, List.append_nil]) (by simp)]
      obtain ⟨queued, hlist, hqueued⟩ := hacks
      refine netInv_b h _ [] hsse' ⟨queued, hlist, fun f hf => ⟨p, hp, ?_⟩⟩ ?_ (by simp)
        (by rw [hupper]; simp)
      · exact (hqueued f hf).mono False.elim
      · intro se hse
        obtain rfl : se' = se := Option.some.inj (hrse.symm.trans hse)
        refine ⟨p, hp, hserves, fun hdone => ?_⟩
        rw [hpending] at hdone
        cases hdone
    | @kept se se' _ hget hrse hserves hcompleted hupper hacks =>
      rw [n.deliverB_eq now stack smac raw [] 0 (by rw [hupper, List.append_nil]) (by simp)]
      obtain ⟨queued, hlist, hqueued⟩ := hacks
      have hold := (hsession se hget).2
      rw [← hcompleted] at hold
      refine netInv_b h _ [] hsse' ⟨queued, hlist, fun f hf => ⟨q, hq, ?_⟩⟩ ?_ (by simp)
        (by rw [hupper]; simp)
      · exact (hqueued f hf).mono fun hdone => List.mem_append_left _ (hold hdone)
      · intro se'' hse
        obtain rfl : se' = se'' := Option.some.inj (hrse.symm.trans hse)
        exact ⟨q, hq, hserves, fun hdone => List.mem_append_left _ (hold hdone)⟩
    | @finished se se' _ hget hpending hrse hserves hcompleted hsame hupper hacks =>
      rw [n.deliverB_eq now stack smac raw [p.payload] p.seq hupper fun _ => by
        rw [hrse, Option.map_some, Option.getD_some, hserves.receives.seqExp]]
      obtain ⟨queued, hlist, hqueued⟩ := hacks
      have hnew : (p.seq, p.payload) ∈ n.submitted ++ [(p.seq, p.payload)] := by simp
      refine netInv_b h _ [(p.seq, p.payload)] hsse' ⟨queued, hlist, fun f hf => ⟨p, hp, ?_⟩⟩ ?_ ?_
        (by rw [hupper]; rfl)
      · exact (hqueued f hf).mono fun _ => hnew
      · intro se'' hse
        obtain rfl : se' = se'' := Option.some.inj (hrse.symm.trans hse)
        exact ⟨p, hp, hserves, fun _ => hnew⟩
      · intro r hr
        exact ⟨p, hp, List.mem_singleton.1 hr⟩

lemma netInv_step {n' : Net} (h : NetInv smac dmac ps n) (hstep : NetStep smac dmac n n') :
    ∃ ps', NetInv smac dmac ps' n' := by
  cases hstep with
  | upperSend now stack msg hroom => exact netInv_upperSend h now stack msg hroom
  | timerA now stack hkept => exact ⟨ps, netInv_timerA h now stack hkept⟩
  | timerB now stack => exact ⟨ps, netInv_timerB h now stack⟩
  | fetchA len => exact ⟨ps, netInv_fetchA h len⟩
  | fetchB len => exact ⟨ps, netInv_fetchB h len⟩
  | deliverA now stack held => exact ⟨ps, (netInv_deliverA h now stack held).1⟩
  | deliverB now stack held => exact ⟨ps, netInv_deliverB h now stack held⟩

lemma netInv_reach (h : NetReach smac dmac n) : ∃ ps, NetInv smac dmac ps n := by
  induction h with
  | refl => exact ⟨[], netInv_init smac dmac⟩
  | tail _ hstep ih =>
    obtain ⟨ps, hinv⟩ := ih
    exact netInv_step hinv hstep

/-- A submitted message is in the place that its number says. -/
lemma NetInv.numbered (h : NetInv smac dmac ps n) {r : UInt8 × Bytes} (hr : r ∈ n.submitted) :
    n.accepted[r.1.toNat]? = some r.2 := by
  obtain ⟨p, hp, rfl⟩ := h.submitted r hr
  exact h.getElem?_seq hp

/-- A frame that makes the sender forget a packet removes the one in front, which has been
submitted. -/
lemma NetInv.forgets (h : NetInv smac dmac ps n) (now : ℤ) (stack : Stack) {raw : Bytes}
    (hraw : raw ∈ n.toA) {k : UInt8} {pktList : List SendNode}
    (hlist : (n.a.sse k).map Sse.pktList = some pktList)
    (hchange : ((lowerPut now stack raw n.a).1.sse k).map Sse.pktList ≠ some pktList) :
    ∃ pkt pkts p, pktList = pkt :: pkts ∧
      ((lowerPut now stack raw n.a).1.sse k).map Sse.pktList = some pkts ∧
      pkt.Carries smac dmac p ∧ n.accepted[p.seq.toNat]? = some p.payload ∧
      (p.seq, p.payload) ∈ n.submitted := by
  obtain ⟨-, qs, qs', hsender, -, hres⟩ := netInv_deliverA h now stack hraw
  by_cases hk : k = dmac
  · subst hk
    obtain ⟨se, hse, rfl⟩ := Option.map_eq_some_iff.1 hlist
    rcases hres with hsame | ⟨p, hp, rfl, hsub, htail⟩
    · rw [hsame, hlist] at hchange
      exact absurd rfl hchange
    · obtain ⟨pkt, pkts, hpkt, -, hpkts⟩ := List.forall₂_cons_right_iff.1 (hsender.holds se hse)
      refine ⟨pkt, pkts, p, hpkts, ?_, hpkt, h.getElem?_seq hp, hsub⟩
      rw [htail, hse, Option.map_some, hpkts, List.tail_cons]
  · rw [hsender.only k hk] at hlist
    cases hlist

end

/-- **Acknowledged means delivered, and delivered means accepted.**  In every state of a run, all
messages submitted by the receiver are accepted parts of messages of the sender.  And when a
frame of the network makes the sender forget a packet by `proc_ack_all`, it is the one in front;
it stands for an accepted message, and the receiver has submitted this message before, under the
sequence number of the packet. -/
theorem acked_delivered (smac dmac : UInt8) (n : Net) (h : NetReach smac dmac n) :
    n.b.upperRecvList = n.submitted.map Prod.snd ∧
      (∀ m ∈ n.b.upperRecvList, m ∈ n.accepted) ∧
      ∀ (now : ℤ) (stack : Stack), ∀ raw ∈ n.toA, ∀ fh mh, accept raw = some (.ackAll fh mh) →
        ∀ (k : UInt8) (pktList : List SendNode), (n.a.sse k).map Sse.pktList = some pktList →
          ((lowerPut now stack raw n.a).1.sse k).map Sse.pktList ≠ some pktList →
          ∃ pkt pkts p, pktList = pkt :: pkts ∧
            ((lowerPut now stack raw n.a).1.sse k).map Sse.pktList = some pkts ∧
            pkt.Carries smac dmac p ∧ n.accepted[p.seq.toNat]? = some p.payload ∧
            (p.seq, p.payload) ∈ n.submitted := by
  obtain ⟨ps, hinv⟩ := netInv_reach h
  refine ⟨hinv.upper, ?_, ?_⟩
  · intro m hm
    rw [hinv.upper] at hm
    obtain ⟨r, hr, rfl⟩ := List.mem_map.1 hm
    obtain ⟨p, hp, rfl⟩ := hinv.submitted r hr
    rw [hinv.accepted]
    exact List.mem_map_of_mem hp
  · intro now stack raw hraw fh mh _ k pktList hlist hchange
    exact hinv.forgets now stack hraw hlist hchange

/-- One message up to the request of the receiver for its slice. -/
def Net.asked : Net :=
  let n := (Net.init.upperSend 1 default 1 2 [104, 105]).fetchA linkMtu
  (n.deliverB 2 default 1 (n.toB.getD 0 [])).fetchB linkMtu

/-- The slice has been sent, and the full acknowledgement is in the network. -/
def Net.answered : Net :=
  let n := (Net.asked.deliverA 3 default (Net.asked.toA.getD 0 [])).fetchA linkMtu
  (n.deliverB 4 default 1 (n.toB.getD 1 [])).fetchB linkMtu

lemma netReach_answered : NetReach 1 2 Net.answered := by
  have hasked : NetReach 1 2 Net.asked := by
    refine .tail (.tail (.tail (.tail .refl (.upperSend 1 default [104, 105] ?_)) (.fetchA linkMtu))
      (.deliverB 2 default ?_)) (.fetchB linkMtu)
    · decide
    · decide +kernel
  refine .tail (.tail (.tail (.tail hasked (.deliverA 3 default ?_)) (.fetchA linkMtu))
    (.deliverB 4 default ?_)) (.fetchB linkMtu)
  · decide +kernel
  · decide +kernel

/-- When the acknowledgement of the message comes back, the sender forgets the one packet it
holds, and the message is there. -/
theorem acked_delivered_once :
    Net.answered.b.upperRecvList = [[104, 105]] ∧
      ∃ p : Packet, (p.seq, p.payload) ∈ Net.answered.submitted ∧
        ((lowerPut 5 default (Net.answered.toA.getD 1 []) Net.answered.a).1.sse 2).map
          Sse.pktList = some [] := by
  refine ⟨by decide +kernel, ?_⟩
  obtain ⟨pktList, hlist⟩ : ∃ pktList, (Net.answered.a.sse 2).map Sse.pktList = some pktList :=
    Option.isSome_iff_exists.1 (by decide +kernel)
  have hlen : (Net.answered.a.sse 2).map (fun se => se.pktList.length) = some 1 := by
    decide +kernel
  have hlen' : ((lowerPut 5 default (Net.answered.toA.getD 1 []) Net.answered.a).1.sse 2).map
      (fun se => se.pktList.length) = some 0 := by
    decide +kernel
  obtain ⟨pkt, pkts, p, rfl, hpkts, -, -, hsub⟩ :=
    (acked_delivered 1 2 Net.answered netReach_answered).2.2 5 default
      (Net.answered.toA.getD 1 []) (by decide +kernel) (frmHdr 2 1 frameTypeAcka 0 frmMsgHdrLen)
      (msgHdr 0xffffffff 0 0 []) (by decide +kernel) 2 pktList hlist (by
        intro hsame
        have h1 := congrArg (Option.map List.length) hsame
        have h2 := congrArg (Option.map List.length) hlist
        rw [Option.map_map] at h1 h2
        have h3 := h1.trans h2.symm
        exact absurd (hlen'.symm.trans (h3.trans hlen)) (by decide))
  refine ⟨p, hsub, ?_⟩
  have h2 := congrArg (Option.map List.length) hpkts
  rw [Option.map_map] at h2
  have hnil : pkts.length = 0 := Option.some.inj (h2.symm.trans hlen')
  rw [hpkts, List.length_eq_zero_iff.1 hnil]

end Ipcf
