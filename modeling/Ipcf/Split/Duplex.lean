import Ipcf.Framework.Simulation
import Ipcf.Split.Network

/-!
# Both ways at once

In `test.c` two processes talk to each other, and each is a sender and a receiver at the same time:
one set of send sessions, one of receive sessions, one list of frames to be sent and one socket.
A `Duplex` is two such processes and a network that may lose, repeat, delay and reorder.

The two directions do not disturb each other.  `halves_simulates` is the simulation: every run of
the two is answered by a run of two networks that carry messages one way, one for each direction,
with the sessions, the calls and the submitted messages of the two processes shared out between
them.  A frame that is on its way belongs to one of the two networks, and that is what decides
which of the sessions of a process it can touch.

So `duplex_safe` holds in both directions: all that comes out was accepted on the other side, and
a sender forgets a packet only after the other side has submitted it.
-/

namespace Ipcf

open Relation

/-! ## Two processes -/

/-- One process, with the calls of `upper_send` and their return values, the calls of `upper_recv`
that found a message, with the room in their buffers and what was copied, and the submitted messages
with the sequence number of the session that submitted each. -/
structure Side where
  split : Split
  calls : List (Bytes × ℤ)
  received : List (ℕ × Bytes)
  submitted : List (UInt8 × Bytes)

/-- What a thread of the process calls. -/
inductive SideOp
  | upperSend (now : ℤ) (stack : Stack) (msg : Bytes)
  | upperRecv (len : ℕ)
  | lowerFetch (len : ℕ)
  | lowerPut (now : ℤ) (stack : Stack) (raw : Bytes)
  | procTimer (now : ℤ) (stack : UInt8 → Stack)

namespace Side

def init : Side where
  split := splitInit
  calls := []
  received := []
  submitted := []

/-- The part of each message that `upper_send` said it would send. -/
def accepted (x : Side) : List Bytes :=
  x.calls.filterMap fun c => if 0 < c.2 then some (c.1.take c.2.toNat) else none

/-- One call, and what it gives to the socket; `peer` is the source of the frames with messages
that arrive here. -/
def step (smac dmac peer : UInt8) (x : Side) : SideOp → Side × List Bytes
  | .upperSend now stack msg =>
    let r := Ipcf.upperSend now stack smac dmac msg x.split
    ({ x with split := r.1, calls := x.calls ++ [(msg, r.2)] }, [])
  | .upperRecv len =>
    let r := Ipcf.upperRecv len x.split
    ({ x with
      split := r.1
      received := if x.split.upperRecvList = [] then x.received else x.received ++ [(len, r.2.1)] },
      [])
  | .lowerFetch len =>
    let r := Ipcf.lowerFetch len x.split
    ({ x with split := r.1 }, if r.2.1 = [] then [] else [r.2.1])
  | .lowerPut now stack raw =>
    let s := (Ipcf.lowerPut now stack raw x.split).1
    let seq := ((s.rse peer).map Rse.seqExp).getD 0
    ({ x with
      split := s
      submitted := x.submitted ++
        (s.upperRecvList.drop x.split.upperRecvList.length).map fun m => (seq, m) }, [])
  | .procTimer now stack => ({ x with split := Ipcf.procTimer now stack x.split }, [])

/-- At most 256 messages are sent, the send session is kept, and what arrives has been on its
way. -/
def Permitted (dmac : UInt8) (arriving : List Bytes) (x : Side) : SideOp → Prop
  | .upperSend _ _ _ => x.calls.length < 256
  | .upperRecv _ | .lowerFetch _ => True
  | .lowerPut _ _ raw => raw ∈ arriving
  | .procTimer now stack =>
    (x.split.sse dmac).isSome → ((Ipcf.procTimer now stack x.split).sse dmac).isSome

instance (dmac : UInt8) (arriving : List Bytes) (x : Side) :
    (op : SideOp) → Decidable (x.Permitted dmac arriving op)
  | .upperSend _ _ _ => inferInstanceAs (Decidable (x.calls.length < 256))
  | .upperRecv _ | .lowerFetch _ => inferInstanceAs (Decidable True)
  | .lowerPut _ _ raw => inferInstanceAs (Decidable (raw ∈ arriving))
  | .procTimer now stack => inferInstanceAs (Decidable ((x.split.sse dmac).isSome →
      ((Ipcf.procTimer now stack x.split).sse dmac).isSome))

end Side

/-- Two processes, and the frames on their way to each. -/
structure Duplex where
  a : Side
  b : Side
  toB : List Bytes
  toA : List Bytes

namespace Duplex

def init : Duplex := ⟨Side.init, Side.init, [], []⟩

def stepA (smac dmac peer : UInt8) (op : SideOp) (n : Duplex) : Duplex :=
  let r := n.a.step smac dmac peer op
  { n with a := r.1, toB := n.toB ++ r.2 }

def stepB (smac dmac peer : UInt8) (op : SideOp) (n : Duplex) : Duplex :=
  let r := n.b.step smac dmac peer op
  { n with b := r.1, toA := n.toA ++ r.2 }

end Duplex

section

variable (smacA dmacA smacB dmacB : UInt8)

/-- One of the processes makes a call. -/
inductive DuplexStep (n : Duplex) : Duplex → Prop
  | a (op : SideOp) (permitted : n.a.Permitted dmacA n.toA op) :
    DuplexStep n (n.stepA smacA dmacA smacB op)
  | b (op : SideOp) (permitted : n.b.Permitted dmacB n.toB op) :
    DuplexStep n (n.stepB smacB dmacB smacA op)

/-- The states of all runs from two fresh processes. -/
def DuplexReach (n : Duplex) : Prop :=
  ReflTransGen (DuplexStep smacA dmacA smacB dmacB) Duplex.init n

end

/-! ## What an operation looks at -/

/-- Two endpoints with the same send sessions do the same to them, and queue the same. -/
structure SendAlike (s t s' t' : Split) : Prop where
  sse : s'.sse = t'.sse
  queued : ∃ q, s'.lowerSendList = s.lowerSendList ++ q ∧ t'.lowerSendList = t.lowerSendList ++ q
  rse : s'.rse = s.rse
  upper : s'.upperRecvList = s.upperRecvList

/-- Two endpoints with the same receive sessions do the same to them, and queue and submit the
same. -/
structure ReceiveAlike (s t s' t' : Split) : Prop where
  rse : s'.rse = t'.rse
  queued : ∃ q, s'.lowerSendList = s.lowerSendList ++ q ∧ t'.lowerSendList = t.lowerSendList ++ q
  sse : s'.sse = s.sse
  upper : ∃ g, s'.upperRecvList = s.upperRecvList ++ g ∧ t'.upperRecvList = t.upperRecvList ++ g

section

variable {s t : Split}

lemma sendAlike_sent (h : s.sse = t.sse) (k : UInt8) (r : Sse × List Bytes) :
    SendAlike s t (s.sent k r) (t.sent k r) where
  sse := by rw [Split.sent, Split.sent, h]
  queued := ⟨r.2, rfl, rfl⟩
  rse := rfl
  upper := rfl

lemma sendAlike_self (h : s.sse = t.sse) : SendAlike s t s t where
  sse := h
  queued := ⟨[], by simp, by simp⟩
  rse := rfl
  upper := rfl

lemma receiveAlike_received (h : s.rse = t.rse) (k : UInt8) (r : Received) :
    ReceiveAlike s t (s.received k r) (t.received k r) where
  rse := by rw [Split.received, Split.received, h]
  queued := ⟨r.queued, rfl, rfl⟩
  sse := rfl
  upper := ⟨r.submitted, rfl, rfl⟩

lemma receiveAlike_self (h : s.rse = t.rse) : ReceiveAlike s t s t where
  rse := h
  queued := ⟨[], by simp, by simp⟩
  sse := rfl
  upper := ⟨[], by simp, by simp⟩

lemma sendAlike_upperSend (h : s.sse = t.sse) (now : ℤ) (stack : Stack) (smac dmac : UInt8)
    (msg : Bytes) :
    (upperSend now stack smac dmac msg s).2 = (upperSend now stack smac dmac msg t).2 ∧
      SendAlike s t (upperSend now stack smac dmac msg s).1
        (upperSend now stack smac dmac msg t).1 := by
  have hget : getSse now dmac s = getSse now dmac t := by rw [getSse, getSse, h]
  unfold upperSend
  rw [hget]
  split_ifs
  · exact ⟨rfl, sendAlike_self h⟩
  · exact ⟨rfl, sendAlike_sent h dmac _⟩

/-- An acknowledgement is for the send sessions. -/
lemma sendAlike_ack (h : s.sse = t.sse) (now : ℤ) (stack : Stack) {smac dmac : UInt8} {p : Packet}
    {done : Prop} {raw : Bytes} (hack : AckOf smac dmac p done raw) :
    SendAlike s t (lowerPut now stack raw s).1 (lowerPut now stack raw t).1 := by
  rw [lowerPut_eq, lowerPut_eq]
  cases hack with
  | @all fh mh haccept =>
    simp only [haccept]
    rw [act_ackAll, act_ackAll, h]
    cases t.sse fh.src with
    | none => exact sendAlike_self h
    | some se => exact sendAlike_sent h _ _
  | @part fh mh req haccept =>
    simp only [haccept]
    rw [act_ackPart, act_ackPart, h]
    cases t.sse fh.src with
    | none => exact sendAlike_self h
    | some se => exact sendAlike_sent h _ _

/-- A frame of a packet is for the receive sessions. -/
lemma receiveAlike_frame (h : s.rse = t.rse) (now : ℤ) (stack : Stack) {smac dmac : UInt8}
    {p : Packet} {raw : Bytes} (hframe : FrameOf smac dmac p raw) :
    ReceiveAlike s t (lowerPut now stack raw s).1 (lowerPut now stack raw t).1 := by
  rw [lowerPut_eq, lowerPut_eq]
  cases hframe with
  | head haccept =>
    simp only [haccept]
    rw [Split.act, Split.act, getRse, getRse, h]
    exact receiveAlike_received h _ _
  | @ackReq fh mh haccept =>
    simp only [haccept]
    rw [act_ackReq, act_ackReq, h]
    cases t.rse fh.src with
    | none => exact receiveAlike_self h
    | some se => exact receiveAlike_received h _ _
  | @patch fh mh data haccept =>
    simp only [haccept]
    rw [act_patch, act_patch, h]
    cases t.rse fh.src with
    | none => exact receiveAlike_self h
    | some se => exact receiveAlike_received h _ _

lemma procTimer_sse_congr (h : s.sse = t.sse) (now : ℤ) (stack : UInt8 → Stack) :
    (procTimer now stack s).sse = (procTimer now stack t).sse := by
  funext k
  rw [procTimer_sse, procTimer_sse, h]

lemma procTimer_rse_congr (h : s.rse = t.rse) (now : ℤ) (stack : UInt8 → Stack) :
    (procTimer now stack s).rse = (procTimer now stack t).rse := by
  funext k
  rw [procTimer_rse, procTimer_rse, h]

lemma procTimer_queued_congr (h : s.sse = t.sse) (now : ℤ) (stack : UInt8 → Stack) :
    ∃ q, (procTimer now stack s).lowerSendList = s.lowerSendList ++ q ∧
      (procTimer now stack t).lowerSendList = t.lowerSendList ++ q := by
  refine ⟨macs.flatMap fun i => (tickSse now (stack i) (t.sse i)).2, ?_, ?_⟩
  · rw [procTimer_lowerSendList, h]
  · rw [procTimer_lowerSendList]

end

/-! ## Frames that were sent at once -/

namespace Net

/-- All that A has queued is in the network. -/
def flushA (n : Net) : Net :=
  { n with a := { n.a with lowerSendList := [] }, toB := n.toB ++ n.a.lowerSendList }

def flushB (n : Net) : Net :=
  { n with b := { n.b with lowerSendList := [] }, toA := n.toA ++ n.b.lowerSendList }

/-- With room for it, the frame in front is fetched whole. -/
lemma lowerFetch_whole {s : Split} {f : Bytes} {fs : List Bytes} (h : s.lowerSendList = f :: fs) :
    lowerFetch f.length s = ({ s with lowerSendList := fs }, f, 0) := by
  rw [lowerFetch, h]
  simp only [le_refl, if_true]

lemma clear_lowerSendList {s : Split} (h : s.lowerSendList = []) :
    { s with lowerSendList := [] } = s := by
  obtain ⟨sse, rse, upper, lower, accesses⟩ := s
  obtain rfl : lower = [] := h
  rfl

variable (smac dmac : UInt8)

lemma run_flushA (n : Net) : ReflTransGen (NetStep smac dmac) n n.flushA := by
  obtain ⟨fs, hfs⟩ : ∃ fs, n.a.lowerSendList = fs := ⟨_, rfl⟩
  induction fs generalizing n with
  | nil =>
    rw [flushA, clear_lowerSendList hfs, hfs, List.append_nil]
  | cons f fs ih =>
    refine .head (.fetchA f.length) ?_
    rw [fetchA, lowerFetch_whole hfs]
    have hrest := ih { n with a := { n.a with lowerSendList := fs }, toB := n.toB ++ [f] } rfl
    rw [flushA, List.append_assoc, List.singleton_append] at hrest
    rw [flushA, hfs]
    exact hrest

lemma run_flushB (n : Net) : ReflTransGen (NetStep smac dmac) n n.flushB := by
  obtain ⟨fs, hfs⟩ : ∃ fs, n.b.lowerSendList = fs := ⟨_, rfl⟩
  induction fs generalizing n with
  | nil =>
    rw [flushB, clear_lowerSendList hfs, hfs, List.append_nil]
  | cons f fs ih =>
    refine .head (.fetchB f.length) ?_
    rw [fetchB, lowerFetch_whole hfs]
    have hrest := ih { n with b := { n.b with lowerSendList := fs }, toA := n.toA ++ [f] } rfl
    rw [flushB, List.append_assoc, List.singleton_append] at hrest
    rw [flushB, hfs]
    exact hrest

end Net

/-! ## The two halves of a run -/

/-- The network `m` carries what `x` sends to `y`. -/
structure Half (smac dmac : UInt8) (x y : Side) (m : Net) : Prop where
  reach : NetReach smac dmac m
  sse : m.a.sse = x.split.sse
  rse : m.b.rse = y.split.rse
  calls : m.calls = x.calls
  submitted : m.submitted = y.submitted

/-- Every frame in `fs`, on its way from `x` to `y`, is a frame of what `x` sends, in `m`, or an
acknowledgement of what `y` sends, in `m'`. -/
def Shared (fs : List Bytes) (m m' : Net) : Prop :=
  ∀ f ∈ fs, accept f = none ∨ f ∈ m.toB ∨ f ∈ m'.toA

/-- The two processes `x` and `y`, and the network of each direction. -/
structure Halves (smac dmac smac' dmac' : UInt8) (x y : Side) (toX toY : List Bytes)
    (m : Net × Net) : Prop where
  out : Half smac dmac x y m.1
  back : Half smac' dmac' y x m.2
  toY : Shared (toY ++ x.split.lowerSendList) m.1 m.2
  toX : Shared (toX ++ y.split.lowerSendList) m.2 m.1

section

variable {smac dmac smac' dmac' : UInt8} {x y : Side} {toX toY fs gs : List Bytes} {m : Net × Net}
  {m₁ m₂ m₁' m₂' : Net}

lemma Halves.swap (h : Halves smac dmac smac' dmac' x y toX toY m) :
    Halves smac' dmac' smac dmac y x toY toX m.swap :=
  ⟨h.back, h.out, h.toX, h.toY⟩

/-- Frames are added to the networks, and to what is on its way only if they are there. -/
lemma Shared.mono (h : Shared fs m₁ m₂) (hB : m₁.toB ⊆ m₁'.toB) (hA : m₂.toA ⊆ m₂'.toA)
    (hfs : ∀ f ∈ gs, f ∈ fs ∨ f ∈ m₁'.toB ∨ f ∈ m₂'.toA) : Shared gs m₁' m₂' := by
  intro f hf
  rcases hfs f hf with hold | hnew
  · rcases h f hold with hnone | hmem | hmem
    · exact .inl hnone
    · exact .inr (.inl (hB hmem))
    · exact .inr (.inr (hA hmem))
  · exact .inr hnew

/-- The process `x` and its half of the network did the same to their send sessions. -/
lemma Halves.sent (h : Halves smac dmac smac' dmac' x y toX toY m) {n : Net} (x' : Side)
    (hrun : ReflTransGen (NetStep smac dmac) m.1 n) (halike : SendAlike x.split m.1.a x'.split n.a)
    (hb : n.b = m.1.b) (htoB : n.toB = m.1.toB) (htoA : n.toA = m.1.toA)
    (hcalls : n.calls = x'.calls) (hsubmitted : n.submitted = m.1.submitted)
    (hx' : x'.submitted = x.submitted) :
    ReflTransGen (NetStep smac dmac) m.1 n.flushA ∧
      Halves smac dmac smac' dmac' x' y toX toY (n.flushA, m.2) := by
  have hrun' : ReflTransGen (NetStep smac dmac) m.1 n.flushA :=
    hrun.trans (Net.run_flushA smac dmac n)
  have htoB' : n.flushA.toB = m.1.toB ++ n.a.lowerSendList := by rw [Net.flushA, htoB]
  have htoA' : n.flushA.toA = m.1.toA := htoA
  refine ⟨hrun', ⟨h.out.reach.trans hrun', halike.sse.symm, ?_, hcalls, ?_⟩,
    ⟨h.back.reach, h.back.sse, ?_, h.back.calls, ?_⟩, ?_, ?_⟩
  · change n.b.rse = y.split.rse
    rw [hb]
    exact h.out.rse
  · exact hsubmitted.trans h.out.submitted
  · rw [halike.rse]
    exact h.back.rse
  · rw [hx']
    exact h.back.submitted
  · obtain ⟨q, hqx, hqn⟩ := halike.queued
    refine h.toY.mono ?_ (List.Subset.refl _) fun f hf => ?_
    · rw [htoB']
      exact List.subset_append_left _ _
    · rw [hqx, ← List.append_assoc] at hf
      rcases List.mem_append.1 hf with hf | hf
      · exact .inl hf
      · right
        left
        rw [htoB', hqn]
        exact List.mem_append_right _ (List.mem_append_right _ hf)
  · refine h.toX.mono (List.Subset.refl _) ?_ fun f hf => .inl hf
    rw [htoA']
    exact List.Subset.refl _

/-- The process `x` and its half of the other network did the same to their receive sessions. -/
lemma Halves.received (h : Halves smac dmac smac' dmac' x y toX toY m) {n : Net} (x' : Side)
    (hrun : ReflTransGen (NetStep smac' dmac') m.2 n)
    (halike : ReceiveAlike x.split m.2.b x'.split n.b)
    (ha : n.a = m.2.a) (htoB : n.toB = m.2.toB) (htoA : n.toA = m.2.toA)
    (hcalls : n.calls = m.2.calls) (hsubmitted : n.submitted = x'.submitted)
    (hx' : x'.calls = x.calls) :
    ReflTransGen (NetStep smac' dmac') m.2 n.flushB ∧
      Halves smac dmac smac' dmac' x' y toX toY (m.1, n.flushB) := by
  have hrun' : ReflTransGen (NetStep smac' dmac') m.2 n.flushB :=
    hrun.trans (Net.run_flushB smac' dmac' n)
  have htoA' : n.flushB.toA = m.2.toA ++ n.b.lowerSendList := by rw [Net.flushB, htoA]
  have htoB' : n.flushB.toB = m.2.toB := htoB
  refine ⟨hrun', ⟨h.out.reach, ?_, h.out.rse, ?_, h.out.submitted⟩,
    ⟨h.back.reach.trans hrun', ?_, halike.rse.symm, ?_, hsubmitted⟩, ?_, ?_⟩
  · rw [halike.sse]
    exact h.out.sse
  · rw [hx']
    exact h.out.calls
  · change n.a.sse = y.split.sse
    rw [ha]
    exact h.back.sse
  · exact hcalls.trans h.back.calls
  · obtain ⟨q, hqx, hqn⟩ := halike.queued
    refine h.toY.mono (List.Subset.refl _) ?_ fun f hf => ?_
    · rw [htoA']
      exact List.subset_append_left _ _
    · rw [hqx, ← List.append_assoc] at hf
      rcases List.mem_append.1 hf with hf | hf
      · exact .inl hf
      · right
        right
        rw [htoA', hqn]
        exact List.mem_append_right _ (List.mem_append_right _ hf)
  · refine h.toX.mono ?_ (List.Subset.refl _) fun f hf => .inl hf
    rw [htoB']
    exact List.Subset.refl _

/-- The timer ticks the send sessions, then the receive sessions. -/
lemma Halves.procTimer (h : Halves smac dmac smac' dmac' x y toX toY m) (now : ℤ)
    (stack : UInt8 → Stack)
    (hkept : (x.split.sse dmac).isSome → ((Ipcf.procTimer now stack x.split).sse dmac).isSome) :
    ∃ m', ReflTransGen (Beside (NetStep smac dmac) (NetStep smac' dmac')) m m' ∧
      Halves smac dmac smac' dmac' (x.step smac dmac smac' (.procTimer now stack)).1 y toX toY
        m' := by
  have hsse := procTimer_sse_congr h.out.sse.symm now stack
  have hrse := procTimer_rse_congr h.back.rse.symm now stack
  have hqueued := procTimer_queued_congr h.out.sse.symm now stack
  have hupper := procTimer_upperRecvList now stack x.split
  have hstepA : NetStep smac dmac m.1 (m.1.timerA now stack) :=
    .timerA now stack (by rw [← hsse, h.out.sse]; exact hkept)
  have hstepB : NetStep smac' dmac' m.2 (m.2.timerB now stack) := .timerB now stack
  obtain ⟨ps, hinv⟩ := netInv_reach h.back.reach
  have hquiet := (procTimer_of_noSse now stack hinv.noSse).2.1
  have hupper' := procTimer_upperRecvList now stack m.2.b
  rw [Net.timerA] at hstepA
  rw [Net.timerB] at hstepB
  simp only [Side.step]
  generalize Ipcf.procTimer now stack x.split = s at *
  generalize Ipcf.procTimer now stack m.1.a = a at *
  generalize Ipcf.procTimer now stack m.2.b = b at *
  -- in between, the send sessions have ticked and the receive sessions have not
  obtain ⟨hrunA, h'⟩ := h.sent { x with split := { s with rse := x.split.rse } } (.single hstepA)
    ⟨hsse, hqueued, rfl, hupper⟩ rfl rfl rfl h.out.calls rfl rfl
  have hreceive : ReceiveAlike { s with rse := x.split.rse } m.2.b s b :=
    ⟨hrse, ⟨[], by simp, by rw [hquiet, List.append_nil]⟩, rfl,
      ⟨[], by simp, by rw [hupper', List.append_nil]⟩⟩
  obtain ⟨hrunB, h''⟩ := h'.received { x with split := s } (.single hstepB) hreceive rfl rfl rfl rfl
    h.back.submitted rfl
  exact ⟨_, beside_iff.2 ⟨hrunA, hrunB⟩, h''⟩

/-- What arrives from `y` is no frame, a frame of a packet, or an acknowledgement. -/
lemma Halves.arrives (h : Halves smac dmac smac' dmac' x y toX toY m) {raw : Bytes}
    (hraw : raw ∈ toX) :
    accept raw = none ∨ (raw ∈ m.2.toB ∧ ∃ p, FrameOf smac' dmac' p raw) ∨
      (raw ∈ m.1.toA ∧ ∃ p done, AckOf smac dmac p done raw) := by
  rcases h.toX raw (List.mem_append_left _ hraw) with hnone | hmem | hmem
  · exact .inl hnone
  · obtain ⟨ps, hinv⟩ := netInv_reach h.back.reach
    rcases hinv.framesA raw (List.mem_append_left _ hmem) with hnone | ⟨p, -, hframe⟩
    · exact .inl hnone
    · exact .inr (.inl ⟨hmem, p, hframe⟩)
  · obtain ⟨ps, hinv⟩ := netInv_reach h.out.reach
    rcases hinv.framesB raw (List.mem_append_left _ hmem) with hnone | ⟨p, -, hack⟩
    · exact .inl hnone
    · exact .inr (.inr ⟨hmem, p, _, hack⟩)

lemma Halves.lowerPut (h : Halves smac dmac smac' dmac' x y toX toY m) (now : ℤ) (stack : Stack)
    {raw : Bytes} (hraw : raw ∈ toX) :
    ∃ m', ReflTransGen (Beside (NetStep smac dmac) (NetStep smac' dmac')) m m' ∧
      Halves smac dmac smac' dmac' (x.step smac dmac smac' (.lowerPut now stack raw)).1 y toX toY
        m' := by
  obtain ⟨x', hx'⟩ : ∃ x', (x.step smac dmac smac' (.lowerPut now stack raw)).1 = x' := ⟨_, rfl⟩
  rw [hx']
  simp only [Side.step] at hx'
  rcases h.arrives hraw with hnone | ⟨hmem, p, hframe⟩ | ⟨hmem, p, done, hack⟩
  · rw [lowerPut_rejected hnone, List.drop_length, List.map_nil, List.append_nil] at hx'
    rw [← hx']
    exact ⟨m, .refl, h⟩
  · have halike := receiveAlike_frame h.back.rse.symm now stack hframe
    obtain ⟨g, hg, hg'⟩ := halike.upper
    have hsubmitted : (m.2.deliverB now stack smac' raw).submitted = x'.submitted := by
      rw [← hx']
      simp only [Net.deliverB]
      rw [hg, hg', List.drop_left, List.drop_left, halike.rse, h.back.submitted]
    obtain ⟨hrun, h'⟩ := h.received x' (.single (.deliverB now stack hmem))
      (by rw [← hx']; exact halike) rfl rfl rfl rfl hsubmitted (by rw [← hx'])
    exact ⟨_, Beside.runRight m.1 hrun, h'⟩
  · have halike := sendAlike_ack h.out.sse.symm now stack hack
    have hsame : x'.submitted = x.submitted := by
      rw [← hx']
      simp only
      rw [halike.upper, List.drop_length, List.map_nil, List.append_nil]
    obtain ⟨hrun, h'⟩ := h.sent x' (.single (.deliverA now stack hmem))
      (by rw [← hx']; exact halike) rfl rfl rfl (by rw [← hx']; exact h.out.calls) rfl hsame
    exact ⟨_, Beside.runLeft m.2 hrun, h'⟩

/-- One call of `x`, answered by the two networks. -/
lemma Halves.step (h : Halves smac dmac smac' dmac' x y toX toY m) (op : SideOp)
    (hop : x.Permitted dmac toX op) :
    ∃ m', ReflTransGen (Beside (NetStep smac dmac) (NetStep smac' dmac')) m m' ∧
      Halves smac dmac smac' dmac' (x.step smac dmac smac' op).1 y toX
        (toY ++ (x.step smac dmac smac' op).2) m' := by
  cases op with
  | upperSend now stack msg =>
    obtain ⟨hret, halike⟩ := sendAlike_upperSend h.out.sse.symm now stack smac dmac msg
    obtain ⟨hrun, h'⟩ := h.sent (x.step smac dmac smac' (.upperSend now stack msg)).1
      (.single (.upperSend now stack msg (by rw [h.out.calls]; exact hop))) halike rfl rfl rfl
      (by simp only [Net.upperSend, Side.step, hret, h.out.calls]) rfl rfl
    refine ⟨_, Beside.runLeft m.2 hrun, ?_⟩
    simp only [Side.step, List.append_nil]
    exact h'
  | upperRecv len =>
    refine ⟨m, .refl, ?_⟩
    simp only [Side.step, List.append_nil]
    have hsplit : (Ipcf.upperRecv len x.split).1 =
        { x.split with upperRecvList := x.split.upperRecvList.tail } := by
      unfold upperRecv
      cases hlist : x.split.upperRecvList with
      | nil =>
        obtain ⟨⟨sse, rse, upper, lower, accesses⟩, calls, received, submitted⟩ := x
        obtain rfl : upper = [] := hlist
        rfl
      | cons r rs => rfl
    rw [hsplit]
    exact ⟨⟨h.out.reach, h.out.sse, h.out.rse, h.out.calls, h.out.submitted⟩,
      ⟨h.back.reach, h.back.sse, h.back.rse, h.back.calls, h.back.submitted⟩, h.toY, h.toX⟩
  | lowerFetch len =>
    refine ⟨m, .refl, ?_⟩
    obtain ⟨hsplit, hout⟩ := lowerFetch_spec len x.split
    simp only [Side.step]
    rw [hsplit]
    refine ⟨⟨h.out.reach, h.out.sse, h.out.rse, h.out.calls, h.out.submitted⟩,
      ⟨h.back.reach, h.back.sse, h.back.rse, h.back.calls, h.back.submitted⟩,
      h.toY.mono (List.Subset.refl _) (List.Subset.refl _) fun f hf => .inl ?_, h.toX⟩
    rw [List.append_assoc, List.mem_append, List.mem_append] at hf
    rcases hf with hf | hf | hf
    · exact List.mem_append_left _ hf
    · rcases hout with hnil | hmem
      · rw [if_pos hnil] at hf
        cases hf
      · split_ifs at hf
        · cases hf
        · rw [List.mem_singleton.1 hf]
          exact List.mem_append_right _ hmem
    · exact List.mem_append_right _ (List.mem_of_mem_tail hf)
  | lowerPut now stack raw =>
    obtain ⟨m', hrun, h'⟩ := h.lowerPut now stack hop
    refine ⟨m', hrun, ?_⟩
    simp only [Side.step, List.append_nil] at h' ⊢
    exact h'
  | procTimer now stack =>
    obtain ⟨m', hrun, h'⟩ := h.procTimer now stack hop
    refine ⟨m', hrun, ?_⟩
    simp only [Side.step, List.append_nil] at h' ⊢
    exact h'

end

lemma halves_init (smac dmac smac' dmac' : UInt8) :
    Halves smac dmac smac' dmac' Side.init Side.init [] [] (Net.init, Net.init) where
  out := ⟨.refl, rfl, rfl, rfl, rfl⟩
  back := ⟨.refl, rfl, rfl, rfl, rfl⟩
  toY := by simp [Shared, Side.init, splitInit]
  toX := by simp [Shared, Side.init, splitInit]

/-- **The simulation.**  Every step of two processes is answered by the two networks. -/
lemma halves_simulates (smacA dmacA smacB dmacB : UInt8) :
    Simulates (fun (n : Duplex) m => Halves smacA dmacA smacB dmacB n.a n.b n.toA n.toB m)
      (DuplexStep smacA dmacA smacB dmacB)
      (Beside (NetStep smacA dmacA) (NetStep smacB dmacB)) := by
  intro n n' m h hstep
  cases hstep with
  | a op hop => exact h.step op hop
  | b op hop =>
    obtain ⟨m', hrun, h'⟩ := h.swap.step op hop
    exact ⟨m'.swap, Beside.runSwap hrun, h'.swap⟩

/-! ## What came out -/

/-- What `upper_recv` gave out are the first of the submitted messages, each as far as there was
room, and the others wait. -/
def Side.Logged (x : Side) : Prop :=
  ∃ done waiting, x.submitted = done ++ waiting ∧
    List.Forall₂ (fun c r => c.2 = r.2.take c.1) x.received done ∧
    x.split.upperRecvList = waiting.map Prod.snd

lemma upperRecvList_lowerPut (now : ℤ) (stack : Stack) (raw : Bytes) (s : Split) :
    ∃ g, (lowerPut now stack raw s).1.upperRecvList = s.upperRecvList ++ g := by
  rw [lowerPut_eq]
  cases accept raw with
  | none => exact ⟨[], by simp⟩
  | some a =>
    cases a with
    | data fh mh data => exact ⟨_, rfl⟩
    | ackReq fh mh =>
      simp only [act_ackReq]
      cases s.rse fh.src with
      | none => exact ⟨[], by simp⟩
      | some se => exact ⟨_, rfl⟩
    | patch fh mh data =>
      simp only [act_patch]
      cases s.rse fh.src with
      | none => exact ⟨[], by simp⟩
      | some se => exact ⟨_, rfl⟩
    | ackAll fh mh =>
      simp only [act_ackAll]
      cases s.sse fh.src with
      | none => exact ⟨[], by simp⟩
      | some se => exact ⟨[], by simp⟩
    | ackPart fh mh data =>
      simp only [act_ackPart]
      cases s.sse fh.src with
      | none => exact ⟨[], by simp⟩
      | some se => exact ⟨[], by simp⟩

lemma Side.Logged.step {x : Side} (h : x.Logged) (smac dmac peer : UInt8) (op : SideOp) :
    (x.step smac dmac peer op).1.Logged := by
  obtain ⟨done, waiting, hsubmitted, hreceived, hlist⟩ := h
  cases op with
  | upperSend now stack msg =>
    refine ⟨done, waiting, hsubmitted, hreceived, ?_⟩
    rw [← hlist]
    exact (sendAlike_upperSend rfl now stack smac dmac msg).2.upper
  | upperRecv len =>
    cases waiting with
    | nil =>
      rw [List.map_nil] at hlist
      refine ⟨done, [], hsubmitted, ?_, ?_⟩
      · simp only [Side.step, if_pos hlist]
        exact hreceived
      · simp only [Side.step, Ipcf.upperRecv, hlist, List.map_nil]
    | cons r waiting =>
      rw [List.map_cons] at hlist
      refine ⟨done ++ [r], waiting, by simp [Side.step, hsubmitted], ?_, ?_⟩
      · simp only [Side.step, Ipcf.upperRecv, hlist, List.cons_ne_nil, if_false]
        exact List.rel_append hreceived (List.Forall₂.cons rfl .nil)
      · simp only [Side.step, Ipcf.upperRecv, hlist]
  | lowerFetch len =>
    refine ⟨done, waiting, hsubmitted, hreceived, ?_⟩
    simp only [Side.step]
    rw [(lowerFetch_spec len x.split).1, ← hlist]
  | lowerPut now stack raw =>
    obtain ⟨g, hg⟩ := upperRecvList_lowerPut now stack raw x.split
    refine ⟨done, waiting ++ g.map fun msg =>
      ((((Ipcf.lowerPut now stack raw x.split).1.rse peer).map Rse.seqExp).getD 0, msg),
      ?_, hreceived, ?_⟩
    · simp only [Side.step, hg, List.drop_left, hsubmitted, List.append_assoc]
    · simp only [Side.step, hg, hlist, List.map_append, List.map_map]
      simp [Function.comp_def]
  | procTimer now stack =>
    have hupper := procTimer_upperRecvList now stack x.split
    simp only [Side.step]
    generalize Ipcf.procTimer now stack x.split = s at *
    exact ⟨done, waiting, hsubmitted, hreceived, hupper.trans hlist⟩

/-- What the messages from `x` to `y` are worth: all that was submitted at `y` had been accepted, at
the place that its sequence number says; and a frame that makes a sender at `x` forget a packet
removes the one in front, which `y` has submitted. -/
structure Delivers (smac dmac : UInt8) (x y : Side) (toX : List Bytes) : Prop where
  logged : y.Logged
  accepted : ∀ r ∈ y.submitted, x.accepted[r.1.toNat]? = some r.2
  forgotten : ∀ (now : ℤ) (stack : Stack), ∀ raw ∈ toX, ∀ (k : UInt8) (pktList : List SendNode),
    (x.split.sse k).map Sse.pktList = some pktList →
      ((lowerPut now stack raw x.split).1.sse k).map Sse.pktList ≠ some pktList →
      ∃ pkt pkts p, pktList = pkt :: pkts ∧
        ((lowerPut now stack raw x.split).1.sse k).map Sse.pktList = some pkts ∧
        pkt.Carries smac dmac p ∧ x.accepted[p.seq.toNat]? = some p.payload ∧
        (p.seq, p.payload) ∈ y.submitted

lemma Halves.delivers {smac dmac smac' dmac' : UInt8} {x y : Side} {toX toY : List Bytes}
    {m : Net × Net} (h : Halves smac dmac smac' dmac' x y toX toY m) (hlogged : y.Logged) :
    Delivers smac dmac x y toX := by
  obtain ⟨ps, hinv⟩ := netInv_reach h.out.reach
  have haccepted : m.1.accepted = x.accepted := by
    rw [Net.accepted, Side.accepted, h.out.calls]
  refine ⟨hlogged, fun r hr => ?_, fun now stack raw hraw k pktList hlist hchange => ?_⟩
  · rw [← h.out.submitted] at hr
    rw [← haccepted]
    exact hinv.numbered hr
  · rcases h.arrives hraw with hnone | ⟨-, p, hframe⟩ | ⟨hmem, p, done, hack⟩
    · rw [lowerPut_rejected hnone] at hchange
      exact absurd hlist hchange
    · rw [(receiveAlike_frame h.back.rse.symm now stack hframe).sse] at hchange
      exact absurd hlist hchange
    · have hsse := (sendAlike_ack h.out.sse.symm now stack hack).sse
      rw [hsse] at hchange ⊢
      rw [← h.out.sse] at hlist
      rw [← haccepted, ← h.out.submitted]
      exact hinv.forgets now stack hmem hlist hchange

lemma logged_reach {smacA dmacA smacB dmacB : UInt8} {n : Duplex}
    (h : DuplexReach smacA dmacA smacB dmacB n) : n.a.Logged ∧ n.b.Logged := by
  induction h with
  | refl => exact ⟨⟨[], [], rfl, .nil, rfl⟩, ⟨[], [], rfl, .nil, rfl⟩⟩
  | tail _ hstep ih =>
    cases hstep with
    | a op _ => exact ⟨ih.1.step _ _ _ op, ih.2⟩
    | b op _ => exact ⟨ih.1, ih.2.step _ _ _ op⟩

lemma halves_reach {smacA dmacA smacB dmacB : UInt8} {n : Duplex}
    (h : DuplexReach smacA dmacA smacB dmacB n) :
    ∃ m, Halves smacA dmacA smacB dmacB n.a n.b n.toA n.toB m := by
  obtain ⟨m, -, hm⟩ := (halves_simulates smacA dmacA smacB dmacB).run
    (halves_init smacA dmacA smacB dmacB) h
  exact ⟨m, hm⟩

/-- **Both ways at once.**  In every state of every run of two processes that send to each other,
over a network that may lose, repeat, delay and reorder frames, the messages are delivered in both
directions, as between a process that only sends and one that only receives. -/
theorem duplex_delivers (smacA dmacA smacB dmacB : UInt8) (n : Duplex)
    (h : DuplexReach smacA dmacA smacB dmacB n) :
    Delivers smacA dmacA n.a n.b n.toA ∧ Delivers smacB dmacB n.b n.a n.toB := by
  obtain ⟨m, hm⟩ := halves_reach h
  obtain ⟨hloggedA, hloggedB⟩ := logged_reach h
  exact ⟨hm.delivers hloggedB, hm.swap.delivers hloggedA⟩

/-! ## A run -/

namespace Duplex

/-- Each process has sent a message, with the addresses of `test.c`. -/
def sent : Duplex :=
  let n := init.stepA 2 1 2 (.upperSend 1 default [104, 105])
  let n := n.stepB 2 1 2 (.upperSend 1 default [106])
  (n.stepA 2 1 2 (.lowerFetch linkMtu)).stepB 2 1 2 (.lowerFetch linkMtu)

/-- Each process gets the frame in place `i`, and its answer goes to the network. -/
def exchange (i : ℕ) (n : Duplex) : Duplex :=
  let n := n.stepA 2 1 2 (.lowerPut 2 default (n.toA.getD i []))
  let n := n.stepB 2 1 2 (.lowerPut 2 default (n.toB.getD i []))
  (n.stepA 2 1 2 (.lowerFetch linkMtu)).stepB 2 1 2 (.lowerFetch linkMtu)

lemma reach_exchange {n : Duplex} (h : DuplexReach 2 1 2 1 n) {i : ℕ} (hA : i < n.toA.length)
    (hB : i < n.toB.length) : DuplexReach 2 1 2 1 (n.exchange i) := by
  have hgetD : ∀ fs : List Bytes, i < fs.length → fs.getD i [] ∈ fs := by
    intro fs hi
    rw [List.getD_eq_getElem?_getD, List.getElem?_eq_getElem hi]
    exact List.getElem_mem hi
  have hB' : (n.stepA 2 1 2 (.lowerPut 2 default (n.toA.getD i []))).toB = n.toB :=
    List.append_nil _
  refine .tail (.tail (.tail (.tail h (.a (.lowerPut _ _ _) (hgetD _ hA)))
    (.b (.lowerPut _ _ _) (hgetD _ (hB' ▸ hB)))) (.a (.lowerFetch _) trivial))
    (.b (.lowerFetch _) trivial)

end Duplex

/-- Two messages cross, each with its request, its slices and its acknowledgement. -/
theorem duplex_delivers_crossing :
    let n := ((Duplex.sent.exchange 0).exchange 1).exchange 2
    (n.a.submitted = [(0, [106])] ∧ n.b.submitted = [(0, [104, 105])]) ∧
      Delivers 2 1 n.a n.b n.toA ∧ Delivers 2 1 n.b n.a n.toB := by
  refine ⟨by decide +kernel, duplex_delivers 2 1 2 1 _ ?_⟩
  have hsent : DuplexReach 2 1 2 1 Duplex.sent :=
    .tail (.tail (.tail (.tail .refl (.a (.upperSend _ _ _) (by decide)))
      (.b (.upperSend _ _ _) (by decide))) (.a (.lowerFetch _) trivial))
      (.b (.lowerFetch _) trivial)
  refine Duplex.reach_exchange (Duplex.reach_exchange (Duplex.reach_exchange hsent ?_ ?_) ?_ ?_)
    ?_ ?_
  all_goals decide +kernel

end Ipcf
