import Ipcf.Split.Network
import Ipcf.Split.Noise

/-!
# Acknowledged means delivered, over noise

The network of `Network.lean`, which loses, repeats, delays and reorders, and now changes the bytes
of the frames too: each time a frame is delivered it may be cut, have a byte of it replaced, or up
to three of its bits flipped (`Noise`).

`acked_delivered_noisy` says that nothing is lost by it.  A damaged frame is rejected, or it does
what the frame does that was sent, or it is a PATCH frame in which some slices are bad, and such a
frame is still one of its packet (`FrameOf.noise`); so the invariant of the quiet network stands.
-/

namespace Ipcf

/-- A step of the quiet network, or the delivery of a damaged frame. -/
inductive NoisyStep (smac dmac : UInt8) (n : Net) : Net → Prop
  | quiet {n' : Net} (h : NetStep smac dmac n n') : NoisyStep smac dmac n n'
  | deliverA (now : ℤ) (stack : Stack) {raw raw' : Bytes} (held : raw ∈ n.toA)
      (sound : (accept raw).isSome) (noise : Noise raw raw') :
    NoisyStep smac dmac n (n.deliverA now stack raw')
  | deliverB (now : ℤ) (stack : Stack) {raw raw' : Bytes} (held : raw ∈ n.toB)
      (sound : (accept raw).isSome) (noise : Noise raw raw') :
    NoisyStep smac dmac n (n.deliverB now stack smac raw')

/-- The states of all runs from two fresh endpoints. -/
def NoisyReach (smac dmac : UInt8) (n : Net) : Prop :=
  Relation.ReflTransGen (NoisyStep smac dmac) Net.init n

/-! ## Damaged frames of a transfer -/

section

variable {smac dmac : UInt8} {p : Packet} {raw raw' : Bytes}

/-- A damaged frame of a packet is rejected, does what was sent, or is a frame of the packet. -/
lemma FrameOf.noise (h : FrameOf smac dmac p raw) (hnoise : Noise raw raw') :
    (accept raw' = none ∨ ∀ (now : ℤ) (stack : Stack) (s : Split),
      (lowerPut now stack raw' s).1 = (lowerPut now stack raw s).1) ∨ FrameOf smac dmac p raw' := by
  cases h with
  | head haccept =>
    left
    refine lowerPut_noise hnoise haccept fun a' hecho => ?_
    cases hecho with
    | @data fh c mh data data' hdata =>
      rcases hdata with hcut | ⟨-, hblur⟩
      · exact List.prefix_nil.1 hcut
      · exact List.eq_nil_of_length_eq_zero hblur.length_eq.symm
  | ackReq haccept hsrc hdst =>
    left
    refine lowerPut_noise hnoise haccept fun a' hecho => ?_
    cases hecho
    rfl
  | @patch fh mh data haccept hsrc hdst hseq hslices =>
    cases haccept' : accept raw' with
    | none => exact .inl (.inl rfl)
    | some a' =>
      right
      cases accept_noise hnoise haccept haccept' with
      | @patch _ c _ _ data' hdata =>
        refine .patch haccept' hsrc hdst hseq fun j hj => ?_
        rcases hdata with hcut | ⟨hclean, hblur⟩
        · exact sliceFrom_ofPrefix hcut hslices hj
        · exact sliceFrom_blurred hblur (hclean fh mh data haccept) hslices hj

/-- A damaged acknowledgement is rejected, or does what was sent. -/
lemma AckOf.noise {done : Prop} (h : AckOf smac dmac p done raw) (hnoise : Noise raw raw') :
    accept raw' = none ∨ ∀ (now : ℤ) (stack : Stack) (s : Split),
      (lowerPut now stack raw' s).1 = (lowerPut now stack raw s).1 := by
  cases h with
  | all haccept hsrc hdst hseq hdone =>
    refine lowerPut_noise hnoise haccept fun a' hecho => ?_
    cases hecho
    rfl
  | part haccept hsrc hdst hseq hrange =>
    refine lowerPut_noise hnoise haccept fun a' hecho => ?_
    cases hecho
    rfl

end

/-! ## The invariant stands -/

section

variable {smac dmac : UInt8} {ps : List Packet} {n : Net}

/-- The network may hold other frames, if they are frames of the packets too. -/
lemma NetInv.withToB (h : NetInv smac dmac ps n) (fs : List Bytes)
    (hfs : ∀ f ∈ fs, f ∈ n.toB ∨ ∃ p ∈ ps, FrameOf smac dmac p f) :
    NetInv smac dmac ps { n with toB := fs } where
  accepted := h.accepted
  short := h.short
  room := h.room
  seqs := h.seqs
  sender := h.sender
  next := h.next
  fresh := h.fresh
  framesA := by
    intro f hf
    rcases List.mem_append.1 hf with hf | hf
    · rcases hfs f hf with hold | hnew
      · exact h.framesA f (List.mem_append_left _ hold)
      · exact .inr hnew
    · exact h.framesA f (List.mem_append_right _ hf)
  framesB := h.framesB
  noSse := h.noSse
  session := h.session
  submitted := h.submitted
  upper := h.upper

/-- Whoever gets a frame does with it what another frame does. -/
lemma Net.deliverB_congr {now : ℤ} {stack : Stack} {raw raw' : Bytes} (smac : UInt8)
    (h : (lowerPut now stack raw' n.b).1 = (lowerPut now stack raw n.b).1) :
    n.deliverB now stack smac raw' = n.deliverB now stack smac raw := by
  rw [Net.deliverB, Net.deliverB, h]

lemma Net.deliverB_rejected {raw : Bytes} (h : accept raw = none) (now : ℤ) (stack : Stack)
    (smac : UInt8) : n.deliverB now stack smac raw = n := by
  have heq := lowerPut_rejected h now stack n.b
  rw [n.deliverB_eq now stack smac raw [] 0 (by rw [heq, List.append_nil]) (by simp), heq]
  simp

lemma netInv_deliverB_noise (h : NetInv smac dmac ps n) (now : ℤ) (stack : Stack)
    {raw raw' : Bytes} (hraw : raw ∈ n.toB) (hsound : (accept raw).isSome)
    (hnoise : Noise raw raw') : NetInv smac dmac ps (n.deliverB now stack smac raw') := by
  rcases h.framesA raw (List.mem_append_left _ hraw) with hnone | ⟨p, hp, hframe⟩
  · rw [hnone] at hsound
    cases hsound
  · rcases hframe.noise hnoise with (hnone | hsame) | hframe'
    · rw [Net.deliverB_rejected hnone]
      exact h
    · rw [Net.deliverB_congr smac (hsame now stack n.b)]
      exact netInv_deliverB h now stack hraw
    · -- the network holds the damaged frame for a moment
      have hheld := h.withToB (n.toB ++ [raw']) fun f hf => by
        rcases List.mem_append.1 hf with hf | hf
        · exact .inl hf
        · rw [List.mem_singleton.1 hf]
          exact .inr ⟨p, hp, hframe'⟩
      have hdelivered := netInv_deliverB hheld now stack
        (List.mem_append_right _ (List.mem_singleton_self raw'))
      exact hdelivered.withToB n.toB fun f hf => .inl (List.mem_append_left _ hf)

/-- What a damaged acknowledgement does, the acknowledgement does, or nothing is done. -/
lemma NetInv.lowerPut_noise (h : NetInv smac dmac ps n) (now : ℤ) (stack : Stack)
    {raw raw' : Bytes} (hraw : raw ∈ n.toA) (hsound : (accept raw).isSome)
    (hnoise : Noise raw raw') : (lowerPut now stack raw' n.a).1 = n.a ∨
      (lowerPut now stack raw' n.a).1 = (lowerPut now stack raw n.a).1 := by
  rcases h.framesB raw (List.mem_append_left _ hraw) with hnone | ⟨p, -, hack⟩
  · rw [hnone] at hsound
    cases hsound
  · rcases hack.noise hnoise with hnone | hsame
    · exact .inl (lowerPut_rejected hnone now stack n.a)
    · exact .inr (hsame now stack n.a)

lemma netInv_noisyStep {n' : Net} (h : NetInv smac dmac ps n)
    (hstep : NoisyStep smac dmac n n') : ∃ ps', NetInv smac dmac ps' n' := by
  cases hstep with
  | quiet hstep => exact netInv_step h hstep
  | deliverA now stack hraw hsound hnoise =>
    refine ⟨ps, ?_⟩
    rcases h.lowerPut_noise now stack hraw hsound hnoise with hsame | hsame
    · rw [Net.deliverA, hsame]
      exact h
    · rw [Net.deliverA, hsame]
      exact (netInv_deliverA h now stack hraw).1
  | deliverB now stack hraw hsound hnoise =>
    exact ⟨ps, netInv_deliverB_noise h now stack hraw hsound hnoise⟩

lemma netInv_noisyReach (h : NoisyReach smac dmac n) : ∃ ps, NetInv smac dmac ps n := by
  induction h with
  | refl => exact ⟨[], netInv_init smac dmac⟩
  | tail _ hstep ih =>
    obtain ⟨ps, hinv⟩ := ih
    exact netInv_noisyStep hinv hstep

end

/-- **Acknowledged means delivered, over noise.**  In every state of a run over a network that also
damages frames, all messages submitted by the receiver are the accepted parts of messages of the
sender, under their numbers.  And when a frame of the network, damaged or not, makes the sender
forget a packet, it is the one in front, and the receiver has submitted its message. -/
theorem acked_delivered_noisy (smac dmac : UInt8) (n : Net) (h : NoisyReach smac dmac n) :
    n.b.upperRecvList = n.submitted.map Prod.snd ∧
      (∀ r ∈ n.submitted, n.accepted[r.1.toNat]? = some r.2) ∧
      ∀ (now : ℤ) (stack : Stack), ∀ raw ∈ n.toA, ∀ raw' : Bytes,
        (raw' = raw ∨ ((accept raw).isSome ∧ Noise raw raw')) →
        ∀ (k : UInt8) (pktList : List SendNode), (n.a.sse k).map Sse.pktList = some pktList →
          ((lowerPut now stack raw' n.a).1.sse k).map Sse.pktList ≠ some pktList →
          ∃ pkt pkts p, pktList = pkt :: pkts ∧
            ((lowerPut now stack raw' n.a).1.sse k).map Sse.pktList = some pkts ∧
            pkt.Carries smac dmac p ∧ n.accepted[p.seq.toNat]? = some p.payload ∧
            (p.seq, p.payload) ∈ n.submitted := by
  obtain ⟨ps, hinv⟩ := netInv_noisyReach h
  refine ⟨hinv.upper, fun r hr => hinv.numbered hr, ?_⟩
  rintro now stack raw hraw raw' (rfl | ⟨hsound, hnoise⟩) k pktList hlist hchange
  · exact hinv.forgets now stack hraw hlist hchange
  · rcases hinv.lowerPut_noise now stack hraw hsound hnoise with hsame | hsame
    · rw [hsame] at hchange
      exact absurd hlist hchange
    · rw [hsame] at hchange ⊢
      exact hinv.forgets now stack hraw hlist hchange

/-- The PATCH frame of one message is in the network. -/
def Net.patched : Net := (Net.asked.deliverA 3 default (Net.asked.toA.getD 0 [])).fetchA linkMtu

def Net.patchRaw : Bytes := Net.patched.toB.getD 1 []

/-- A bit of its slice is flipped. -/
def Net.spoiledRaw : Bytes := patchRaw.set 24 (flip 5 0)

/-- The damaged frame arrives first. -/
def Net.noisy : Net :=
  (Net.patched.deliverB 4 default 1 Net.spoiledRaw).deliverB 5 default 1 Net.patchRaw

lemma Net.noise_spoiledRaw : Noise patchRaw spoiledRaw := by
  have haccept : accept patchRaw = some (.patch (frmHdr 1 2 frameTypePatch 0 54)
      (msgHdr 0xffffffff 1 0 []) (sliceOf [104, 105] 0)) := by decide +kernel
  have hbyte : patchRaw[24]? = some 0 := by decide +kernel
  refine .bits (fun fh mh data heq => ?_) (fun fh mh req heq => by cases haccept.symm.trans heq)
    (.step (.refl 2 _) (onWire_set hbyte ⟨5, rfl⟩ (by decide) (by decide) (by decide +kernel)))
  cases haccept.symm.trans heq
  decide +kernel

/-- The damaged frame is of no use, and the message is delivered with the next one. -/
theorem acked_delivered_noisy_patch :
    (Net.patched.deliverB 4 default 1 Net.spoiledRaw).submitted = [] ∧
      Net.noisy.submitted = [(0, [104, 105])] ∧
      ∀ r ∈ Net.noisy.submitted, Net.noisy.accepted[r.1.toNat]? = some r.2 := by
  refine ⟨by decide +kernel, by decide +kernel, (acked_delivered_noisy 1 2 Net.noisy ?_).2.1⟩
  have hasked : NoisyReach 1 2 Net.asked := by
    refine .tail (.tail (.tail (.tail .refl (.quiet (.upperSend 1 default [104, 105] ?_)))
      (.quiet (.fetchA linkMtu))) (.quiet (.deliverB 2 default ?_))) (.quiet (.fetchB linkMtu))
    · decide
    · decide +kernel
  refine .tail (.tail (.tail (.tail hasked (.quiet (.deliverA 3 default ?_)))
    (.quiet (.fetchA linkMtu))) (.deliverB 4 default ?_ ?_ Net.noise_spoiledRaw))
    (.quiet (.deliverB 5 default ?_))
  all_goals decide +kernel

end Ipcf
