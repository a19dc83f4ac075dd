import Ipcf.Compact.Peer

/-!
# Two nodes and their flows

A node that compresses, its peer, and the two links between them, which keep the order and lose
nothing.  A compact packet names its flow by an id alone, so all depends on whether the receive flow
that the peer finds under an id was made by the request of the send flow that the packet belongs to;
`Agrees` says that it was, of the packet that is received next, and that no assertion of
`recv_compress` about receive flows fails.

The program does not see to it.  Only the send flow is touched by every packet, so the receive flow
may expire first (`rflow_expired`), and an id is handed out again while the peer still has a receive
flow for it.  `Fine` are the steps where neither happens.
-/

namespace Ipcf

/-- What stays of a flow while it lives. -/
def Sflow.fixed (flow : Sflow) : Sflow := { flow with state := .new, softTimeout := 0 }

lemma Sflow.eq_of_fixed {n n' : Sflow} (h : n.fixed = n'.fixed) :
    n.addr = n'.addr ∧ n.skey = n'.skey ∧ n.fid = n'.fid := by
  simp only [fixed, mk.injEq] at h
  exact ⟨h.1, h.2.2.1, h.2.2.2.2.1⟩

/-- The flow that a request is for. -/
def Builder.requested : Builder → Option Sflow
  | .ctl flow => some flow
  | _ => none

/-- The flow that a packet is compressed for. -/
def Builder.compressed : Builder → Option Sflow
  | .cpkt flow => some flow
  | _ => none

/-- Two nodes, and what is on its way between them; `source` is the flow whose request made the
receive flow of the peer with this key. -/
structure Nodes where
  a : Compact
  b : Compact
  toB : List Pkt
  toA : List Bytes
  source : Rkey → Option Sflow

/-- What happens next: a packet from the tun device of A, the arrival of what has been on its way
for longest, in a buffer that held `buf`, or a tick of a timer. -/
inductive NodesOp
  | xmit (now : ℤ) (fresh : Fresh) (ippkt : Mem)
  | recvB (now : ℤ) (fresh : Fresh) (buf : Mem)
  | recvA (now : ℤ) (fresh : Fresh) (buf : Mem)
  | timerA (now : ℤ)
  | timerB (now : ℤ)

namespace Nodes

def init : Nodes where
  a := compactInit
  b := compactInit
  toB := []
  toA := []
  source _ := none

def xmit (now : ℤ) (fresh : Fresh) (ippkt : Mem) (x : Nodes) : Option Nodes :=
  (xmitCompress now fresh ippkt x.a).map fun r => { x with a := r.1, toB := x.toB ++ r.2 }

def recvB (now : ℤ) (fresh : Fresh) (buf : Mem) (x : Nodes) : Option Nodes :=
  match x.toB with
  | [] => some x
  | pkt :: toB =>
    let cpkt := buf.overlay pkt.data
    match recvCompress now fresh cpkt pkt.data.length x.b with
    | .error _ => none
    | .ok d => some { x with
        b := d.s
        toB := toB
        toA := x.toA ++ d.sendBack.toList
        source := match pkt.builder.requested with
          | none => x.source
          | some flow => Function.update x.source (getRflowKey (Chdr.read cpkt)) (some flow) }

def recvA (now : ℤ) (fresh : Fresh) (buf : Mem) (x : Nodes) : Option Nodes :=
  match x.toA with
  | [] => some x
  | msg :: toA =>
    match recvCompress now fresh (buf.overlay msg) msg.length x.a with
    | .error _ => none
    | .ok d => some { x with a := d.s, toA := toA }

/-- One step; there is none where a program ends. -/
def step (x : Nodes) : NodesOp → Option Nodes
  | .xmit now fresh ippkt => x.xmit now fresh ippkt
  | .recvB now fresh buf => x.recvB now fresh buf
  | .recvA now fresh buf => x.recvA now fresh buf
  | .timerA now => some { x with a := x.a.timerEvent now }
  | .timerB now => some { x with b := x.b.timerEvent now }

def run : List NodesOp → Nodes → Option Nodes
  | [], x => some x
  | op :: ops, x => (x.step op).bind (run ops)

/-! ## Which steps are fine -/

/-- The peer has no receive flow for the id, and will get none. -/
def Unclaimed (x : Nodes) (fid : UInt8) : Prop :=
  x.b.getRflow ⟨myMac, fid⟩ = none ∧
    ∀ pkt ∈ x.toB, ∀ flow ∈ pkt.builder.requested, flow.fid ≠ fid

/-- No send flow has the id, and no packet that is compressed under it is on its way. -/
def Unused (x : Nodes) (fid : UInt8) : Prop :=
  (∀ flow ∈ x.a.sflows.values, flow.fid ≠ fid) ∧
    ∀ pkt ∈ x.toB, ∀ flow ∈ pkt.builder.compressed, flow.fid ≠ fid

/-- The packet is one that the peer takes for an IP packet, and if it makes a flow, the id of the
flow is not in use at the peer; the peer's timer frees no receive flow that is in use. -/
def Fine (x : Nodes) : NodesOp → Prop
  | .xmit _ _ ippkt =>
    (isIpv4 ippkt = true ∧ IpHdr.len ≤ (IpHdr.read ippkt).totLen.toNat) ∧
      (cannotCompact ippkt = false → x.a.getSflow (getSflowKey ippkt) = none →
        ∀ fid ∈ (getId x.a.idp).1, x.Unclaimed (UInt8.ofNat fid))
  | .timerB now => ∀ rflow ∈ x.b.rflows.values, rflow.softTimeout ≤ now → x.Unused rflow.rkey.id
  | _ => True

/-- Every step of the run is fine. -/
def FineRun : List NodesOp → Nodes → Prop
  | [], _ => True
  | op :: ops, x => x.Fine op ∧ ∀ x' ∈ x.step op, FineRun ops x'

instance (x : Nodes) (fid : UInt8) : Decidable (x.Unclaimed fid) :=
  inferInstanceAs (Decidable (_ ∧ _))

instance (x : Nodes) (fid : UInt8) : Decidable (x.Unused fid) :=
  inferInstanceAs (Decidable (_ ∧ _))

instance (x : Nodes) : DecidablePred x.Fine
  | .xmit _ _ _ => inferInstanceAs (Decidable (_ ∧ _))
  | .recvB _ _ _ => inferInstanceAs (Decidable True)
  | .recvA _ _ _ => inferInstanceAs (Decidable True)
  | .timerA _ => inferInstanceAs (Decidable True)
  | .timerB now =>
    inferInstanceAs (Decidable (∀ rflow ∈ x.b.rflows.values, rflow.softTimeout ≤ now → _))

instance decidableFineRun : (ops : List NodesOp) → (x : Nodes) → Decidable (x.FineRun ops)
  | [], _ => inferInstanceAs (Decidable True)
  | op :: ops, x =>
    have : ∀ x' : Nodes, Decidable (x'.FineRun ops) := decidableFineRun ops
    inferInstanceAs (Decidable (_ ∧ ∀ x' ∈ x.step op, x'.FineRun ops))

/-! ## Agreement -/

/-- Both nodes agree on the flow of the packet that arrives next. -/
structure Agrees (x : Nodes) : Prop where
  compressed : ∀ pkt flow, x.toB.head? = some pkt → pkt.builder = .cpkt flow → ∀ buf : Mem,
    ∃ rflow req, x.b.getRflow (getRflowKey (Chdr.read (buf.overlay pkt.data))) = some rflow ∧
      x.source (getRflowKey (Chdr.read (buf.overlay pkt.data))) = some req ∧
      req.fixed = flow.fixed ∧ CameFrom req rflow.hdr
  requested : ∀ pkt flow, x.toB.head? = some pkt → pkt.builder = .ctl flow → ∀ buf : Mem,
    x.b.getRflow (getRflowKey (Chdr.read (buf.overlay pkt.data))) = none
  safe : ∀ pkt, x.toB.head? = some pkt → ∀ now fresh (buf : Mem),
    fault (recvCompress now fresh (buf.overlay pkt.data) pkt.data.length x.b) ≠ some .rflow ∧
      fault (recvCompress now fresh (buf.overlay pkt.data) pkt.data.length x.b) ≠ some .noRflow

end Nodes

/-! ## A flow that expires at the peer -/

/-- An empty UDP packet is sent and acknowledged, the peer's timer frees the receive flow, and the
packet is sent again. -/
def expiryRun : List NodesOp := [
  .xmit 0 default (Mem.overlay (fun _ => 0) udpPacket),
  .recvB 0 default fun _ => 0,
  .recvB 0 default fun _ => 0,
  .timerB 10000,
  .recvA 10000 default fun _ => 0,
  .xmit 10000 default (Mem.overlay (fun _ => 0) udpPacket)]

/-- The packet that is compressed then finds no receive flow. -/
theorem rflow_expired : ∃ x, Nodes.run expiryRun Nodes.init = some x ∧ ¬ x.Agrees := by
  have hfault : ((Nodes.run expiryRun Nodes.init).bind fun x => x.toB.head?.bind fun pkt =>
      fault (recvCompress 10000 default (Mem.overlay (fun _ => 0) pkt.data) pkt.data.length x.b)) =
        some .rflow := by decide +kernel
  obtain ⟨x, hx, hbind⟩ := Option.bind_eq_some_iff.1 hfault
  obtain ⟨pkt, hpkt, hrflow⟩ := Option.bind_eq_some_iff.1 hbind
  exact ⟨x, hx, fun h => (h.safe pkt hpkt 10000 default fun _ => 0).1 hrflow⟩

end Ipcf
