import Ipcf.Compact.Plain

/-!
# What the peer makes of a compact packet

`recv_compress` on the packets of `xmit_compress` and on acknowledgements, one lemma for each kind:
a request makes a receive flow, with the headers of the send flow (`cameFrom_buildCtl`), or meets
one that is there; a packet with data uses the receive flow of its key; an acknowledgement
establishes the send flow that the index holds.

A packet that `build_cpkt` pushes without having taken one of its branches can read as a control
packet, but as none of the known kinds (`chdr_buildCpkt`).
-/

namespace Ipcf

/-! ## The headers in a request -/

/-- The part of the union that belongs to the protocol. -/
def OrigHdr.transport (hdr : OrigHdr) : Bytes :=
  if hdr.ip.protocol = protocolTcp then hdr.t.read 0 TcpHdr.len
  else if hdr.ip.protocol = protocolUdp then hdr.t.read 0 UdpHdr.size
  else []

/-- The headers are those of the flow, apart from the IP id, which `recv_tcp` and `recv_udp` count
up. -/
structure CameFrom (flow : Sflow) (hdr : OrigHdr) : Prop where
  ip : { hdr.ip with id := flow.hdr.ip.id } = flow.hdr.ip
  transport : hdr.transport = flow.hdr.transport

/-- Behind the compact header of a request are the headers of the flow. -/
lemma drop_buildCtl (flow : Sflow) (m : Mem) : (m.overlay (buildCtl flow).data).drop Chdr.len =
    (m.drop Chdr.len).overlay (flow.hdr.ip.bytes ++ flow.hdr.transport) := by
  rw [buildCtl]
  simp only [List.append_assoc]
  exact Mem.drop_overlay m (Chdr.bytes _) _

lemma ip_buildCtl (flow : Sflow) (fresh : Fresh) (m : Mem) :
    (OrigHdr.read fresh ((m.overlay (buildCtl flow).data).drop Chdr.len)).ip = flow.hdr.ip := by
  rw [drop_buildCtl, OrigHdr.read]
  exact IpHdr.read_overlay _ _ _

lemma cameFrom_buildCtl (flow : Sflow) (fresh : Fresh) (m : Mem) :
    CameFrom flow (OrigHdr.read fresh ((m.overlay (buildCtl flow).data).drop Chdr.len)) := by
  rw [drop_buildCtl]
  set m' := (m.drop Chdr.len).overlay (flow.hdr.ip.bytes ++ flow.hdr.transport) with hm'
  have hip : IpHdr.read m' = flow.hdr.ip := IpHdr.read_overlay _ _ _
  have htransport : ∀ len, flow.hdr.transport.length = len →
      m'.read IpHdr.len len = flow.hdr.transport := by
    intro len hlen
    rw [← Mem.read_drop, hm', ← IpHdr.length_bytes flow.hdr.ip, Mem.drop_overlay,
      Mem.read_overlay _ (Nat.le_of_eq hlen.symm), ← hlen, List.take_length]
  refine ⟨by rw [OrigHdr.read, hip], ?_⟩
  rw [OrigHdr.transport, OrigHdr.read, hip]
  simp only
  split_ifs with htcp hudp
  · have hlen : flow.hdr.transport.length = TcpHdr.len := by
      rw [OrigHdr.transport, if_pos htcp]
      exact Buffer.length_read _ (Nat.le_refl _)
    rw [htransport _ hlen, Buffer.read_write_zero _ (Nat.le_of_eq hlen.symm) (Nat.le_of_eq hlen),
      ← hlen, List.take_length]
  · have hlen : flow.hdr.transport.length = UdpHdr.size := by
      rw [OrigHdr.transport, if_neg htcp, if_pos hudp]
      exact Buffer.length_read _ (by decide)
    rw [htransport _ hlen, Buffer.read_write_zero _ (Nat.le_of_eq hlen.symm) (by rw [hlen]; decide),
      ← hlen, List.take_length]
  · rw [OrigHdr.transport, if_neg htcp, if_neg hudp]

lemma CameFrom.nextIpId {flow : Sflow} {rflow : Rflow} (h : CameFrom flow rflow.hdr) :
    CameFrom flow (nextIpId rflow).hdr := ⟨h.ip, h.transport⟩

/-! ## The header of a compact packet -/

section

variable {fresh : Fresh} {flow : Sflow} {ippkt : Mem} {pkts : List Pkt} {pkt : Pkt}

/-- The bits of the first byte decide about the type. -/
lemma chdr_payload {t i : UInt8} {rest : Bytes}
    (hdata : pkt.data = Chdr.bytes { t := t, i := i, smac := myMac, id := flow.fid } ++ rest)
    (htype : (t <<< 6 ||| i &&& 0x3f) >>> 6 = ctypeFrmCtl → (t <<< 6 ||| i &&& 0x3f) &&& 0x3f = 0)
    (m : Mem) :
    getRflowKey (Chdr.read (m.overlay pkt.data)) = ⟨myMac, flow.fid⟩ ∧
      ((Chdr.read (m.overlay pkt.data)).t = ctypeFrmCtl →
        (Chdr.read (m.overlay pkt.data)).i = 0) := by
  rw [hdata]
  exact ⟨rfl, htype⟩

lemma chdr_buildCpkt (h : buildCpkt fresh flow ippkt = some pkts) (hpkt : pkt ∈ pkts) (m : Mem) :
    getRflowKey (Chdr.read (m.overlay pkt.data)) = ⟨myMac, flow.fid⟩ ∧
      ((Chdr.read (m.overlay pkt.data)).t = ctypeFrmCtl →
        (Chdr.read (m.overlay pkt.data)).i = 0) := by
  rcases buildCpkt_cases h hpkt with h | h | h | rfl
  · obtain ⟨-, rest, hdata⟩ := payloadPkt_eq_some h
    apply chdr_payload hdata
    split_ifs <;> decide
  · obtain ⟨-, rest, hdata⟩ := payloadPkt_eq_some h
    apply chdr_payload hdata
    rw [tcpSbits]
    split_ifs <;> decide
  · obtain ⟨-, rest, hdata⟩ := payloadPkt_eq_some h
    apply chdr_payload hdata
    decide
  · have hinfo : ∀ c < 256, ((UInt8.ofNat c >>> 6) <<< 6 ||| 0 &&& 0x3f) &&& 0x3f = 0 := by
      decide +kernel
    have hpkt := hinfo fresh.pkt.toNat fresh.pkt.toNat_lt
    rw [UInt8.ofNat_toNat] at hpkt
    exact chdr_payload (List.append_nil _).symm (fun _ => hpkt) m

end

/-! ## Receiving -/

/-- `recv_compress` for a packet with data, from the flow on. -/
def recvFrame (cpkt : Mem) (len : UInt16) (rflow : Rflow) : Option (Rflow × Bytes) :=
  if (Chdr.read cpkt).t = ctypeFrmTcp then recvTcp cpkt len rflow
  else if (Chdr.read cpkt).t = ctypeFrmUdp then recvUdp cpkt len rflow
  else (recvRaw cpkt len rflow).map fun pkt => (rflow, pkt)

lemma recvCompress_recvFrame {m : Mem} (hipv4 : isIpv4 m = false)
    (htype : (Chdr.read m).t ≠ ctypeFrmCtl) (now : ℤ) (fresh : Fresh) (len : ℕ) (s : Compact) :
    recvCompress now fresh m len s =
      recvData now (getRflowKey (Chdr.read m)) s (recvFrame m (UInt16.ofNat len)) := by
  rw [recvCompress, if_neg (by rw [hipv4]; exact Bool.false_ne_true)]
  simp only [if_neg htype]
  split_ifs with htcp hudp
  · have hframe : recvFrame m (UInt16.ofNat len) = recvTcp m (UInt16.ofNat len) := by
      funext rflow
      rw [recvFrame, if_pos htcp]
    rw [hframe]
  · have hframe : recvFrame m (UInt16.ofNat len) = recvUdp m (UInt16.ofNat len) := by
      funext rflow
      rw [recvFrame, if_neg htcp, if_pos hudp]
    rw [hframe]
  · have hframe : recvFrame m (UInt16.ofNat len) =
        fun rflow => (recvRaw m (UInt16.ofNat len) rflow).map fun pkt => (rflow, pkt) := by
      funext rflow
      rw [recvFrame, if_neg htcp, if_neg hudp]
    rw [hframe]

lemma recvFrame_flow {cpkt : Mem} {len : UInt16} {rflow : Rflow} {r : Rflow × Bytes}
    (h : recvFrame cpkt len rflow = some r) : r.1 = rflow ∨ r.1 = nextIpId rflow := by
  rw [recvFrame] at h
  split_ifs at h
  · obtain ⟨pkt, -, rfl⟩ := Option.map_eq_some_iff.1 h
    exact .inr rfl
  · obtain ⟨pkt, -, rfl⟩ := Option.map_eq_some_iff.1 h
    exact .inr rfl
  · obtain ⟨pkt, -, rfl⟩ := Option.map_eq_some_iff.1 h
    exact .inl rfl

section

variable (now : ℤ) (fresh : Fresh) (m : Mem) (len : ℕ) (s : Compact)

/-- A request. -/
lemma recvCompress_buildCtl (flow : Sflow) :
    recvCompress now fresh (m.overlay (buildCtl flow).data) len s =
      match s.getRflow ⟨myMac, flow.fid⟩ with
      | some _ => .error .noRflow
      | none =>
        .ok ⟨s.buildRflow now fresh ⟨myMac, flow.fid⟩ (m.overlay (buildCtl flow).data), none,
          some (buildAck (m.overlay (buildCtl flow).data))⟩ := by
  have hipv4 := neverIpv4_buildCtl flow m
  have htype : (Chdr.read (m.overlay (buildCtl flow).data)).t = ctypeFrmCtl := by
    change (ctypeFrmCtl <<< 6 ||| ctypeCtlReq &&& 0x3f) >>> 6 = ctypeFrmCtl
    decide
  have hinfo : (Chdr.read (m.overlay (buildCtl flow).data)).i = ctypeCtlReq := by
    change (ctypeFrmCtl <<< 6 ||| ctypeCtlReq &&& 0x3f) &&& 0x3f = ctypeCtlReq
    decide
  rw [recvCompress, if_neg (by rw [hipv4]; exact Bool.false_ne_true)]
  simp only [if_pos htype, recvCtl, if_pos hinfo]
  rfl

/-- An acknowledgement. -/
lemma recvCompress_buildAck (cpkt : Mem) :
    recvCompress now fresh (m.overlay (buildAck cpkt)) len s =
      match s.rindex (Chdr.read cpkt).id with
      | some addr => .ok ⟨s.setSflow addr fun n => { n with state := .established }, none, none⟩
      | none => .ok ⟨s, none, none⟩ := by
  have hipv4 := neverIpv4_buildAck cpkt m
  have htype : (Chdr.read (m.overlay (buildAck cpkt))).t = ctypeFrmCtl := by
    change (ctypeFrmCtl <<< 6 ||| ctypeCtlAck &&& 0x3f) >>> 6 = ctypeFrmCtl
    decide
  have hinfo : (Chdr.read (m.overlay (buildAck cpkt))).i = ctypeCtlAck := by
    change (ctypeFrmCtl <<< 6 ||| ctypeCtlAck &&& 0x3f) &&& 0x3f = ctypeCtlAck
    decide
  have hreq : (Chdr.read (m.overlay (buildAck cpkt))).i ≠ ctypeCtlReq := by
    rw [hinfo]
    decide
  rw [recvCompress, if_neg (by rw [hipv4]; exact Bool.false_ne_true)]
  simp only [if_pos htype, recvCtl, if_neg hreq, if_pos hinfo]
  rfl

variable {m}

/-- A packet with data: the functions for the three types change nothing of the flow but its IP
id. -/
lemma recvCompress_data (hipv4 : isIpv4 m = false) (htype : (Chdr.read m).t ≠ ctypeFrmCtl) :
    ∃ recv, recvCompress now fresh m len s = recvData now (getRflowKey (Chdr.read m)) s recv ∧
      ∀ rflow r, recv rflow = some r → r.1 = rflow ∨ r.1 = nextIpId rflow :=
  ⟨_, recvCompress_recvFrame hipv4 htype now fresh len s, fun _ _ => recvFrame_flow⟩

/-- A control packet of no known kind. -/
lemma recvCompress_unknown (hipv4 : isIpv4 m = false) (htype : (Chdr.read m).t = ctypeFrmCtl)
    (hinfo : (Chdr.read m).i = 0) : recvCompress now fresh m len s = .error .unreachable := by
  rw [recvCompress, if_neg (by rw [hipv4]; exact Bool.false_ne_true)]
  simp only [if_pos htype, recvCtl, hinfo]
  rfl

/-- With a receive flow, only the copies of a packet with data can fail. -/
lemma fault_recvData {k : Rkey} {rflow : Rflow} (hget : s.getRflow k = some rflow)
    (recv : Rflow → Option (Rflow × Bytes)) :
    fault (recvData now k s recv) = none ∨ fault (recvData now k s recv) = some .copy := by
  rw [recvData, hget]
  simp only
  cases recv rflow with
  | none => exact .inr rfl
  | some r => exact .inl rfl

end

end Ipcf
