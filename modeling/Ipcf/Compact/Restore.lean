import Ipcf.Compact.Peer

/-!
# Packets restored

A flow with both its ends: the send flow compresses a packet, and the receive flow, which the peer
has made of its request, restores it.  `Paired` are the two ends, whatever packets have gone through
the flow since.

A RAW packet is restored with its IP id, the fragment bits and the payload, if it goes out as a RAW
packet at all: `build_cpkt` asks only whether the IP id in the key is zero
(`raw_restored_iff`).  UDP packets are restored one after the other, with the ports of the packet
that opened the flow.  That one can be a fragment, filed under the IP id zero, and then its ports
are what stands in the place of them (`udp_restored_iff`).
-/

namespace Ipcf

/-! ## Both ends of a flow -/

/-- The send flow that the packet `first` has opened, and the receive flow that its request has made
at the peer, which may have been touched, and may have restored packets of the flow. -/
inductive Paired (first : Mem) (flow : Sflow) : Rflow → Prop
  | opened {now : ℤ} {fresh fresh' : Fresh} {m : Mem} (skey : flow.skey = getSflowKey first)
      (hdr : flow.hdr = OrigHdr.read fresh first) :
      Paired first flow
        (Compact.newRflow now fresh' ⟨myMac, flow.fid⟩ (m.overlay (buildCtl flow).data))
  | touched {rflow : Rflow} (t : ℤ) (h : Paired first flow rflow) :
      Paired first flow { rflow with softTimeout := t }
  | carried {rflow : Rflow} {r : Rflow × Bytes} {fresh : Fresh} {flow' : Sflow} {ippkt m : Mem}
      {pkts : List Pkt} {pkt : Pkt} (h : Paired first flow rflow)
      (same : flow'.skey = flow.skey ∧ flow'.fid = flow.fid)
      (key : getSflowKey ippkt = flow.skey) (built : buildCpkt fresh flow' ippkt = some pkts)
      (mem : pkt ∈ pkts)
      (received : recvFrame (m.overlay pkt.data) (UInt16.ofNat pkt.data.length) rflow = some r) :
      Paired first flow r.1

/-- What the six bits say about a fragment. -/
def rawInfo (fragOff : UInt16) : UInt8 :=
  (if fragOff &&& fragFlagMfMask ≠ 0 then ctypeRawMfbit else 0) |||
    if fragOff &&& fragOffMask ≠ 0 then ctypeRawFbit else 0

lemma rawInfo_lt (fragOff : UInt16) : rawInfo fragOff < 64 := by
  rw [rawInfo]
  split_ifs <;> decide

lemma rawInfo_bits (fragOff : UInt16) :
    (rawInfo fragOff &&& ctypeRawMfbit ≠ 0 ↔ fragOff &&& fragFlagMfMask ≠ 0) ∧
      (rawInfo fragOff &&& ctypeRawFbit ≠ 0 ↔ fragOff &&& fragOffMask ≠ 0) := by
  rw [rawInfo]
  constructor
  · by_cases hmf : fragOff &&& fragFlagMfMask ≠ 0
    · rw [if_pos hmf, iff_true_right hmf]
      split_ifs <;> decide
    · rw [if_neg hmf, iff_false_right hmf]
      split_ifs <;> decide
  · by_cases hfrag : fragOff &&& fragOffMask ≠ 0
    · rw [if_pos hfrag, iff_true_right hfrag]
      split_ifs <;> decide
    · rw [if_neg hfrag, iff_false_right hfrag]
      split_ifs <;> decide

/-- The type of a RAW packet. -/
lemma chdr_buildRaw {flow : Sflow} {ippkt : Mem} {pkt : Pkt} (h : buildRaw flow ippkt = some pkt)
    (m : Mem) : (Chdr.read (m.overlay pkt.data)).t = ctypeFrmRaw := by
  obtain ⟨-, rest, hdata⟩ := payloadPkt_eq_some h
  have ht : ctypeFrmRaw < 4 := by decide
  rw [hdata]
  exact congrArg Chdr.t (Chdr.read_overlay m _ _ ht (rawInfo_lt _) _)

section

variable (ippkt : Mem)

lemma saddr_getSflowKey : (getSflowKey ippkt).saddr = (IpHdr.read ippkt).saddr := by
  rw [getSflowKey]
  split_ifs <;> rfl

lemma daddr_getSflowKey : (getSflowKey ippkt).daddr = (IpHdr.read ippkt).daddr := by
  rw [getSflowKey]
  split_ifs <;> rfl

lemma proto_getSflowKey : (getSflowKey ippkt).proto = (IpHdr.read ippkt).protocol := by
  rw [getSflowKey]
  split_ifs <;> rfl

end

/-- What the six bits say about a TCP packet. -/
def tcpInfo (tcphdr : TcpHdr) : UInt8 :=
  tcpSbits tcphdr ||| ctypeTcpSbit ||| (if tcphdr.has tcpAck then ctypeTcpAbit else 0) |||
    ctypeTcpWbit

lemma tcpInfo_lt (tcphdr : TcpHdr) : tcpInfo tcphdr < 64 := by
  rw [tcpInfo, tcpSbits]
  split_ifs <;> decide

lemma chdr_buildTcp {flow : Sflow} {ippkt : Mem} {pkt : Pkt} (h : buildTcp flow ippkt = some pkt)
    (m : Mem) : (Chdr.read (m.overlay pkt.data)).t = ctypeFrmTcp := by
  obtain ⟨-, rest, hdata⟩ := payloadPkt_eq_some h
  have ht : ctypeFrmTcp < 4 := by decide
  rw [hdata]
  exact congrArg Chdr.t (Chdr.read_overlay m _ _ ht (tcpInfo_lt _) _)

lemma chdr_buildUdp {flow : Sflow} {ippkt : Mem} {pkt : Pkt} (h : buildUdp flow ippkt = some pkt)
    (m : Mem) : (Chdr.read (m.overlay pkt.data)).t = ctypeFrmUdp := by
  obtain ⟨-, rest, hdata⟩ := payloadPkt_eq_some h
  have ht : ctypeFrmUdp < 4 := by decide
  have hi : (0 : UInt8) < 64 := by decide
  rw [hdata, Chdr.read_overlay m _ _ ht hi]

/-- One byte of what was read. -/
lemma get_of_read {n : ℕ} {b : Buffer UInt8 n} {m : Mem} {off len i : ℕ}
    (hread : b.read 0 len = m.read off len) (hi : i < len) : b.get i 0 = m.drop off i := by
  have hcell := congrArg (fun l : List UInt8 => l[i]?) hread
  simp only [Buffer.getElem?_read, Mem.getElem?_read, if_pos hi, Nat.zero_add] at hcell
  rw [Buffer.get, List.getD_eq_getElem?_getD, hcell]
  rfl

namespace Paired

variable {first : Mem} {flow : Sflow} {rflow : Rflow} (h : Paired first flow rflow)

include h

lemma skey : flow.skey = getSflowKey first := by
  induction h with
  | opened skey _ => exact skey
  | touched _ _ ih => exact ih
  | carried _ _ _ _ _ _ ih => exact ih

lemma hdr : ∃ fresh, flow.hdr = OrigHdr.read fresh first := by
  induction h with
  | opened _ hdr => exact ⟨_, hdr⟩
  | touched _ _ ih => exact ih
  | carried _ _ _ _ _ _ ih => exact ih

lemma cameFrom : CameFrom flow rflow.hdr := by
  induction h with
  | opened _ _ => exact cameFrom_buildCtl flow _ _
  | touched _ _ ih => exact ih
  | carried _ _ _ _ _ received ih =>
    rcases recvFrame_flow received with hsame | hnext
    · rw [hsame]
      exact ih
    · rw [hnext]
      exact ih.nextIpId

/-- A flow that is filed under an IP id keeps it. -/
lemma ip_id (hipid : flow.skey.ipid ≠ 0) : rflow.hdr.ip.id = flow.hdr.ip.id := by
  induction h with
  | opened _ _ => exact congrArg IpHdr.id (ip_buildCtl flow _ _)
  | touched _ _ ih => exact ih
  | @carried rflow r fresh flow' ippkt m pkts pkt _ same _ built mem received ih =>
    rw [buildCpkt, if_pos (by rw [same.1]; exact hipid)] at built
    obtain ⟨raw, hraw, rfl⟩ := Option.map_eq_some_iff.1 built
    obtain rfl : pkt = raw := by simpa using mem
    have htype := chdr_buildRaw hraw m
    rw [recvFrame, if_neg (by rw [htype]; decide), if_neg (by rw [htype]; decide)] at received
    obtain ⟨out, -, rfl⟩ := Option.map_eq_some_iff.1 received
    exact ih

/-- The IP header that is used is that of the packet that opened the flow, but for the IP id. -/
lemma ip_eq : rflow.hdr.ip = { IpHdr.read first with id := rflow.hdr.ip.id } := by
  obtain ⟨fresh, hhdr⟩ := h.hdr
  have hip : flow.hdr.ip = IpHdr.read first := by rw [hhdr, OrigHdr.read]
  have hcame := h.cameFrom.ip
  rw [hip] at hcame
  rw [← hcame]

/-- The transport header is that of the packet that opened the flow. -/
lemma transport : rflow.hdr.transport =
    if (IpHdr.read first).protocol = protocolTcp then first.read IpHdr.len TcpHdr.len
    else if (IpHdr.read first).protocol = protocolUdp then first.read IpHdr.len UdpHdr.size
    else [] := by
  obtain ⟨fresh, hhdr⟩ := h.hdr
  have hwritten : ∀ len ≤ TcpHdr.len,
      (fresh.t.write 0 (first.read IpHdr.len len)).read 0 len = first.read IpHdr.len len := by
    intro len hlen
    have hread : (first.read IpHdr.len len).length = len := Mem.length_read _ _ _
    rw [fresh.t.read_write_zero (by rw [hread]) (by rwa [hread]),
      List.take_of_length_le (by rw [hread])]
  rw [h.cameFrom.transport, hhdr, OrigHdr.transport, OrigHdr.read]
  simp only
  split_ifs
  · exact hwritten _ (by decide)
  · exact hwritten _ (by decide)
  · rfl

lemma protocol : rflow.hdr.ip.protocol = (IpHdr.read first).protocol :=
  (congrArg IpHdr.protocol h.ip_eq).trans rfl

lemma tcpHdr (hproto : (IpHdr.read first).protocol = protocolTcp) :
    TcpHdr.read (fun k => rflow.hdr.t.get k 0) = TcpHdr.read (first.drop IpHdr.len) := by
  have hread := h.transport
  rw [OrigHdr.transport, h.protocol, if_pos hproto, if_pos hproto] at hread
  exact TcpHdr.read_congr fun i hi => get_of_read hread hi

lemma udpHdr (hproto : (IpHdr.read first).protocol = protocolUdp) :
    UdpHdr.read (fun k => rflow.hdr.t.get k 0) = UdpHdr.read (first.drop IpHdr.len) := by
  have hnot : (IpHdr.read first).protocol ≠ protocolTcp := by
    rw [hproto]
    decide
  have hread := h.transport
  rw [OrigHdr.transport, h.protocol, if_neg hnot, if_pos hproto, if_neg hnot, if_pos hproto]
    at hread
  exact UdpHdr.read_congr fun i hi => get_of_read hread hi

lemma addresses {ippkt : Mem} (hkey : getSflowKey ippkt = flow.skey) :
    rflow.hdr.ip.saddr = (IpHdr.read ippkt).saddr ∧
      rflow.hdr.ip.daddr = (IpHdr.read ippkt).daddr ∧
      rflow.hdr.ip.protocol = (IpHdr.read ippkt).protocol := by
  rw [h.skey] at hkey
  have hsaddr := congrArg Skey.saddr hkey
  have hdaddr := congrArg Skey.daddr hkey
  have hproto := congrArg Skey.proto hkey
  rw [saddr_getSflowKey, saddr_getSflowKey] at hsaddr
  rw [daddr_getSflowKey, daddr_getSflowKey] at hdaddr
  rw [proto_getSflowKey, proto_getSflowKey] at hproto
  rw [hsaddr, hdaddr, hproto, h.ip_eq]
  exact ⟨rfl, rfl, rfl⟩

end Paired

/-! ## What comes out -/

/-- The IP header of a packet. -/
def ipOf (pkt : Bytes) : IpHdr := IpHdr.read (Mem.overlay (fun _ => 0) pkt)

/-- What follows the first `off` bytes of an IP packet. -/
def payloadOf (ippkt : Mem) (off : ℕ) : Bytes :=
  ippkt.read off ((IpHdr.read ippkt).totLen.toNat - off)

/-- The addresses, the protocol and the length are those of `ippkt`. -/
structure SameIp (ippkt : Mem) (pkt : Bytes) : Prop where
  saddr : (ipOf pkt).saddr = (IpHdr.read ippkt).saddr
  daddr : (ipOf pkt).daddr = (IpHdr.read ippkt).daddr
  protocol : (ipOf pkt).protocol = (IpHdr.read ippkt).protocol
  totLen : (ipOf pkt).totLen = (IpHdr.read ippkt).totLen
  length : pkt.length = (IpHdr.read ippkt).totLen.toNat

section

variable {ippkt : Mem} (m : Mem) (ip : IpHdr) (transport : ℕ → Bytes) {size : ℕ} (off : ℕ)
  (front : Bytes)

/-- Headers that are as long as those of the packet, and its payload. -/
lemma rebuild_payload (hsaddr : ip.saddr = (IpHdr.read ippkt).saddr)
    (hdaddr : ip.daddr = (IpHdr.read ippkt).daddr)
    (hproto : ip.protocol = (IpHdr.read ippkt).protocol) (hoff : off = IpHdr.len + size)
    (hmin : off ≤ (IpHdr.read ippkt).totLen.toNat)
    (hmax : (IpHdr.read ippkt).totLen.toNat ≤ maxDataLength) (hfront : front.length ≤ off)
    (htransport : (transport (payloadOf ippkt off).length).length = size) :
    ∃ pkt iphdr, rebuild ip transport size (m.overlay (front ++ payloadOf ippkt off))
        (UInt16.ofNat (front ++ payloadOf ippkt off).length) front.length = some pkt ∧
      SameIp ippkt pkt ∧ ipOf pkt = iphdr ∧ iphdr.id = ip.id ∧ iphdr.fragOff = ip.fragOff ∧
      pkt = iphdr.bytes ++ (transport (payloadOf ippkt off).length ++ payloadOf ippkt off) := by
  set payload := payloadOf ippkt off with hpayload
  have hplen : payload.length = (IpHdr.read ippkt).totLen.toNat - off := by
    rw [hpayload, payloadOf, Mem.length_read]
  have hlen : (UInt16.ofNat (front ++ payload).length).toNat = front.length + payload.length := by
    rw [List.length_append]
    apply UInt16.toNat_ofNat_of_lt
    rw [maxDataLength] at hmax
    change _ < 65536
    omega
  rw [rebuild, hlen, if_neg (Nat.not_lt.2 (Nat.le_add_right _ _)), Nat.add_sub_cancel_left,
    if_pos (by omega), Mem.read_overlay_append]
  simp only [List.append_assoc]
  have htot : UInt16.ofNat (IpHdr.len + size + payload.length) = (IpHdr.read ippkt).totLen := by
    rw [hplen, ← hoff, Nat.add_sub_cancel' hmin, UInt16.ofNat_toNat]
  refine ⟨_, _, rfl, ?_, IpHdr.read_overlay _ _ _, rfl, rfl, rfl⟩
  refine ⟨?_, ?_, ?_, ?_, ?_⟩
  · rw [ipOf, IpHdr.read_overlay]
    exact hsaddr
  · rw [ipOf, IpHdr.read_overlay]
    exact hdaddr
  · rw [ipOf, IpHdr.read_overlay]
    exact hproto
  · rw [ipOf, IpHdr.read_overlay]
    exact htot
  · simp only [List.length_append, IpHdr.length_bytes, htransport]
    omega

end

/-! ## RAW packets -/

/-- The packet is a fragment, or of another protocol than TCP and UDP. -/
def IsRaw (ippkt : Mem) : Prop :=
  (IpHdr.read ippkt).fragOff &&& fragFlagMfMask ≠ 0 ∨
    (IpHdr.read ippkt).fragOff &&& fragOffMask ≠ 0 ∨
      ((IpHdr.read ippkt).protocol ≠ protocolTcp ∧ (IpHdr.read ippkt).protocol ≠ protocolUdp)

instance (ippkt : Mem) : Decidable (IsRaw ippkt) := inferInstanceAs (Decidable (_ ∨ _))

/-- Also the IP id, the fragment bits and the payload are those of `ippkt`. -/
structure SameRaw (ippkt : Mem) (pkt : Bytes) : Prop where
  ip : SameIp ippkt pkt
  id : (ipOf pkt).id = (IpHdr.read ippkt).id
  mf : (ipOf pkt).fragOff &&& fragFlagMfMask ≠ 0 ↔
    (IpHdr.read ippkt).fragOff &&& fragFlagMfMask ≠ 0
  fragOff : (ipOf pkt).fragOff &&& fragOffMask = (IpHdr.read ippkt).fragOff &&& fragOffMask
  payload : pkt.drop IpHdr.len = payloadOf ippkt IpHdr.len

/-- The packet goes out as a RAW packet, and the peer restores it, whatever memory they are in. -/
def RawRestored (flow : Sflow) (rflow : Rflow) (ippkt : Mem) : Prop :=
  ∀ fresh, ∃ pkts frame, buildCpkt fresh flow ippkt = some pkts ∧ pkts ≠ [] ∧
    (∀ q ∈ pkts, q = frame) ∧ ∀ m : Mem, (Chdr.read (m.overlay frame.data)).t = ctypeFrmRaw ∧
      ∃ pkt, recvRaw (m.overlay frame.data) (UInt16.ofNat frame.data.length) rflow = some pkt ∧
        SameRaw ippkt pkt

lemma ipid_getSflowKey {ippkt : Mem} (hraw : IsRaw ippkt) :
    (getSflowKey ippkt).ipid = (IpHdr.read ippkt).id := by
  rw [IsRaw] at hraw
  rw [getSflowKey]
  simp only
  rw [if_pos hraw]

lemma ipid_eq_id {ippkt : Mem} (hipid : (getSflowKey ippkt).ipid ≠ 0) :
    (getSflowKey ippkt).ipid = (IpHdr.read ippkt).id := by
  rw [getSflowKey] at hipid ⊢
  simp only at hipid ⊢
  split_ifs at hipid ⊢ with hraw
  · rfl
  · exact absurd rfl hipid
  · exact absurd rfl hipid

lemma and_or_distrib (x y z : UInt16) : (x ||| y) &&& z = x &&& z ||| y &&& z :=
  UInt16.toBitVec_inj.1 BitVec.and_or_distrib_right

/-- The fragment bits, as `recv_raw` puts them together. -/
def joinFragOff (fragOff : UInt16) : UInt16 :=
  if fragOff &&& fragFlagMfMask ≠ 0 then fragOff &&& fragOffMask ||| fragFlagMfMask
  else fragOff &&& fragOffMask

lemma joinFragOff_mf (fragOff : UInt16) :
    joinFragOff fragOff &&& fragFlagMfMask ≠ 0 ↔ fragOff &&& fragFlagMfMask ≠ 0 := by
  have hdisjoint : fragOffMask &&& fragFlagMfMask = 0 := by decide
  rw [joinFragOff]
  split_ifs with hmf
  · rw [and_or_distrib, UInt16.and_assoc, hdisjoint, UInt16.and_zero, UInt16.zero_or]
    exact iff_of_true (by decide) hmf
  · rw [UInt16.and_assoc, hdisjoint, UInt16.and_zero]
    exact iff_of_false (fun h => h rfl) hmf

lemma joinFragOff_off (fragOff : UInt16) :
    joinFragOff fragOff &&& fragOffMask = fragOff &&& fragOffMask := by
  have hdisjoint : fragFlagMfMask &&& fragOffMask = 0 := by decide
  rw [joinFragOff]
  split_ifs
  · rw [and_or_distrib, UInt16.and_assoc, UInt16.and_self, hdisjoint, UInt16.or_zero]
  · rw [UInt16.and_assoc, UInt16.and_self]

section

variable {first : Mem} {flow : Sflow} {rflow : Rflow} {ippkt : Mem}

/-- What stands before the payload in a RAW packet. -/
def rawFront (fid : UInt8) (fragOff : UInt16) : Bytes :=
  Chdr.bytes { t := ctypeFrmRaw, i := rawInfo fragOff, smac := myMac, id := fid } ++
    if fragOff &&& fragOffMask ≠ 0 then be16 (fragOff &&& fragOffMask) else []

lemma rawFront_length (fid : UInt8) (fragOff : UInt16) :
    (rawFront fid fragOff).length ≤ IpHdr.len := by
  rw [rawFront, List.length_append, Chdr.length_bytes, Nat.add_comm]
  exact rawFields_length _

lemma buildRaw_eq_some_iff {pkt : Pkt} (hmax : (IpHdr.read ippkt).totLen.toNat ≤ maxDataLength) :
    buildRaw flow ippkt = some pkt ↔ IpHdr.len ≤ (IpHdr.read ippkt).totLen.toNat ∧
      pkt = ⟨rawFront flow.fid (IpHdr.read ippkt).fragOff ++ payloadOf ippkt IpHdr.len,
        .cpkt flow⟩ :=
  payloadPkt_eq_some_iff (rawFields_length _) hmax

/-- `recv_raw` reads what `build_cpkt` has put into the header and behind it. -/
lemma recvRaw_frame (m : Mem) (len : UInt16) (fid : UInt8) (fragOff : UInt16) (payload : Bytes) :
    recvRaw (m.overlay (rawFront fid fragOff ++ payload)) len rflow =
      rebuild { rflow.hdr.ip with fragOff := joinFragOff fragOff } (fun _ => []) 0
        (m.overlay (rawFront fid fragOff ++ payload)) len (rawFront fid fragOff).length := by
  have ht : ctypeFrmRaw < 4 := by decide
  obtain ⟨hmf, hfrag⟩ := rawInfo_bits fragOff
  set cpkt := m.overlay (rawFront fid fragOff ++ payload) with hcpkt
  have hread : (Chdr.read cpkt).i = rawInfo fragOff := by
    rw [hcpkt, rawFront, List.append_assoc, Chdr.read_overlay m _ _ ht (rawInfo_lt _)]
  rw [recvRaw]
  simp only [hread, hmf, hfrag]
  by_cases hoff : fragOff &&& fragOffMask ≠ 0
  · have hcell : cpkt.be16 Chdr.len = fragOff &&& fragOffMask := by
      rw [hcpkt, rawFront]
      simp only [if_pos hoff, List.append_assoc]
      exact Mem.be16_overlay m rfl (Chdr.length_bytes _)
    have hfront : (rawFront fid fragOff).length = Chdr.len + 2 := by
      rw [rawFront]
      simp only [if_pos hoff, List.length_append, Chdr.length_bytes]
      rfl
    rw [if_pos hoff, hcell, UInt16.and_assoc, UInt16.and_self, hfront, joinFragOff]
  · have hfront : (rawFront fid fragOff).length = Chdr.len := by
      rw [rawFront]
      simp only [if_neg hoff, List.append_nil, Chdr.length_bytes]
    have hzero : fragOff &&& fragOffMask = 0 := not_not.1 hoff
    rw [if_neg hoff, hfront, joinFragOff, hzero]

variable (h : Paired first flow rflow) (hkey : getSflowKey ippkt = flow.skey) (hraw : IsRaw ippkt)

include h hkey hraw

/-- An IP id that is not zero selects the RAW branch, at both ends. -/
lemma Paired.rawRestored (hid : (IpHdr.read ippkt).id ≠ 0)
    (hmin : IpHdr.len ≤ (IpHdr.read ippkt).totLen.toNat)
    (hmax : (IpHdr.read ippkt).totLen.toNat ≤ maxDataLength) : RawRestored flow rflow ippkt := by
  have hipid : flow.skey.ipid = (IpHdr.read ippkt).id := by rw [← hkey, ipid_getSflowKey hraw]
  have hsame : rflow.hdr.ip.id = (IpHdr.read ippkt).id := by
    obtain ⟨fresh, hhdr⟩ := h.hdr
    have hfirst : (getSflowKey first).ipid ≠ 0 := by rwa [← h.skey, hipid]
    rw [h.ip_id (by rwa [hipid]), hhdr, ← hipid, h.skey, ipid_eq_id hfirst, OrigHdr.read]
  obtain ⟨hsaddr, hdaddr, hproto⟩ := h.addresses hkey
  intro fresh
  obtain ⟨frame, hframe⟩ : ∃ frame, buildRaw flow ippkt = some frame :=
    ⟨_, (buildRaw_eq_some_iff hmax).2 ⟨hmin, rfl⟩⟩
  refine ⟨[frame, frame], frame, ?_, by simp, by simp, fun m => ⟨chdr_buildRaw hframe m, ?_⟩⟩
  · rw [buildCpkt, if_pos (by rwa [hipid]), hframe]
    rfl
  obtain ⟨-, rfl⟩ := (buildRaw_eq_some_iff hmax).1 hframe
  obtain ⟨pkt, iphdr, hpkt, hip, hiphdr, hiphdrId, hfragOff, hbytes⟩ := rebuild_payload m
    { rflow.hdr.ip with fragOff := joinFragOff (IpHdr.read ippkt).fragOff } (fun _ => []) IpHdr.len
    _ hsaddr hdaddr hproto rfl hmin hmax (rawFront_length flow.fid (IpHdr.read ippkt).fragOff) rfl
  rw [recvRaw_frame]
  refine ⟨pkt, hpkt, hip, ?_, ?_, ?_, ?_⟩
  · rw [hiphdr, hiphdrId]
    exact hsame
  · rw [hiphdr, hfragOff]
    exact joinFragOff_mf _
  · rw [hiphdr, hfragOff]
    exact joinFragOff_off _
  · rw [hbytes, ← IpHdr.length_bytes iphdr]
    exact List.drop_left

omit h in
/-- A packet without an IP id goes out as one of another type. -/
lemma RawRestored.id_ne_zero (hrestored : RawRestored flow rflow ippkt) :
    (IpHdr.read ippkt).id ≠ 0 := by
  intro hid
  have hipid : ¬ flow.skey.ipid ≠ 0 := by
    rw [← hkey, ipid_getSflowKey hraw]
    exact not_not.2 hid
  obtain ⟨pkts, frame, hbuild, hne, hsame, hframe⟩ := hrestored ⟨0, Buffer.fill _ 0⟩
  obtain ⟨q, hq⟩ := List.exists_mem_of_ne_nil _ hne
  obtain rfl := hsame q hq
  obtain ⟨htype, -⟩ := hframe fun _ => 0
  rw [buildCpkt, if_neg hipid] at hbuild
  split_ifs at hbuild
  · obtain ⟨tcp, htcp, rfl⟩ := Option.map_eq_some_iff.1 hbuild
    rw [List.mem_singleton.1 hq, chdr_buildTcp htcp] at htype
    exact absurd htype (by decide)
  · obtain ⟨udp, hudp, rfl⟩ := Option.map_eq_some_iff.1 hbuild
    rw [List.mem_singleton.1 hq, chdr_buildUdp hudp] at htype
    exact absurd htype (by decide)
  · -- no branch was taken, and the type is what was in the memory of the packet
    have hbits : (((0 : UInt8) >>> 6) <<< 6 ||| 0 &&& 0x3f) >>> 6 ≠ ctypeFrmRaw := by decide
    obtain rfl := Option.some.inj hbuild
    rw [List.mem_singleton.1 hq] at htype
    exact hbits htype

/-- **RAW packets.**  A fragment, or a packet of another protocol than TCP and UDP, goes out as a
RAW packet, and comes out as it was, if and only if its IP id is not zero. -/
theorem raw_restored_iff (hmin : IpHdr.len ≤ (IpHdr.read ippkt).totLen.toNat)
    (hmax : (IpHdr.read ippkt).totLen.toNat ≤ maxDataLength) :
    RawRestored flow rflow ippkt ↔ (IpHdr.read ippkt).id ≠ 0 :=
  ⟨fun hrestored => hrestored.id_ne_zero hkey hraw,
    fun hid => h.rawRestored hkey hraw hid hmin hmax⟩

end

/-- An ICMP packet with the IP id `id`. -/
def echoPacket (id check : UInt8) : Mem := Mem.overlay (fun _ => 0)
  [0x45, 0x00, 0x00, 0x1c, 0x00, id, 0x00, 0x00, 0x40, 0x01, 0x66, check, 0x0a, 0x00, 0x00, 0x01,
    0x0a, 0x00, 0x00, 0x02, 0x08, 0x00, 0xf7, 0xff, 0x00, 0x00, 0x00, 0x00]

/-- The flow that a packet opens, established. -/
def openedSflow (ippkt : Mem) : Sflow :=
  { newSflow 0 default ippkt compactInit 0 with state := .established }

/-- Its other end. -/
def openedRflow (ippkt : Mem) : Rflow :=
  Compact.newRflow 0 default ⟨myMac, 0⟩
    (Mem.overlay (fun _ => 0) (buildCtl (openedSflow ippkt)).data)

lemma paired_opened (ippkt : Mem) : Paired ippkt (openedSflow ippkt) (openedRflow ippkt) :=
  .opened rfl rfl

theorem raw_restored_iff_echo :
    RawRestored (openedSflow (echoPacket 1 0xde)) (openedRflow (echoPacket 1 0xde))
      (echoPacket 1 0xde) :=
  (raw_restored_iff (paired_opened _) rfl (by decide) (by decide) (by decide)).2
    (by decide)

/-- An ICMP packet with the IP id zero is not restored. -/
theorem raw_not_restored : cannotCompact (echoPacket 0 0xdf) = false ∧ IsRaw (echoPacket 0 0xdf) ∧
    (IpHdr.read (echoPacket 0 0xdf)).totLen = 28 ∧
    Paired (echoPacket 0 0xdf) (openedSflow (echoPacket 0 0xdf)) (openedRflow (echoPacket 0 0xdf)) ∧
    getSflowKey (echoPacket 0 0xdf) = (openedSflow (echoPacket 0 0xdf)).skey ∧
    ¬ RawRestored (openedSflow (echoPacket 0 0xdf)) (openedRflow (echoPacket 0 0xdf))
      (echoPacket 0 0xdf) := by
  have hraw : IsRaw (echoPacket 0 0xdf) := by decide
  refine ⟨by decide +kernel, hraw, by decide, paired_opened _, rfl, fun hrestored => ?_⟩
  exact hrestored.id_ne_zero rfl hraw (by decide)

/-! ## UDP packets -/

/-- The UDP header of a packet. -/
def udpOf (pkt : Bytes) : UdpHdr := UdpHdr.read ((Mem.overlay (fun _ => 0) pkt).drop IpHdr.len)

/-- Also the UDP header and the payload are those of `ippkt`. -/
structure SameUdp (ippkt : Mem) (pkt : Bytes) : Prop where
  ip : SameIp ippkt pkt
  udp : udpOf pkt = UdpHdr.read (ippkt.drop IpHdr.len)
  payload : pkt.drop (IpHdr.len + UdpHdr.size) = payloadOf ippkt (IpHdr.len + UdpHdr.size)

/-- A UDP packet of the flow, that is not a fragment and whose two lengths fit together. -/
structure UdpOfFlow (flow : Sflow) (ippkt : Mem) : Prop where
  key : getSflowKey ippkt = flow.skey
  proto : (IpHdr.read ippkt).protocol = protocolUdp
  whole : ¬ IsRaw ippkt
  len : (UdpHdr.read (ippkt.drop IpHdr.len)).len.toNat = (IpHdr.read ippkt).totLen.toNat - IpHdr.len
  min : UdpHdr.size ≤ (UdpHdr.read (ippkt.drop IpHdr.len)).len.toNat
  max : (IpHdr.read ippkt).totLen.toNat ≤ maxDataLength

/-- The packets go out as UDP packets, and `recv_udp` restores one after the other, whatever memory
they are in. -/
def UdpRestored (flow : Sflow) : Rflow → List Mem → Prop
  | _, [] => True
  | rflow, ippkt :: ippkts => ∀ fresh (m : Mem), ∃ frame rflow' pkt,
      buildCpkt fresh flow ippkt = some [frame] ∧
        (Chdr.read (m.overlay frame.data)).t = ctypeFrmUdp ∧
        recvUdp (m.overlay frame.data) (UInt16.ofNat frame.data.length) rflow =
          some (rflow', pkt) ∧
        SameUdp ippkt pkt ∧ UdpRestored flow rflow' ippkts

/-- A fragment that opens the flow has nothing where the ports of other packets are. -/
def PortsKept (first : Mem) : Prop :=
  IsRaw first → (UdpHdr.read (first.drop IpHdr.len)).source = 0 ∧
    (UdpHdr.read (first.drop IpHdr.len)).dest = 0

/-- What stands before the payload in a UDP packet. -/
def udpFront (fid : UInt8) (check : UInt16) : Bytes :=
  Chdr.bytes { t := ctypeFrmUdp, i := 0, smac := myMac, id := fid } ++ be16 check

section

variable {first : Mem} {flow : Sflow} {rflow : Rflow} {ippkt : Mem}

lemma buildUdp_eq_some_iff {pkt : Pkt} (hmax : (IpHdr.read ippkt).totLen.toNat ≤ maxDataLength) :
    buildUdp flow ippkt = some pkt ↔
      IpHdr.len + UdpHdr.size ≤ (IpHdr.read ippkt).totLen.toNat ∧
        pkt = ⟨udpFront flow.fid (UdpHdr.read (ippkt.drop IpHdr.len)).check ++
          payloadOf ippkt (IpHdr.len + UdpHdr.size), .cpkt flow⟩ :=
  payloadPkt_eq_some_iff (udpFields_length _) hmax

lemma recvUdp_frame (m : Mem) (len : UInt16) (fid : UInt8) (check : UInt16) (payload : Bytes) :
    recvUdp (m.overlay (udpFront fid check ++ payload)) len rflow =
      (rebuild (nextIpId rflow).hdr.ip
        (fun n => UdpHdr.bytes { UdpHdr.read (fun k => rflow.hdr.t.get k 0) with
          check := check, len := UInt16.ofNat (n + UdpHdr.size) })
        UdpHdr.size (m.overlay (udpFront fid check ++ payload)) len
        (udpFront fid check).length).map fun pkt => (nextIpId rflow, pkt) := by
  have hcell : (m.overlay (udpFront fid check ++ payload)).be16 Chdr.len = check := by
    rw [udpFront, List.append_assoc]
    exact Mem.be16_overlay m rfl (Chdr.length_bytes _)
  rw [recvUdp]
  simp only [hcell]
  rfl

lemma udpOf_append (iphdr : IpHdr) (udphdr : UdpHdr) (payload : Bytes) :
    udpOf (iphdr.bytes ++ (udphdr.bytes ++ payload)) = udphdr := by
  rw [udpOf, ← IpHdr.length_bytes iphdr, Mem.drop_overlay, UdpHdr.read_overlay]

/-- The key of a packet that is filed under its ports. -/
lemma key_of_not_isRaw (hwhole : ¬ IsRaw ippkt) :
    (getSflowKey ippkt).ipid = 0 ∧
      (getSflowKey ippkt).sport = (UdpHdr.read (ippkt.drop IpHdr.len)).source ∧
      (getSflowKey ippkt).dport = (UdpHdr.read (ippkt.drop IpHdr.len)).dest := by
  rw [IsRaw] at hwhole
  rw [getSflowKey]
  simp only
  rw [if_neg hwhole]
  split_ifs
  · exact ⟨rfl, rfl, rfl⟩
  · exact ⟨rfl, rfl, rfl⟩

/-- The key of one that is filed under its IP id. -/
lemma ports_of_isRaw (hraw : IsRaw ippkt) :
    (getSflowKey ippkt).sport = 0 ∧ (getSflowKey ippkt).dport = 0 := by
  rw [IsRaw] at hraw
  rw [getSflowKey]
  simp only
  rw [if_pos hraw]
  exact ⟨rfl, rfl⟩

/-- Whether the ports that the flow has kept are those of a later packet. -/
lemma portsKept_iff (hkey : getSflowKey first = getSflowKey ippkt) (hwhole : ¬ IsRaw ippkt) :
    PortsKept first ↔
      (UdpHdr.read (first.drop IpHdr.len)).source = (UdpHdr.read (ippkt.drop IpHdr.len)).source ∧
        (UdpHdr.read (first.drop IpHdr.len)).dest = (UdpHdr.read (ippkt.drop IpHdr.len)).dest := by
  obtain ⟨-, hsport, hdport⟩ := key_of_not_isRaw hwhole
  rw [PortsKept, ← hsport, ← hdport, ← hkey]
  by_cases hraw : IsRaw first
  · obtain ⟨hsport', hdport'⟩ := ports_of_isRaw hraw
    rw [hsport', hdport']
    exact ⟨fun h => h hraw, fun h _ => h⟩
  · obtain ⟨-, hsport', hdport'⟩ := key_of_not_isRaw hraw
    exact iff_of_true (fun h => absurd h hraw) ⟨hsport'.symm, hdport'.symm⟩

/-- One packet: it comes out with the ports that the flow has kept. -/
lemma Paired.udp_step (h : Paired first flow rflow) (hof : UdpOfFlow flow ippkt) (fresh : Fresh)
    (m : Mem) : ∃ frame pkt, buildCpkt fresh flow ippkt = some [frame] ∧
      (Chdr.read (m.overlay frame.data)).t = ctypeFrmUdp ∧
      recvUdp (m.overlay frame.data) (UInt16.ofNat frame.data.length) rflow =
        some (nextIpId rflow, pkt) ∧
      SameIp ippkt pkt ∧
      udpOf pkt = { UdpHdr.read (first.drop IpHdr.len) with
        check := (UdpHdr.read (ippkt.drop IpHdr.len)).check
        len := (UdpHdr.read (ippkt.drop IpHdr.len)).len } ∧
      pkt.drop (IpHdr.len + UdpHdr.size) = payloadOf ippkt (IpHdr.len + UdpHdr.size) := by
  obtain ⟨hkey, hproto, hwhole, hlen, hmin, hmax⟩ := hof
  obtain ⟨hsaddr, hdaddr, hproto'⟩ := h.addresses hkey
  have hfirst : (IpHdr.read first).protocol = protocolUdp := by rw [← h.protocol, hproto', hproto]
  have hnot : (IpHdr.read ippkt).protocol ≠ protocolTcp := by
    rw [hproto]
    decide
  have hipid : ¬ flow.skey.ipid ≠ 0 := by
    rw [← hkey]
    exact not_not.2 (key_of_not_isRaw hwhole).1
  have hfits : IpHdr.len + UdpHdr.size ≤ (IpHdr.read ippkt).totLen.toNat := by
    rw [hlen, UdpHdr.size] at hmin
    rw [UdpHdr.size]
    omega
  obtain ⟨frame, hframe⟩ : ∃ frame, buildUdp flow ippkt = some frame :=
    ⟨_, (buildUdp_eq_some_iff hmax).2 ⟨hfits, rfl⟩⟩
  have htype := chdr_buildUdp hframe m
  have hbuild : buildCpkt fresh flow ippkt = some [frame] := by
    rw [buildCpkt, if_neg hipid, if_neg hnot, if_pos hproto, hframe]
    rfl
  obtain ⟨-, rfl⟩ := (buildUdp_eq_some_iff hmax).1 hframe
  set check := (UdpHdr.read (ippkt.drop IpHdr.len)).check
  obtain ⟨pkt, iphdr, hpkt, hip, hiphdr, -, -, hbytes⟩ := rebuild_payload m (nextIpId rflow).hdr.ip
    (fun n => UdpHdr.bytes { UdpHdr.read (fun k => rflow.hdr.t.get k 0) with
      check := check, len := UInt16.ofNat (n + UdpHdr.size) })
    (IpHdr.len + UdpHdr.size) (udpFront flow.fid check) hsaddr hdaddr hproto' rfl hfits hmax
    (udpFields_length check) rfl
  refine ⟨_, pkt, hbuild, htype, ?_, hip, ?_, ?_⟩
  · rw [recvUdp_frame, hpkt]
    rfl
  · have hudpLen : UInt16.ofNat ((payloadOf ippkt (IpHdr.len + UdpHdr.size)).length + UdpHdr.size) =
        (UdpHdr.read (ippkt.drop IpHdr.len)).len := by
      rw [payloadOf, Mem.length_read, Nat.sub_add_eq, ← hlen, Nat.sub_add_cancel hmin,
        UInt16.ofNat_toNat]
    rw [hbytes, udpOf_append, h.udpHdr hfirst, hudpLen]
  · rw [hbytes, ← List.append_assoc]
    exact List.drop_left' (by rw [List.length_append, IpHdr.length_bytes, UdpHdr.length_bytes])

/-- What comes out has the ports that the flow has kept. -/
lemma Paired.portsKept (h : Paired first flow rflow) (hof : UdpOfFlow flow ippkt)
    {ippkts : List Mem} (hrestored : UdpRestored flow rflow (ippkt :: ippkts)) :
    PortsKept first := by
  obtain ⟨frame, rflow', pkt, hbuild, -, hrecv, hsame, -⟩ := hrestored default fun _ => 0
  obtain ⟨frame', pkt', hbuild', -, hrecv', -, hudp, -⟩ := h.udp_step hof default fun _ => 0
  obtain rfl : frame = frame' := by
    rw [hbuild'] at hbuild
    simpa using hbuild.symm
  obtain rfl : pkt = pkt' := by
    rw [hrecv'] at hrecv
    simpa using (congrArg (Option.map Prod.snd) hrecv).symm
  rw [hsame.udp] at hudp
  exact (portsKept_iff (h.skey.symm.trans hof.key.symm) hof.whole).2
    ⟨(congrArg UdpHdr.source hudp).symm, (congrArg UdpHdr.dest hudp).symm⟩

/-- With these ports one packet after the other is restored. -/
lemma Paired.udpRestored (hkept : PortsKept first) {ippkts : List Mem}
    (hof : ∀ ippkt ∈ ippkts, UdpOfFlow flow ippkt) (h : Paired first flow rflow) :
    UdpRestored flow rflow ippkts := by
  induction ippkts generalizing rflow with
  | nil => trivial
  | cons ippkt ippkts ih =>
    intro fresh m
    have hippkt := hof ippkt List.mem_cons_self
    obtain ⟨frame, pkt, hbuild, htype, hrecv, hip, hudp, hpayload⟩ := h.udp_step hippkt fresh m
    obtain ⟨hsource, hdest⟩ :=
      (portsKept_iff (h.skey.symm.trans hippkt.key.symm) hippkt.whole).1 hkept
    simp only [hsource, hdest] at hudp
    have hframe : recvFrame (m.overlay frame.data) (UInt16.ofNat frame.data.length) rflow =
        some (nextIpId rflow, pkt) := by
      rw [recvFrame, if_neg (by rw [htype]; decide), if_pos htype, hrecv]
    have hnext : Paired first flow (nextIpId rflow) :=
      h.carried ⟨rfl, rfl⟩ hippkt.key hbuild List.mem_cons_self hframe
    exact ⟨frame, nextIpId rflow, pkt, hbuild, htype, hrecv, ⟨hip, hudp, hpayload⟩,
      ih (fun p hp => hof p (List.mem_cons_of_mem _ hp)) hnext⟩

/-- **UDP packets.**  Of a flow with both its ends, whatever packets it has carried, a sequence of
packets that are not fragments is restored if and only if it is empty, or the flow was opened by a
packet that is not a fragment, or by one that has zeros in the place of the ports. -/
theorem udp_restored_iff (h : Paired first flow rflow) {ippkts : List Mem}
    (hof : ∀ ippkt ∈ ippkts, UdpOfFlow flow ippkt) :
    UdpRestored flow rflow ippkts ↔ ippkts = [] ∨ PortsKept first := by
  cases ippkts with
  | nil => exact iff_of_true trivial (.inl rfl)
  | cons ippkt ippkts =>
    refine ⟨fun hrestored => .inr (h.portsKept (hof ippkt List.mem_cons_self) hrestored), ?_⟩
    rintro (hnil | hkept)
    · cases hnil
    · exact h.udpRestored hkept hof

end

/-- Two packets of a flow. -/
theorem udp_restored_iff_ports :
    UdpRestored (openedSflow (portPacket 7 9)) (openedRflow (portPacket 7 9))
      [portPacket 7 9, portPacket 7 9] := by
  refine (udp_restored_iff (paired_opened (portPacket 7 9)) ?_).2
    (.inr fun hraw => absurd hraw (by decide))
  intro ippkt hippkt
  obtain rfl : ippkt = portPacket 7 9 := by simpa using hippkt
  exact ⟨rfl, by decide, by decide, by decide, by decide, by decide⟩

/-- A fragment of a UDP packet, with the IP id zero. -/
def fragmentPacket : Mem := Mem.overlay (fun _ => 0)
  [0x45, 0x00, 0x00, 0x1c, 0x00, 0x00, 0x20, 0x00, 0x40, 0x11, 0x46, 0xcf, 0x0a, 0x00, 0x00, 0x01,
    0x0a, 0x00, 0x00, 0x02, 0x00, 0x07, 0x00, 0x09, 0x00, 0x10, 0x00, 0x00]

/-- A flow that was opened by a fragment gives its ports to other packets. -/
theorem udp_not_restored : cannotCompact fragmentPacket = false ∧
    cannotCompact (portPacket 0 0) = false ∧
    Paired fragmentPacket (openedSflow fragmentPacket) (openedRflow fragmentPacket) ∧
    UdpOfFlow (openedSflow fragmentPacket) (portPacket 0 0) ∧
    ¬ UdpRestored (openedSflow fragmentPacket) (openedRflow fragmentPacket) [portPacket 0 0] := by
  have hof : UdpOfFlow (openedSflow fragmentPacket) (portPacket 0 0) :=
    ⟨by decide, by decide, by decide, by decide, by decide, by decide⟩
  refine ⟨by decide +kernel, by decide +kernel, paired_opened _, hof, fun hrestored => ?_⟩
  obtain ⟨hsource, -⟩ := (paired_opened _).portsKept hof hrestored (by decide)
  exact absurd hsource (by decide)

end Ipcf
