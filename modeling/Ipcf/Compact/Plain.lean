import Ipcf.Compact.Recv
import Ipcf.Compact.Xmit

/-!
# Plain packets and compact packets

Nothing in a packet says whether it is compact.  `recv_compress` takes it for an IP packet when its
first byte reads as version 4 with a header length of at least 5 words, and the checksum over its
first 20 bytes is right; otherwise the same byte is the type and the info bits of a compact header.

No packet that the compressor builds is taken for an IP packet (`neverIpv4_buildCtl` and its
siblings): the only type whose bits can read as version 4 is that of TCP packets, and those always
have the bit for the sequence number.  The other way round it fails.  What `xmit_compress` refuses
to compress goes out as it is, but with as many bytes as its total length says, and a header with
options, a wrong checksum or another version is taken for a compact packet on the other side.
`plain_iff` is the exact condition, and `options_confused` a packet that ends the program of the
peer.
-/

namespace Ipcf

/-! ## The test reads twenty bytes -/

/-- Memories that agree on the first 20 bytes pass the test together. -/
lemma isIpv4_congr {m m' : Mem} (h : ∀ i < IpHdr.len, m i = m' i) : isIpv4 m = isIpv4 m' := by
  have hread : m.read 0 IpHdr.len = m'.read 0 IpHdr.len := by
    apply Mem.read_congr
    intro i hi
    rw [Nat.zero_add]
    exact h i hi
  have hver : (IpHdr.read m).verIhl = (IpHdr.read m').verIhl := h 0 (by decide)
  have hversion : (IpHdr.read m).version = (IpHdr.read m').version := by
    rw [IpHdr.version, hver, IpHdr.version]
  have hihl : (IpHdr.read m).ihl = (IpHdr.read m').ihl := by rw [IpHdr.ihl, hver, IpHdr.ihl]
  rw [isIpv4, hread, hversion, hihl, isIpv4]

/-- In no buffer does a packet with these bytes pass for an IP packet. -/
def NeverIpv4 (data : Bytes) : Prop := ∀ m : Mem, isIpv4 (m.overlay data) = false

/-- The type and the info bits decide. -/
lemma neverIpv4_chdr {t i : UInt8} (smac id : UInt8) (rest : Bytes)
    (h : (t <<< 6 ||| i &&& 0x3f) >>> 4 ≠ 4 ∨ (t <<< 6 ||| i &&& 0x3f) &&& 0xf < 5) :
    NeverIpv4 (Chdr.bytes { t := t, i := i, smac := smac, id := id } ++ rest) := by
  intro m
  set c := t <<< 6 ||| i &&& 0x3f with hc
  have hver : (IpHdr.read (m.overlay (c :: smac :: id :: rest))).verIhl = c := rfl
  change isIpv4 (m.overlay (c :: smac :: id :: rest)) = false
  simp only [isIpv4, IpHdr.version, IpHdr.ihl, hver, Bool.and_eq_false_iff]
  left
  rcases h with h | h
  · left
    simpa using h
  · right
    simpa using h

/-! ## Compact packets -/

lemma neverIpv4_buildCtl (flow : Sflow) : NeverIpv4 (buildCtl flow).data := by
  rw [buildCtl]
  simp only [List.append_assoc]
  exact neverIpv4_chdr _ _ _ (.inl (by decide))

lemma neverIpv4_buildAck (cpkt : Mem) : NeverIpv4 (buildAck cpkt) := by
  rw [buildAck, ← List.append_nil (Chdr.bytes _)]
  exact neverIpv4_chdr _ _ _ (.inl (by decide))

lemma neverIpv4_buildRaw {flow : Sflow} {ippkt : Mem} {pkt : Pkt}
    (h : buildRaw flow ippkt = some pkt) : NeverIpv4 pkt.data := by
  obtain ⟨-, rest, hdata⟩ := payloadPkt_eq_some h
  rw [hdata]
  apply neverIpv4_chdr
  left
  split_ifs <;> decide

/-- The bit for the sequence number is set in every TCP packet. -/
lemma neverIpv4_buildTcp {flow : Sflow} {ippkt : Mem} {pkt : Pkt}
    (h : buildTcp flow ippkt = some pkt) : NeverIpv4 pkt.data := by
  obtain ⟨-, rest, hdata⟩ := payloadPkt_eq_some h
  rw [hdata]
  apply neverIpv4_chdr
  left
  rw [tcpSbits]
  split_ifs <;> decide

lemma neverIpv4_buildUdp {flow : Sflow} {ippkt : Mem} {pkt : Pkt}
    (h : buildUdp flow ippkt = some pkt) : NeverIpv4 pkt.data := by
  obtain ⟨-, rest, hdata⟩ := payloadPkt_eq_some h
  rw [hdata]
  exact neverIpv4_chdr _ _ _ (.inl (by decide))

/-- Without a type the info bits are zero, and so is the header length. -/
lemma neverIpv4_buildBare (fresh : Fresh) (flow : Sflow) :
    NeverIpv4 (buildBare fresh flow).data := by
  have hihl : ∀ c < 256, ((UInt8.ofNat c >>> 6) <<< 6 ||| 0 &&& 0x3f) &&& 0xf < 5 := by
    decide +kernel
  have hpkt := hihl fresh.pkt.toNat fresh.pkt.toNat_lt
  rw [UInt8.ofNat_toNat] at hpkt
  rw [buildBare, ← List.append_nil (Chdr.bytes _)]
  exact neverIpv4_chdr _ _ _ (.inr hpkt)

lemma neverIpv4_buildCpkt {fresh : Fresh} {flow : Sflow} {ippkt : Mem} {pkts : List Pkt} {pkt : Pkt}
    (h : buildCpkt fresh flow ippkt = some pkts) (hpkt : pkt ∈ pkts) : NeverIpv4 pkt.data := by
  rcases buildCpkt_cases h hpkt with h | h | h | rfl
  · exact neverIpv4_buildRaw h
  · exact neverIpv4_buildTcp h
  · exact neverIpv4_buildUdp h
  · exact neverIpv4_buildBare fresh flow

/-! ## Plain packets -/

/-- A packet that is taken for an IP packet is handed on as it is, if it is as long as its header
says. -/
lemma recvCompress_ipv4 {m : Mem} {data : Bytes} (h : isIpv4 (m.overlay data) = true)
    (hlen : (IpHdr.read (m.overlay data)).totLen.toNat = data.length)
    (hmax : data.length ≤ maxDataLength) (now : ℤ) (fresh : Fresh) (len : ℕ) (s : Compact) :
    recvCompress now fresh (m.overlay data) len s = .ok ⟨s, some data, none⟩ := by
  rw [recvCompress, if_pos h, recvUntouchedIp, hlen, if_pos hmax,
    Mem.read_overlay m (Nat.le_refl _), List.take_length]

/-- A control packet yields no IP packet. -/
lemma recvCtl_ippkt {now : ℤ} {fresh : Fresh} {cpkt : Mem} {s : Compact} {d : Decompressed}
    (h : recvCtl now fresh cpkt s = .ok d) : d.ippkt = none := by
  rw [recvCtl] at h
  split_ifs at h
  · cases hget : s.getRflow (getRflowKey (Chdr.read cpkt)) with
    | some rflow =>
      simp only [hget] at h
      cases h
    | none =>
      simp only [hget] at h
      rw [← Except.ok.inj h]
  · cases hget : s.rindex (Chdr.read cpkt).id with
    | some addr =>
      simp only [hget] at h
      rw [← Except.ok.inj h]
    | none =>
      simp only [hget] at h
      rw [← Except.ok.inj h]
  · rw [← Except.ok.inj h]

/-- A packet that is not taken for one yields no IP packet where there is no flow. -/
lemma recvCompress_compact {m : Mem} (h : isIpv4 m = false) {s : Compact}
    (hnone : ∀ k, s.getRflow k = none) {now : ℤ} {fresh : Fresh} {len : ℕ} {d : Decompressed}
    (hd : recvCompress now fresh m len s = .ok d) : d.ippkt = none := by
  rw [recvCompress, if_neg (by rw [h]; exact Bool.false_ne_true)] at hd
  simp only [recvData, hnone] at hd
  split_ifs at hd
  exact recvCtl_ippkt hd

/-- What `xmit_compress` sends without compressing it arrives: the packet that is pushed is the one
of `n` bytes that was read, and the peer, in whatever state, with whatever behind it in the
buffer, hands on just that and touches no flow. -/
def Arrives (ippkt : Mem) (n : ℕ) (pkt : Pkt) : Prop :=
  pkt.data = ippkt.read 0 n ∧
    ∀ (now : ℤ) (fresh : Fresh) (m : Mem) (s : Compact),
      recvCompress now fresh (m.overlay pkt.data) pkt.data.length s =
        .ok ⟨s, some (ippkt.read 0 n), none⟩

section

variable {now : ℤ} {fresh : Fresh} {ippkt : Mem} {s s' : Compact} {pkts : List Pkt} {pkt : Pkt}
  {n : ℕ}

lemma arrives_iff (hpkt : addToPktList ippkt (IpHdr.read ippkt).totLen = some pkt)
    (hmin : IpHdr.len ≤ n) (hmax : n ≤ maxDataLength) :
    Arrives ippkt n pkt ↔ (IpHdr.read ippkt).totLen.toNat = n ∧ isIpv4 ippkt = true := by
  rw [addToPktList] at hpkt
  split_ifs at hpkt
  obtain rfl := Option.some.inj hpkt
  constructor
  · rintro ⟨hdata, hrecv⟩
    have hlen : (IpHdr.read ippkt).totLen.toNat = n := by
      have := congrArg List.length hdata
      simpa using this
    refine ⟨hlen, ?_⟩
    by_contra hnot
    rw [Bool.not_eq_true] at hnot
    simp only [hlen] at hrecv
    have hcompact : isIpv4 (Mem.overlay (fun _ => 0) (ippkt.read 0 n)) = false := by
      rw [← hnot]
      exact isIpv4_congr fun i hi => Mem.overlay_read_apply (Nat.lt_of_lt_of_le hi hmin)
    have hip := recvCompress_compact hcompact Compact.getRflow_compactInit
      (hrecv 0 default (fun _ => 0) compactInit)
    cases hip
  · rintro ⟨hlen, hipv4⟩
    refine ⟨by rw [hlen], fun now fresh m s => ?_⟩
    simp only [hlen]
    have hsame : ∀ i < n, m.overlay (ippkt.read 0 n) i = ippkt i :=
      fun i hi => Mem.overlay_read_apply hi
    have htot : (IpHdr.read (m.overlay (ippkt.read 0 n))).totLen = (IpHdr.read ippkt).totLen := by
      simp only [IpHdr.read, Mem.be16]
      rw [IpHdr.len] at hmin
      rw [hsame 2 (by omega), hsame (2 + 1) (by omega)]
    apply recvCompress_ipv4
    · rw [← hipv4]
      exact isIpv4_congr fun i hi => hsame i (Nat.lt_of_lt_of_le hi hmin)
    · rw [htot, hlen, Mem.length_read]
    · rw [Mem.length_read]
      exact hmax

/-- **Plain and compact packets.**  A packet of `n` bytes that is sent without being compressed
arrives as it is if and only if `n` is its total length and it passes the test for an IP packet:
version 4, at least 5 words of header, and a right checksum over the first 20 bytes.  A compact
packet is never taken for an IP packet. -/
theorem plain_iff (hplain : sendsPlain ippkt s = true) (hmin : IpHdr.len ≤ n)
    (hmax : n ≤ maxDataLength) :
    ((∃ s' pkts pkt, xmitCompress now fresh ippkt s = some (s', pkts) ∧ pkt ∈ pkts ∧
        pkt.builder = .plain ∧ Arrives ippkt n pkt) ↔
      (IpHdr.read ippkt).totLen.toNat = n ∧ (IpHdr.read ippkt).version = 4 ∧
        5 ≤ (IpHdr.read ippkt).ihl ∧ csum (ippkt.read 0 IpHdr.len) = 0) ∧
    (∀ flow, NeverIpv4 (buildCtl flow).data) ∧ (∀ cpkt, NeverIpv4 (buildAck cpkt)) ∧
    ∀ fresh flow ippkt pkts, buildCpkt fresh flow ippkt = some pkts →
      ∀ pkt ∈ pkts, NeverIpv4 pkt.data := by
  refine ⟨?_, neverIpv4_buildCtl, neverIpv4_buildAck, fun _ _ _ _ h _ => neverIpv4_buildCpkt h⟩
  have htest : isIpv4 ippkt = true ↔ (IpHdr.read ippkt).version = 4 ∧
      5 ≤ (IpHdr.read ippkt).ihl ∧ csum (ippkt.read 0 IpHdr.len) = 0 := by
    rw [isIpv4]
    simp only [Bool.and_eq_true, beq_iff_eq, decide_eq_true_eq, ge_iff_le, and_assoc]
  rw [← htest]
  constructor
  · rintro ⟨s', pkts, pkt, hxmit, hmem, hbuilder, harrives⟩
    exact (arrives_iff (plain_of_xmit hxmit hmem hbuilder) hmin hmax).1 harrives
  · intro hgood
    have hpkt : addToPktList ippkt (IpHdr.read ippkt).totLen =
        some ⟨ippkt.read 0 (IpHdr.read ippkt).totLen.toNat, .plain⟩ := by
      rw [addToPktList, if_pos (by rw [hgood.1]; exact hmax)]
    obtain ⟨s', pkts, hxmit, hmem⟩ := xmit_of_sendsPlain hplain hpkt
    exact ⟨s', pkts, _, hxmit, hmem, rfl, (arrives_iff hpkt hmin hmax).2 hgood⟩

end

/-! ## Two packets -/

/-- An IP header with one word of options, and a right checksum over all of its 24 bytes. -/
def optionsPacket : Bytes :=
  [0x46, 0x00, 0x00, 0x18, 0x00, 0x01, 0x00, 0x00, 0x40, 0x01, 0x63, 0xe1, 0x0a, 0x00, 0x00, 0x01,
    0x0a, 0x00, 0x00, 0x02, 0x01, 0x01, 0x01, 0x00]

/-- The packet is sent as it is, and the peer takes it for a TCP packet of a flow it does not
have. -/
theorem options_confused :
    (xmitCompress 0 default (Mem.overlay (fun _ => 0) optionsPacket) compactInit).map Prod.snd =
      some [⟨optionsPacket, .plain⟩] ∧
    fault (recvCompress 0 default (Mem.overlay (fun _ => 0) optionsPacket) 24 compactInit) =
      some .rflow ∧
    ¬ Arrives (Mem.overlay (fun _ => 0) optionsPacket) 24 ⟨optionsPacket, .plain⟩ := by
  refine ⟨by decide +kernel, by decide +kernel, fun harrives => ?_⟩
  have hpkt : addToPktList (Mem.overlay (fun _ => 0) optionsPacket)
      (IpHdr.read (Mem.overlay (fun _ => 0) optionsPacket)).totLen =
        some ⟨optionsPacket, .plain⟩ := by decide +kernel
  have hipv4 := ((arrives_iff hpkt (by decide) (by decide)).1 harrives).2
  revert hipv4
  decide +kernel

/-- An empty UDP packet. -/
def udpPacket : Bytes :=
  [0x45, 0x00, 0x00, 0x1c, 0x00, 0x01, 0x00, 0x00, 0x40, 0x11, 0x66, 0xce, 0x0a, 0x00, 0x00, 0x01,
    0x0a, 0x00, 0x00, 0x02, 0x00, 0x07, 0x00, 0x07, 0x00, 0x08, 0x00, 0x00]

/-- An empty UDP packet from one port to another. -/
def portPacket (sport dport : UInt8) : Mem := Mem.overlay (fun _ => 0)
  [0x45, 0x00, 0x00, 0x1c, 0x00, 0x01, 0x00, 0x00, 0x40, 0x11, 0x66, 0xce, 0x0a, 0x00, 0x00, 0x01,
    0x0a, 0x00, 0x00, 0x02, 0x00, sport, 0x00, dport, 0x00, 0x08, 0x00, 0x00]

/-- The first packet of its flow goes out behind the request, and arrives. -/
theorem plain_iff_udp : ∃ s' pkts pkt,
    xmitCompress 0 default (Mem.overlay (fun _ => 0) udpPacket) compactInit = some (s', pkts) ∧
      pkt ∈ pkts ∧ pkt.builder = .plain ∧ Arrives (Mem.overlay (fun _ => 0) udpPacket) 28 pkt :=
  (plain_iff (by decide +kernel) (by decide) (by decide)).1.2
    ⟨by decide, by decide, by decide, by decide⟩

end Ipcf
