import Ipcf.Compact.Restore

/-!
# TCP packets restored

`build_cpkt` puts the flags of a TCP packet into three bits, and one more for `ack`; `recv_tcp` sets
six flags from these and leaves the other two as they were in the packet that opened the flow.  What
it writes is `decodeTcp`, whatever it reads (`recvTcp_eq`).

The three bits have no code for a packet without flags: it is that of `urg` alone, and a packet that
is a mere acknowledgement comes out with `urg` set, if it comes out at all, since an urgent pointer
is read that is not there.  `tcp_restored_iff` is when a packet comes out as it was.
-/

namespace Ipcf

/-! ## What `recv_tcp` makes of the bits -/

/-- `recv_tcp` reads an urgent pointer. -/
def ReadsUrg (i : UInt8) : Prop :=
  i &&& ctypeTcpSbmask = 0 ∨ i &&& ctypeTcpSbmask ≥ ctypeTcpUrgsyn

instance (i : UInt8) : Decidable (ReadsUrg i) := inferInstanceAs (Decidable (_ ∨ _))

/-- The header with the flags that `recv_tcp` sets. -/
def decodeFlags (i : UInt8) (tcphdr : TcpHdr) : TcpHdr :=
  setSbits (i &&& ctypeTcpSbmask)
    ((tcphdr.setFlag tcpAck (i &&& ctypeTcpAbit ≠ 0)).setFlag tcpUrg (ReadsUrg i))

/-- Where the window is. -/
def windowOffset (i : UInt8) : ℕ :=
  if i &&& ctypeTcpAbit ≠ 0 then Chdr.len + 4 + 4 else Chdr.len + 4

/-- Where the checksum is. -/
def checkOffset (i : UInt8) : ℕ :=
  if ReadsUrg i then windowOffset i + 2 + 2 else windowOffset i + 2

/-- The header that `recv_tcp` writes. -/
def decodeTcp (i : UInt8) (cpkt : Mem) (tcphdr : TcpHdr) : TcpHdr where
  source := tcphdr.source
  dest := tcphdr.dest
  seq := cpkt.le32 Chdr.len
  ackSeq := if i &&& ctypeTcpAbit ≠ 0 then cpkt.le32 (Chdr.len + 4) else tcphdr.ackSeq
  off := tcphdr.off
  flags := (decodeFlags i tcphdr).flags
  window := cpkt.be16 (windowOffset i)
  check := cpkt.be16 (checkOffset i)
  urgPtr := if ReadsUrg i then cpkt.be16 (windowOffset i + 2) else tcphdr.urgPtr

lemma recvTcp_eq {cpkt : Mem} {i : UInt8} (hi : (Chdr.read cpkt).i = i)
    (hseq : i &&& ctypeTcpSbit ≠ 0) (hwindow : i &&& ctypeTcpWbit ≠ 0) (len : UInt16)
    (rflow : Rflow) :
    recvTcp cpkt len rflow =
      (rebuild (nextIpId rflow).hdr.ip
        (fun _ => (decodeTcp i cpkt (TcpHdr.read fun k => rflow.hdr.t.get k 0)).bytes)
        TcpHdr.len cpkt len (checkOffset i + 2)).map fun pkt => (nextIpId rflow, pkt) := by
  rw [recvTcp]
  have ht : (nextIpId rflow).hdr.t = rflow.hdr.t := rfl
  simp only [hi, ht, if_pos hseq, if_pos hwindow]
  obtain ⟨source, dest, seq, ackSeq, off, flags, window, check, urgPtr⟩ :=
    TcpHdr.read fun k => rflow.hdr.t.get k 0
  have hcheck : checkOffset i =
      if ReadsUrg i then windowOffset i + 2 + 2 else windowOffset i + 2 := rfl
  by_cases hack : i &&& ctypeTcpAbit ≠ 0
  · have hoff : windowOffset i = Chdr.len + 4 + 4 := if_pos hack
    by_cases hurg : ReadsUrg i
    · rw [hcheck, decodeTcp, decodeFlags, hcheck, hoff, if_pos hurg, if_pos hurg, if_pos hack,
        decide_eq_true hack, decide_eq_true hurg]
      rw [ReadsUrg] at hurg
      simp only [if_pos hack, if_pos hurg]
      rfl
    · rw [hcheck, decodeTcp, decodeFlags, hcheck, hoff, if_neg hurg, if_neg hurg, if_pos hack,
        decide_eq_true hack, decide_eq_false hurg]
      rw [ReadsUrg] at hurg
      simp only [if_pos hack, if_neg hurg]
      rfl
  · have hoff : windowOffset i = Chdr.len + 4 := if_neg hack
    by_cases hurg : ReadsUrg i
    · rw [hcheck, decodeTcp, decodeFlags, hcheck, hoff, if_pos hurg, if_pos hurg, if_neg hack,
        decide_eq_false hack, decide_eq_true hurg]
      rw [ReadsUrg] at hurg
      simp only [if_neg hack, if_pos hurg]
      rfl
    · rw [hcheck, decodeTcp, decodeFlags, hcheck, hoff, if_neg hurg, if_neg hurg, if_neg hack,
        decide_eq_false hack, decide_eq_false hurg]
      rw [ReadsUrg] at hurg
      simp only [if_neg hack, if_neg hurg]
      rfl

/-! ## The flags -/

section

variable {mask : UInt8} {tcphdr tcphdr' : TcpHdr}

/-- A flag that is set or cleared leaves the others as they are. -/
lemma setFlag_keeps {flag : UInt8} (h : flag &&& mask = 0) (tcphdr : TcpHdr) (b : Bool) :
    (tcphdr.setFlag flag b).flags &&& mask = tcphdr.flags &&& mask := by
  have hbit : ∀ i, (flag.toBitVec.getLsbD i && mask.toBitVec.getLsbD i) = false := by
    intro i
    simpa using congrArg (fun x : UInt8 => x.toBitVec.getLsbD i) h
  apply UInt8.toBitVec_inj.1
  apply BitVec.eq_of_getLsbD_eq
  intro i hi
  have hi := hbit i
  cases b <;> simp [TcpHdr.setFlag] <;> grind

/-- It is the same afterwards in any two headers. -/
lemma setFlag_congr (h : tcphdr.flags &&& mask = tcphdr'.flags &&& mask) (flag : UInt8) (b : Bool) :
    (tcphdr.setFlag flag b).flags &&& (mask ||| flag) =
      (tcphdr'.setFlag flag b).flags &&& (mask ||| flag) := by
  have hbit : ∀ i, (tcphdr.flags.toBitVec.getLsbD i && mask.toBitVec.getLsbD i) =
      (tcphdr'.flags.toBitVec.getLsbD i && mask.toBitVec.getLsbD i) := by
    intro i
    simpa using congrArg (fun x : UInt8 => x.toBitVec.getLsbD i) h
  apply UInt8.toBitVec_inj.1
  apply BitVec.eq_of_getLsbD_eq
  intro i hi
  have hi := hbit i
  cases b <;> simp [TcpHdr.setFlag] <;> grind

end

/-- Two of the flags are not touched. -/
lemma decodeFlags_high (i : UInt8) (tcphdr : TcpHdr) :
    (decodeFlags i tcphdr).flags &&& 0xc0 = tcphdr.flags &&& 0xc0 := by
  rw [decodeFlags, setSbits, setFlag_keeps (by decide), setFlag_keeps (by decide),
    setFlag_keeps (by decide), setFlag_keeps (by decide), setFlag_keeps (by decide),
    setFlag_keeps (by decide)]

/-- The other six are what the bits say, whatever they were. -/
lemma decodeFlags_low (i : UInt8) (tcphdr tcphdr' : TcpHdr) :
    (decodeFlags i tcphdr).flags &&& 0x3f = (decodeFlags i tcphdr').flags &&& 0x3f := by
  have hmask : (0x3f : UInt8) =
      0 ||| tcpAck ||| tcpUrg ||| tcpSyn ||| tcpFin ||| tcpPsh ||| tcpRst := by decide
  have hnone : tcphdr.flags &&& 0 = tcphdr'.flags &&& 0 := by
    rw [UInt8.and_zero, UInt8.and_zero]
  rw [hmask]
  exact setFlag_congr (setFlag_congr (setFlag_congr (setFlag_congr (setFlag_congr
    (setFlag_congr hnone _ _) _ _) _ _) _ _) _ _) _ _

lemma flags_ext_iff (f g : UInt8) : f = g ↔ f &&& 0xc0 = g &&& 0xc0 ∧ f &&& 0x3f = g &&& 0x3f := by
  have hsplit : ∀ f < 256, UInt8.ofNat f &&& 0xc0 ||| UInt8.ofNat f &&& 0x3f = UInt8.ofNat f := by
    decide +kernel
  have hf := hsplit f.toNat f.toNat_lt
  have hg := hsplit g.toNat g.toNat_lt
  rw [UInt8.ofNat_toNat] at hf hg
  constructor
  · rintro rfl
    exact ⟨rfl, rfl⟩
  · rintro ⟨hhigh, hlow⟩
    rw [← hf, ← hg, hhigh, hlow]

/-- With `urg` the three bits have a code for one of `syn`, `fin` and `psh`, or none of them, and
not for `rst`; without it for exactly one of these four. -/
def OneFlag (tcphdr : TcpHdr) : Prop :=
  if tcphdr.has tcpUrg then tcphdr.flags &&& 0x0f ∈ [0, tcpSyn, tcpFin, tcpPsh]
  else tcphdr.flags &&& 0x0f ∈ [tcpSyn, tcpFin, tcpPsh, tcpRst]

instance (tcphdr : TcpHdr) : Decidable (OneFlag tcphdr) := inferInstanceAs (Decidable (ite _ _ _))

/-- The code, for each of the 256 combinations of flags. -/
lemma decode_tcpInfo (tcphdr : TcpHdr) :
    ((decodeFlags (tcpInfo tcphdr) tcphdr).flags &&& 0x3f = tcphdr.flags &&& 0x3f ↔
        OneFlag tcphdr) ∧
      (OneFlag tcphdr → (ReadsUrg (tcpInfo tcphdr) ↔ tcphdr.has tcpUrg = true)) := by
  have htable : ∀ f < 256, ∀ tcphdr, tcphdr = (⟨0, 0, 0, 0, 0, UInt8.ofNat f, 0, 0, 0⟩ : TcpHdr) →
      ((decodeFlags (tcpInfo tcphdr) tcphdr).flags &&& 0x3f = tcphdr.flags &&& 0x3f ↔
          OneFlag tcphdr) ∧
        (OneFlag tcphdr → (ReadsUrg (tcpInfo tcphdr) ↔ tcphdr.has tcpUrg = true)) := by
    simp only [forall_eq]
    decide +kernel
  have hflags := htable tcphdr.flags.toNat tcphdr.flags.toNat_lt _ rfl
  rw [UInt8.ofNat_toNat] at hflags
  exact hflags

/-- What `recv_tcp` makes of the flags, in a flow that keeps the header `stored`. -/
lemma flags_decodeFlags_iff (stored tcphdr : TcpHdr) :
    (decodeFlags (tcpInfo tcphdr) stored).flags = tcphdr.flags ↔
      stored.flags &&& 0xc0 = tcphdr.flags &&& 0xc0 ∧ OneFlag tcphdr := by
  rw [flags_ext_iff, decodeFlags_high, decodeFlags_low _ stored tcphdr, (decode_tcpInfo tcphdr).1]

/-! ## The frame -/

/-- What stands before the payload in a TCP packet. -/
def tcpFront (fid : UInt8) (tcphdr : TcpHdr) : Bytes :=
  Chdr.bytes { t := ctypeFrmTcp, i := tcpInfo tcphdr, smac := myMac, id := fid } ++
    (le32 tcphdr.seq ++ (if tcphdr.has tcpAck then le32 tcphdr.ackSeq else []) ++
      be16 tcphdr.window ++ (if tcphdr.has tcpUrg then be16 tcphdr.urgPtr else []) ++
      be16 tcphdr.check)

lemma buildTcp_eq_some_iff {flow : Sflow} {ippkt : Mem} {pkt : Pkt}
    (hmax : (IpHdr.read ippkt).totLen.toNat ≤ maxDataLength) :
    buildTcp flow ippkt = some pkt ↔
      IpHdr.len + TcpHdr.len ≤ (IpHdr.read ippkt).totLen.toNat ∧
        pkt = ⟨tcpFront flow.fid (TcpHdr.read (ippkt.drop IpHdr.len)) ++
          payloadOf ippkt (IpHdr.len + TcpHdr.len), .cpkt flow⟩ :=
  payloadPkt_eq_some_iff (tcpFields_length _) hmax

lemma tcpFront_length (fid : UInt8) (tcphdr : TcpHdr) :
    (tcpFront fid tcphdr).length ≤ IpHdr.len + TcpHdr.len := by
  rw [tcpFront, List.length_append, Chdr.length_bytes, Nat.add_comm]
  exact tcpFields_length _

section

variable (m : Mem) (fid : UInt8) (tcphdr : TcpHdr) (payload : Bytes)

lemma tcpInfo_bits : tcpInfo tcphdr &&& ctypeTcpSbit ≠ 0 ∧ tcpInfo tcphdr &&& ctypeTcpWbit ≠ 0 ∧
    (tcpInfo tcphdr &&& ctypeTcpAbit ≠ 0 ↔ tcphdr.has tcpAck = true) := by
  rw [tcpInfo, tcpSbits]
  by_cases hack : tcphdr.has tcpAck = true
  · rw [if_pos hack, iff_true_right hack]
    split_ifs <;> decide
  · rw [if_neg hack, iff_false_right hack]
    split_ifs <;> decide

lemma chdr_tcpFront : Chdr.read (m.overlay (tcpFront fid tcphdr ++ payload)) =
    { t := ctypeFrmTcp, i := tcpInfo tcphdr, smac := myMac, id := fid } := by
  have ht : ctypeFrmTcp < 4 := by decide
  rw [tcpFront, List.append_assoc]
  exact Chdr.read_overlay m _ _ ht (tcpInfo_lt _) _

/-- What stands before the window in a TCP packet. -/
def tcpHead (fid : UInt8) (tcphdr : TcpHdr) : Bytes :=
  Chdr.bytes { t := ctypeFrmTcp, i := tcpInfo tcphdr, smac := myMac, id := fid } ++
    (le32 tcphdr.seq ++ (if tcphdr.has tcpAck then le32 tcphdr.ackSeq else []))

/-- The urgent pointer of a TCP packet, if there is one. -/
def tcpUrgField (tcphdr : TcpHdr) : Bytes :=
  if tcphdr.has tcpUrg then be16 tcphdr.urgPtr else []

lemma tcpFront_eq : tcpFront fid tcphdr ++ payload =
    tcpHead fid tcphdr ++ (be16 tcphdr.window ++ (tcpUrgField tcphdr ++
      (be16 tcphdr.check ++ payload))) := by
  simp only [tcpFront, tcpHead, tcpUrgField, List.append_assoc]

lemma length_tcpHead : (tcpHead fid tcphdr).length = windowOffset (tcpInfo tcphdr) := by
  simp only [tcpHead, windowOffset, (tcpInfo_bits tcphdr).2.2]
  split_ifs <;> rfl

section

variable (hurg : ReadsUrg (tcpInfo tcphdr) ↔ tcphdr.has tcpUrg = true)

include hurg

lemma checkOffset_tcpInfo : checkOffset (tcpInfo tcphdr) =
    windowOffset (tcpInfo tcphdr) + 2 + (tcpUrgField tcphdr).length := by
  simp only [checkOffset, tcpUrgField, hurg]
  split_ifs <;> rfl

lemma length_tcpFront_eq : (tcpFront fid tcphdr).length = checkOffset (tcpInfo tcphdr) + 2 := by
  rw [← List.append_nil (tcpFront fid tcphdr), tcpFront_eq, checkOffset_tcpInfo tcphdr hurg,
    ← length_tcpHead fid]
  simp only [List.length_append, length_be16, List.length_nil]
  omega

end

/-! The fields, as they stand in a buffer that begins with the packet. -/

section

variable {cpkt : Mem} (hcpkt : cpkt = m.overlay (tcpFront fid tcphdr ++ payload))

include hcpkt

lemma cell_seq : cpkt.le32 Chdr.len = tcphdr.seq := by
  have hsplit : tcpFront fid tcphdr ++ payload =
      Chdr.bytes { t := ctypeFrmTcp, i := tcpInfo tcphdr, smac := myMac, id := fid } ++
        (le32 tcphdr.seq ++ ((if tcphdr.has tcpAck then le32 tcphdr.ackSeq else []) ++
          (be16 tcphdr.window ++ (tcpUrgField tcphdr ++ (be16 tcphdr.check ++ payload))))) := by
    simp only [tcpFront, tcpUrgField, List.append_assoc]
  rw [hcpkt]
  exact Mem.le32_overlay m hsplit rfl

lemma cell_ackSeq (hack : tcphdr.has tcpAck = true) :
    cpkt.le32 (Chdr.len + 4) = tcphdr.ackSeq := by
  have hsplit : tcpFront fid tcphdr ++ payload =
      (Chdr.bytes { t := ctypeFrmTcp, i := tcpInfo tcphdr, smac := myMac, id := fid } ++
        le32 tcphdr.seq) ++ (le32 tcphdr.ackSeq ++ (be16 tcphdr.window ++
          (tcpUrgField tcphdr ++ (be16 tcphdr.check ++ payload)))) := by
    simp only [tcpFront, tcpUrgField, if_pos hack, List.append_assoc]
  rw [hcpkt]
  exact Mem.le32_overlay m hsplit rfl

lemma cell_window : cpkt.be16 (windowOffset (tcpInfo tcphdr)) = tcphdr.window := by
  rw [hcpkt]
  exact Mem.be16_overlay m (tcpFront_eq ..) (length_tcpHead ..)

lemma cell_urgPtr (hbit : tcphdr.has tcpUrg = true) :
    cpkt.be16 (windowOffset (tcpInfo tcphdr) + 2) = tcphdr.urgPtr := by
  have hsplit : tcpFront fid tcphdr ++ payload =
      (tcpHead fid tcphdr ++ be16 tcphdr.window) ++ (be16 tcphdr.urgPtr ++
        (be16 tcphdr.check ++ payload)) := by
    rw [tcpFront_eq, tcpUrgField, if_pos hbit, List.append_assoc]
  rw [hcpkt]
  apply Mem.be16_overlay m hsplit
  rw [List.length_append, length_tcpHead]
  rfl

lemma cell_check (hurg : ReadsUrg (tcpInfo tcphdr) ↔ tcphdr.has tcpUrg = true) :
    cpkt.be16 (checkOffset (tcpInfo tcphdr)) = tcphdr.check := by
  have hsplit : tcpFront fid tcphdr ++ payload =
      (tcpHead fid tcphdr ++ be16 tcphdr.window ++ tcpUrgField tcphdr) ++
        (be16 tcphdr.check ++ payload) := by
    rw [tcpFront_eq, List.append_assoc, List.append_assoc]
  rw [hcpkt]
  apply Mem.be16_overlay m hsplit
  rw [List.length_append, List.length_append, length_tcpHead, checkOffset_tcpInfo tcphdr hurg]
  rfl

end

/-- What `recv_tcp` reads, if it reads an urgent pointer only where there is one. -/
lemma decodeTcp_frame (hurg : ReadsUrg (tcpInfo tcphdr) ↔ tcphdr.has tcpUrg = true)
    (stored : TcpHdr) :
    checkOffset (tcpInfo tcphdr) + 2 = (tcpFront fid tcphdr).length ∧
      decodeTcp (tcpInfo tcphdr) (m.overlay (tcpFront fid tcphdr ++ payload)) stored =
        { source := stored.source
          dest := stored.dest
          seq := tcphdr.seq
          ackSeq := if tcphdr.has tcpAck then tcphdr.ackSeq else stored.ackSeq
          off := stored.off
          flags := (decodeFlags (tcpInfo tcphdr) stored).flags
          window := tcphdr.window
          check := tcphdr.check
          urgPtr := if tcphdr.has tcpUrg then tcphdr.urgPtr else stored.urgPtr } := by
  refine ⟨(length_tcpFront_eq fid tcphdr hurg).symm, ?_⟩
  set cpkt := m.overlay (tcpFront fid tcphdr ++ payload) with hcpkt
  rw [decodeTcp, cell_seq m fid tcphdr payload hcpkt, cell_window m fid tcphdr payload hcpkt,
    cell_check m fid tcphdr payload hcpkt hurg]
  simp only [(tcpInfo_bits tcphdr).2.2, hurg]
  congr 1
  · split_ifs with hack
    · exact cell_ackSeq m fid tcphdr payload hcpkt hack
    · rfl
  · split_ifs with hbit
    · exact cell_urgPtr m fid tcphdr payload hcpkt hbit
    · rfl

end

/-! ## What comes out -/

/-- The TCP header of a packet. -/
def tcpOf (pkt : Bytes) : TcpHdr := TcpHdr.read ((Mem.overlay (fun _ => 0) pkt).drop IpHdr.len)

/-- Also the TCP header, as far as it is in use, and the payload are those of `ippkt`. -/
structure SameTcp (ippkt : Mem) (pkt : Bytes) : Prop where
  ip : SameIp ippkt pkt
  source : (tcpOf pkt).source = (TcpHdr.read (ippkt.drop IpHdr.len)).source
  dest : (tcpOf pkt).dest = (TcpHdr.read (ippkt.drop IpHdr.len)).dest
  seq : (tcpOf pkt).seq = (TcpHdr.read (ippkt.drop IpHdr.len)).seq
  flags : (tcpOf pkt).flags = (TcpHdr.read (ippkt.drop IpHdr.len)).flags
  window : (tcpOf pkt).window = (TcpHdr.read (ippkt.drop IpHdr.len)).window
  check : (tcpOf pkt).check = (TcpHdr.read (ippkt.drop IpHdr.len)).check
  ackSeq : (TcpHdr.read (ippkt.drop IpHdr.len)).has tcpAck = true →
    (tcpOf pkt).ackSeq = (TcpHdr.read (ippkt.drop IpHdr.len)).ackSeq
  urgPtr : (TcpHdr.read (ippkt.drop IpHdr.len)).has tcpUrg = true →
    (tcpOf pkt).urgPtr = (TcpHdr.read (ippkt.drop IpHdr.len)).urgPtr
  payload : pkt.drop (IpHdr.len + TcpHdr.len) = payloadOf ippkt (IpHdr.len + TcpHdr.len)

/-- A TCP packet of the flow, that is not a fragment. -/
structure TcpOfFlow (flow : Sflow) (ippkt : Mem) : Prop where
  key : getSflowKey ippkt = flow.skey
  proto : (IpHdr.read ippkt).protocol = protocolTcp
  whole : ¬ IsRaw ippkt
  min : IpHdr.len + TcpHdr.len ≤ (IpHdr.read ippkt).totLen.toNat
  max : (IpHdr.read ippkt).totLen.toNat ≤ maxDataLength

/-- The packet goes out as a TCP packet, and `recv_tcp` restores it, whatever memory they are in. -/
def TcpRestored (flow : Sflow) (rflow : Rflow) (ippkt : Mem) : Prop :=
  ∀ fresh (m : Mem), ∃ frame rflow' pkt, buildCpkt fresh flow ippkt = some [frame] ∧
    (Chdr.read (m.overlay frame.data)).t = ctypeFrmTcp ∧
    recvTcp (m.overlay frame.data) (UInt16.ofNat frame.data.length) rflow = some (rflow', pkt) ∧
    SameTcp ippkt pkt

lemma tcpOf_append (iphdr : IpHdr) (tcphdr : TcpHdr) (payload : Bytes) :
    tcpOf (iphdr.bytes ++ (tcphdr.bytes ++ payload)) = tcphdr := by
  rw [tcpOf, ← IpHdr.length_bytes iphdr, Mem.drop_overlay, TcpHdr.read_overlay]

lemma tcpOf_rebuild {ip : IpHdr} {tcphdr : TcpHdr} {size off : ℕ} {cpkt : Mem} {len : UInt16}
    {pkt : Bytes} (h : rebuild ip (fun _ => tcphdr.bytes) size cpkt len off = some pkt) :
    tcpOf pkt = tcphdr := by
  rw [rebuild] at h
  simp only at h
  split_ifs at h
  rw [← Option.some.inj h, List.append_assoc, tcpOf_append]

section

variable {first : Mem} {flow : Sflow} {rflow : Rflow} {ippkt : Mem}

lemma TcpOfFlow.buildCpkt (hof : TcpOfFlow flow ippkt) (fresh : Fresh) :
    buildCpkt fresh flow ippkt = some
      [⟨tcpFront flow.fid (TcpHdr.read (ippkt.drop IpHdr.len)) ++
        payloadOf ippkt (IpHdr.len + TcpHdr.len), .cpkt flow⟩] := by
  have hipid : ¬ flow.skey.ipid ≠ 0 := by
    rw [← hof.key]
    exact not_not.2 (key_of_not_isRaw hof.whole).1
  rw [Ipcf.buildCpkt, if_neg hipid, if_pos hof.proto,
    (buildTcp_eq_some_iff hof.max).2 ⟨hof.min, rfl⟩]
  rfl

/-- What `recv_tcp` makes of it, as far as it can be said of every packet. -/
lemma Paired.recvTcp_front (h : Paired first flow rflow) (hof : TcpOfFlow flow ippkt) (m : Mem)
    (len : UInt16) (payload : Bytes) :
    recvTcp (m.overlay (tcpFront flow.fid (TcpHdr.read (ippkt.drop IpHdr.len)) ++ payload)) len
        rflow =
      (rebuild (nextIpId rflow).hdr.ip
        (fun _ => (decodeTcp (tcpInfo (TcpHdr.read (ippkt.drop IpHdr.len)))
          (m.overlay (tcpFront flow.fid (TcpHdr.read (ippkt.drop IpHdr.len)) ++ payload))
          (TcpHdr.read (first.drop IpHdr.len))).bytes)
        TcpHdr.len (m.overlay (tcpFront flow.fid (TcpHdr.read (ippkt.drop IpHdr.len)) ++ payload))
        len (checkOffset (tcpInfo (TcpHdr.read (ippkt.drop IpHdr.len))) + 2)).map
          fun pkt => (nextIpId rflow, pkt) := by
  obtain ⟨hseq, hwindow, -⟩ := tcpInfo_bits (TcpHdr.read (ippkt.drop IpHdr.len))
  have hfirst : (IpHdr.read first).protocol = protocolTcp := by
    rw [← h.protocol, (h.addresses hof.key).2.2, hof.proto]
  rw [recvTcp_eq (congrArg Chdr.i (chdr_tcpFront m _ _ payload)) hseq hwindow, h.tcpHdr hfirst]

/-- What comes out has the ports and two of the flags that the flow has kept, and one code for the
others. -/
lemma Paired.tcp_kept (h : Paired first flow rflow) (hof : TcpOfFlow flow ippkt)
    (hrestored : TcpRestored flow rflow ippkt) :
    PortsKept first ∧ (TcpHdr.read (first.drop IpHdr.len)).flags &&& 0xc0 =
        (TcpHdr.read (ippkt.drop IpHdr.len)).flags &&& 0xc0 ∧
      OneFlag (TcpHdr.read (ippkt.drop IpHdr.len)) := by
  obtain ⟨frame, rflow', pkt, hbuild, -, hrecv, hsame⟩ := hrestored default fun _ => 0
  rw [hof.buildCpkt] at hbuild
  obtain rfl := List.singleton_injective (Option.some.inj hbuild)
  rw [h.recvTcp_front hof] at hrecv
  obtain ⟨pkt', hpkt', heq⟩ := Option.map_eq_some_iff.1 hrecv
  obtain rfl := (Prod.mk.inj heq).2
  have htcp := tcpOf_rebuild hpkt'
  have hsource := hsame.source
  have hdest := hsame.dest
  have hflags := hsame.flags
  rw [htcp] at hsource hdest hflags
  exact ⟨(portsKept_iff (h.skey.symm.trans hof.key.symm) hof.whole).2 ⟨hsource, hdest⟩,
    (flags_decodeFlags_iff _ _).1 hflags⟩

/-- With these, a code for the flags, and thus the urgent pointer where it is, the packet is
restored. -/
lemma Paired.tcpRestored (h : Paired first flow rflow) (hof : TcpOfFlow flow ippkt)
    (hports : PortsKept first)
    (hhigh : (TcpHdr.read (first.drop IpHdr.len)).flags &&& 0xc0 =
      (TcpHdr.read (ippkt.drop IpHdr.len)).flags &&& 0xc0)
    (hone : OneFlag (TcpHdr.read (ippkt.drop IpHdr.len))) : TcpRestored flow rflow ippkt := by
  intro fresh m
  obtain ⟨hsaddr, hdaddr, hproto⟩ := h.addresses hof.key
  obtain ⟨hsource, hdest⟩ :=
    (portsKept_iff (h.skey.symm.trans hof.key.symm) hof.whole).1 hports
  have hflags := (flags_decodeFlags_iff _ _).2 ⟨hhigh, hone⟩
  have htype := congrArg Chdr.t (chdr_tcpFront m flow.fid (TcpHdr.read (ippkt.drop IpHdr.len))
    (payloadOf ippkt (IpHdr.len + TcpHdr.len)))
  obtain ⟨hoffset, hdecode⟩ := decodeTcp_frame m flow.fid _
    (payloadOf ippkt (IpHdr.len + TcpHdr.len)) ((decode_tcpInfo _).2 hone)
    (TcpHdr.read (first.drop IpHdr.len))
  set tcphdr := TcpHdr.read (ippkt.drop IpHdr.len) with htcphdr
  set decoded := decodeTcp (tcpInfo tcphdr)
    (m.overlay (tcpFront flow.fid tcphdr ++ payloadOf ippkt (IpHdr.len + TcpHdr.len)))
    (TcpHdr.read (first.drop IpHdr.len)) with hdecoded
  obtain ⟨pkt, iphdr, hpkt, hip, hiphdr, -, -, hbytes⟩ := rebuild_payload m (nextIpId rflow).hdr.ip
    (fun _ => decoded.bytes) (IpHdr.len + TcpHdr.len) (tcpFront flow.fid tcphdr) hsaddr hdaddr
    hproto rfl hof.min hof.max (tcpFront_length _ _) rfl
  have htcp : tcpOf pkt = decoded := by rw [hbytes, tcpOf_append]
  refine ⟨_, nextIpId rflow, pkt, hof.buildCpkt fresh, htype, ?_, ?_⟩
  · rw [h.recvTcp_front hof, hoffset, ← htcphdr, ← hdecoded, hpkt]
    rfl
  refine ⟨hip, ?_, ?_, ?_, ?_, ?_, ?_, ?_, ?_, ?_⟩
  · rw [htcp, hdecode]
    exact hsource
  · rw [htcp, hdecode]
    exact hdest
  · rw [htcp, hdecode]
  · rw [htcp, hdecode]
    exact hflags
  · rw [htcp, hdecode]
  · rw [htcp, hdecode]
  · intro hack
    rw [htcp, hdecode]
    exact if_pos hack
  · intro hurg
    rw [htcp, hdecode]
    exact if_pos hurg
  · rw [hbytes, ← List.append_assoc]
    exact List.drop_left' (by rw [List.length_append, IpHdr.length_bytes, TcpHdr.length_bytes])

/-- **TCP packets.**  Of a flow with both its ends, whatever packets it has carried, a packet that
is not a fragment is restored if and only if the flow was opened by a packet that is not a fragment
or has zeros in the place of the ports, that packet agrees with it in the flags `ece` and `cwr`, and
its other flags, without `ack`, are one of `syn`, `fin`, `psh` and `rst`, or `urg` with at most one
of the first three. -/
theorem tcp_restored_iff (h : Paired first flow rflow) (hof : TcpOfFlow flow ippkt) :
    TcpRestored flow rflow ippkt ↔
      PortsKept first ∧ (TcpHdr.read (first.drop IpHdr.len)).flags &&& 0xc0 =
          (TcpHdr.read (ippkt.drop IpHdr.len)).flags &&& 0xc0 ∧
        OneFlag (TcpHdr.read (ippkt.drop IpHdr.len)) :=
  ⟨h.tcp_kept hof, fun ⟨hports, hhigh, hone⟩ => h.tcpRestored hof hports hhigh hone⟩

end

/-- An empty TCP packet. -/
def tcpPacket (flags check : UInt8) : Mem := Mem.overlay (fun _ => 0)
  [0x45, 0x00, 0x00, 0x28, 0x00, 0x01, 0x00, 0x00, 0x40, 0x06, 0x66, 0xcd, 0x0a, 0x00, 0x00, 0x01,
    0x0a, 0x00, 0x00, 0x02, 0x00, 0x07, 0x00, 0x09, 0x00, 0x00, 0x00, 0x01, 0x00, 0x00, 0x00, 0x01,
    0x50, flags, 0x10, 0x00, 0x8b, check, 0x00, 0x00]

def synPacket : Mem := tcpPacket 0x02 0xce

/-- Sets `fin` and `ack`. -/
def finPacket : Mem := tcpPacket 0x11 0xbf

/-- Sets `ack` alone. -/
def ackPacket : Mem := tcpPacket 0x10 0xc0

theorem tcp_restored_iff_fin :
    TcpRestored (openedSflow synPacket) (openedRflow synPacket) finPacket :=
  (tcp_restored_iff (paired_opened synPacket) ⟨by decide, by decide, by decide, by decide,
    by decide⟩).2 ⟨fun hraw => absurd hraw (by decide), by decide, by decide⟩

/-- A mere acknowledgement is not restored. -/
theorem tcp_not_restored : cannotCompact synPacket = false ∧ cannotCompact ackPacket = false ∧
    Paired synPacket (openedSflow synPacket) (openedRflow synPacket) ∧
    TcpOfFlow (openedSflow synPacket) ackPacket ∧
    ¬ TcpRestored (openedSflow synPacket) (openedRflow synPacket) ackPacket := by
  have hof : TcpOfFlow (openedSflow synPacket) ackPacket :=
    ⟨by decide, by decide, by decide, by decide, by decide⟩
  refine ⟨by decide +kernel, by decide +kernel, paired_opened _, hof, fun hrestored => ?_⟩
  obtain ⟨-, -, hone⟩ := (paired_opened _).tcp_kept hof hrestored
  exact absurd hone (by decide)

end Ipcf
