import Ipcf.Compact.Layout
import Ipcf.Framework.Traced
import Ipcf.Split.Frame

/-!
# What the receiver reads of a frame

`recv_compress` again, with the offsets in the frame that it reads: every access to memory behind
`cpkt` is one of the reads of `Traced`, and the values are those of `recvCompress`
(`val_recvCompressT`).

None of its functions looks at the length of the frame before it reads.  So it stays inside the
frame if and only if the frame is as long as what its type and its flags announce, and a plain
packet as long as it says itself, up to the size of the buffer (`stays_inside_iff`).
-/

namespace Ipcf

/-! ## The functions, with what they read -/

section

variable (now : ℤ) (fresh : Fresh) (cpkt : Mem) (len : UInt16) (rflow : Rflow) (s : Compact)

/-- The compact header: `get_rflow_key` reads the last two bytes, the switch the first. -/
def chdrT : Traced Chdr := Traced.load cpkt Chdr.read Chdr.len 0

/-- The test for an IP packet: the checksum is looked at only if the first byte fits. -/
def isIpv4T : Traced Bool := do
  let verIhl ← Traced.byte cpkt 0
  if verIhl >>> 4 == 4 && verIhl &&& 0xf ≥ 5 then do
    let hdr ← Traced.copy cpkt 0 IpHdr.len
    pure (csum hdr == 0)
  else pure false

/-- `recv_untouched_ip` -/
def recvUntouchedIpT : Traced Bytes := do
  let totLen ← Traced.be16 cpkt 2
  Traced.copy cpkt 0 (if totLen.toNat ≤ maxDataLength then totLen.toNat else maxDataLength)

/-- `build_ack` -/
def buildAckT : Traced Bytes := do
  let chdr ← chdrT cpkt
  pure (Chdr.bytes { t := ctypeFrmCtl, i := ctypeCtlAck, smac := chdr.smac, id := chdr.id })

/-- The headers of a new flow. -/
def origHdrT (off : ℕ) : Traced OrigHdr := do
  let iphdr ← Traced.load cpkt IpHdr.read IpHdr.len off
  if iphdr.protocol = protocolTcp then do
    let t ← Traced.copy cpkt (off + IpHdr.len) TcpHdr.len
    pure { ip := iphdr, t := fresh.t.write 0 t }
  else if iphdr.protocol = protocolUdp then do
    let t ← Traced.copy cpkt (off + IpHdr.len) UdpHdr.size
    pure { ip := iphdr, t := fresh.t.write 0 t }
  else pure { ip := iphdr, t := fresh.t }

/-- `build_rflow_by_hash` -/
def buildRflowT (rkey : Rkey) : Traced Compact := do
  let hdr ← origHdrT fresh cpkt Chdr.len
  let chdr ← chdrT cpkt
  pure { s with rflows := s.rflows.insert rkey.hash {
    rkey := rkey, hdr := hdr, fid := chdr.id, softTimeout := softTimeout now } }

/-- The end of the three functions below: the payload is read. -/
def rebuildT (iphdr : IpHdr) (transport : ℕ → Bytes) (size offset : ℕ) : Traced (Option Bytes) := do
  let _ ← Traced.copy cpkt offset (len.toNat - offset)
  pure (rebuild iphdr transport size cpkt len offset)

/-- `recv_tcp` -/
def recvTcpT : Traced (Option (Rflow × Bytes)) := do
  let chdr ← chdrT cpkt
  let rflow := nextIpId rflow
  let tcphdr := TcpHdr.read fun k => rflow.hdr.t.get k 0
  let offset := Chdr.len
  let (tcphdr, offset) ←
    if chdr.i &&& ctypeTcpSbit ≠ 0 then do
      let seq ← Traced.le32 cpkt offset
      pure ({ tcphdr with seq := seq }, offset + 4)
    else pure (tcphdr, offset)
  let (tcphdr, offset) ←
    if chdr.i &&& ctypeTcpAbit ≠ 0 then do
      let ackSeq ← Traced.le32 cpkt offset
      pure ({ tcphdr.setFlag tcpAck true with ackSeq := ackSeq }, offset + 4)
    else pure (tcphdr.setFlag tcpAck false, offset)
  let (tcphdr, offset) ←
    if chdr.i &&& ctypeTcpWbit ≠ 0 then do
      let window ← Traced.be16 cpkt offset
      pure ({ tcphdr with window := window }, offset + 2)
    else pure (tcphdr, offset)
  let sbits := chdr.i &&& ctypeTcpSbmask
  let (tcphdr, offset) ←
    if sbits = 0 ∨ sbits ≥ ctypeTcpUrgsyn then do
      let urgPtr ← Traced.be16 cpkt offset
      pure ({ tcphdr.setFlag tcpUrg true with urgPtr := urgPtr }, offset + 2)
    else pure (tcphdr.setFlag tcpUrg false, offset)
  let check ← Traced.be16 cpkt offset
  let tcphdr := setSbits sbits { tcphdr with check := check }
  let pkt ← rebuildT cpkt len rflow.hdr.ip (fun _ => tcphdr.bytes) TcpHdr.len (offset + 2)
  pure (pkt.map fun pkt => (rflow, pkt))

/-- `recv_udp` -/
def recvUdpT : Traced (Option (Rflow × Bytes)) := do
  let rflow := nextIpId rflow
  let udphdr := UdpHdr.read fun k => rflow.hdr.t.get k 0
  let check ← Traced.be16 cpkt Chdr.len
  let udphdr := { udphdr with check := check }
  let pkt ← rebuildT cpkt len rflow.hdr.ip
    (fun payload => { udphdr with len := UInt16.ofNat (payload + UdpHdr.size) }.bytes)
    UdpHdr.size (Chdr.len + 2)
  pure (pkt.map fun pkt => (rflow, pkt))

/-- `recv_raw` -/
def recvRawT : Traced (Option (Rflow × Bytes)) := do
  let chdr ← chdrT cpkt
  let (fragOff, offset) ←
    if chdr.i &&& ctypeRawFbit ≠ 0 then do
      let fragOff ← Traced.be16 cpkt Chdr.len
      pure (fragOff &&& fragOffMask, Chdr.len + 2)
    else pure (0, Chdr.len)
  let fragOff := if chdr.i &&& ctypeRawMfbit ≠ 0 then fragOff ||| fragFlagMfMask else fragOff
  let pkt ← rebuildT cpkt len { rflow.hdr.ip with fragOff := fragOff } (fun _ => []) 0 offset
  pure (pkt.map fun pkt => (rflow, pkt))

/-- `recv_compress` for a packet of the type `CTYPE_FRM_CTL`. -/
def recvCtlT (chdr : Chdr) : Traced (Except Fault Decompressed) :=
  let rkey := getRflowKey chdr
  if chdr.i = ctypeCtlReq then
    match s.getRflow rkey with
    | some _ => pure (.error .noRflow)
    | none => do
      let s' ← buildRflowT now fresh cpkt s rkey
      let ack ← buildAckT cpkt
      pure (.ok ⟨s', none, some ack⟩)
  else if chdr.i = ctypeCtlAck then
    match s.rindex chdr.id with
    | some addr =>
      pure (.ok ⟨s.setSflow addr fun n => { n with state := .established }, none, none⟩)
    | none => pure (.ok ⟨s, none, none⟩)
  else if chdr.i = ctypeCtlFlt then pure (.ok ⟨s, none, none⟩)
  else pure (.error .unreachable)

/-- `recv_compress` for a packet with data. -/
def recvDataT (rkey : Rkey) (recv : Rflow → Traced (Option (Rflow × Bytes))) :
    Traced (Except Fault Decompressed) :=
  match s.getRflow rkey with
  | none => pure (.error .rflow)
  | some rflow => do
    match ← recv rflow with
    | none => pure (.error .copy)
    | some (rflow', pkt) =>
      pure (.ok ⟨(s.touchRflow now rkey).setRflow rkey fun n => { n with hdr := rflow'.hdr },
        some pkt, none⟩)

/-- `recv_compress` -/
def recvCompressT (len : ℕ) : Traced (Except Fault Decompressed) := do
  if ← isIpv4T cpkt then do
    let pkt ← recvUntouchedIpT cpkt
    pure (.ok ⟨s, some pkt, none⟩)
  else do
    let chdr ← chdrT cpkt
    let rkey := getRflowKey chdr
    let len := UInt16.ofNat len
    if chdr.t = ctypeFrmCtl then recvCtlT now fresh cpkt s chdr
    else if chdr.t = ctypeFrmTcp then recvDataT now s rkey (recvTcpT cpkt len)
    else if chdr.t = ctypeFrmUdp then recvDataT now s rkey (recvUdpT cpkt len)
    else recvDataT now s rkey (recvRawT cpkt len)

/-! ## The values are those of `recvCompress` -/

variable {now fresh cpkt len rflow s}

@[simp] lemma val_chdrT : (chdrT cpkt).val = Chdr.read cpkt := by
  have hdrop : cpkt.drop 0 = cpkt := by
    funext i
    rw [Mem.drop, Nat.zero_add]
  rw [chdrT, Traced.val_load, hdrop]

@[simp] lemma val_isIpv4T : (isIpv4T cpkt).val = isIpv4 cpkt := by
  rw [isIpv4, isIpv4T]
  simp only [Traced.val_bind, Traced.val_ite, Traced.val_pure]
  change (if ((IpHdr.read cpkt).version == 4 && decide ((IpHdr.read cpkt).ihl ≥ 5)) = true
    then csum (cpkt.read 0 IpHdr.len) == 0 else false) = _
  cases (IpHdr.read cpkt).version == 4 && decide ((IpHdr.read cpkt).ihl ≥ 5) <;> rfl

@[simp] lemma val_recvUntouchedIpT : (recvUntouchedIpT cpkt).val = recvUntouchedIp cpkt := rfl

@[simp] lemma val_buildAckT : (buildAckT cpkt).val = buildAck cpkt := by
  simp [buildAckT, buildAck]

lemma val_origHdrT (off : ℕ) :
    (origHdrT fresh cpkt off).val = OrigHdr.read fresh (cpkt.drop off) := by
  have hread : ∀ size, (cpkt.drop off).read IpHdr.len size = cpkt.read (off + IpHdr.len) size := by
    intro size
    simp only [Mem.read, Mem.drop, Nat.add_assoc]
  rw [origHdrT, OrigHdr.read]
  simp only [Traced.val_bind, Traced.val_ite, Traced.val_pure]
  simp only [Traced.val_load, Traced.val_copy, hread]
  by_cases htcp : (IpHdr.read (cpkt.drop off)).protocol = protocolTcp
  · simp only [htcp, if_true]
  · by_cases hudp : (IpHdr.read (cpkt.drop off)).protocol = protocolUdp
    · simp only [hudp, if_true]
      rfl
    · simp only [htcp, hudp, if_false]

@[simp] lemma val_buildRflowT (rkey : Rkey) :
    (buildRflowT now fresh cpkt s rkey).val = s.buildRflow now fresh rkey cpkt := by
  rw [buildRflowT, Compact.buildRflow]
  simp only [Traced.val_bind, Traced.val_pure, val_origHdrT, val_chdrT]

@[simp] lemma val_rebuildT (iphdr : IpHdr) (transport : ℕ → Bytes) (size offset : ℕ) :
    (rebuildT cpkt len iphdr transport size offset).val =
      rebuild iphdr transport size cpkt len offset := rfl

lemma val_recvTcpT : (recvTcpT cpkt len rflow).val = recvTcp cpkt len rflow := by
  rw [recvTcpT, recvTcp]
  simp only [Traced.val_bind, Traced.val_ite, Traced.val_pure]
  simp only [Traced.val_le32, Traced.val_be16, val_chdrT, val_rebuildT]
  split_ifs <;> rfl

lemma val_recvUdpT : (recvUdpT cpkt len rflow).val = recvUdp cpkt len rflow := rfl

lemma val_recvRawT : (recvRawT cpkt len rflow).val =
    (recvRaw cpkt len rflow).map fun pkt => (rflow, pkt) := by
  rw [recvRawT, recvRaw]
  simp only [Traced.val_bind, Traced.val_ite, Traced.val_pure]
  simp only [Traced.val_be16, val_chdrT, val_rebuildT]
  split_ifs <;> rfl

lemma val_recvDataT {rkey : Rkey} {recv : Rflow → Option (Rflow × Bytes)}
    {recvT : Rflow → Traced (Option (Rflow × Bytes))}
    (hrecv : ∀ rflow, (recvT rflow).val = recv rflow) :
    (recvDataT now s rkey recvT).val = recvData now rkey s recv := by
  rw [recvDataT, recvData]
  cases s.getRflow rkey with
  | none => rfl
  | some rflow =>
    simp only [Traced.val_bind, hrecv]
    cases recv rflow <;> rfl

lemma val_recvCtlT :
    (recvCtlT now fresh cpkt s (Chdr.read cpkt)).val = recvCtl now fresh cpkt s := by
  rw [recvCtlT, recvCtl]
  simp only [Traced.val_ite]
  split_ifs
  · cases s.getRflow (getRflowKey (Chdr.read cpkt)) with
    | none => simp only [Traced.val_bind, Traced.val_pure, val_buildRflowT, val_buildAckT]
    | some rflow => rfl
  · cases s.rindex (Chdr.read cpkt).id <;> rfl
  · rfl
  · rfl

/-- The two are one function. -/
lemma val_recvCompressT (len : ℕ) :
    (recvCompressT now fresh cpkt s len).val = recvCompress now fresh cpkt len s := by
  rw [recvCompressT, recvCompress]
  simp only [Traced.val_bind, Traced.val_ite, Traced.val_pure]
  simp only [val_isIpv4T, val_chdrT, val_recvUntouchedIpT]
  split_ifs
  · rfl
  · exact val_recvCtlT
  · exact val_recvDataT fun _ => val_recvTcpT
  · exact val_recvDataT fun _ => val_recvUdpT
  · exact val_recvDataT fun _ => val_recvRawT

/-! ## How much is read -/

variable {n : ℕ}

/-- The first byte is that of an IP header. -/
def versionFits (cpkt : Mem) : Bool := (IpHdr.read cpkt).version == 4 && (IpHdr.read cpkt).ihl ≥ 5

/-- The length of the transport header that a request carries. -/
def protocolSize (protocol : UInt8) : ℕ :=
  if protocol = protocolTcp then TcpHdr.len
  else if protocol = protocolUdp then UdpHdr.size
  else 0

lemma inside_chdrT : Traced.Inside n (chdrT cpkt) ↔ Chdr.len ≤ n := by
  rw [chdrT, Traced.inside_load (by decide), Nat.zero_add]

lemma inside_isIpv4T : Traced.Inside n (isIpv4T cpkt) ↔
    0 < n ∧ (versionFits cpkt = true → IpHdr.len ≤ n) := by
  rw [isIpv4T, Traced.inside_bind, Traced.inside_byte, Traced.val_byte]
  change _ ∧ Traced.Inside n (if versionFits cpkt = true then _ else _) ↔ _
  rw [Traced.inside_ite]
  refine and_congr_right fun _ => ?_
  split_ifs with hfits
  · simp [hfits, IpHdr.len]
  · simp [hfits]

lemma inside_recvUntouchedIpT : Traced.Inside n (recvUntouchedIpT cpkt) ↔
    4 ≤ n ∧ min (IpHdr.read cpkt).totLen.toNat maxDataLength ≤ n := by
  rw [recvUntouchedIpT, Traced.inside_bind, Traced.inside_be16, Traced.inside_copy, Traced.val_be16]
  change _ ∧ (min (IpHdr.read cpkt).totLen.toNat maxDataLength = 0 ∨
    0 + min (IpHdr.read cpkt).totLen.toNat maxDataLength ≤ n) ↔ _
  omega

lemma inside_buildAckT : Traced.Inside n (buildAckT cpkt) ↔ Chdr.len ≤ n := by
  simp only [buildAckT, Traced.inside_bind, Traced.inside_pure, inside_chdrT, and_true]

lemma inside_origHdrT (off : ℕ) : Traced.Inside n (origHdrT fresh cpkt off) ↔
    off + IpHdr.len + protocolSize (IpHdr.read (cpkt.drop off)).protocol ≤ n := by
  rw [origHdrT, Traced.inside_bind, Traced.val_load, Traced.inside_load (by decide), protocolSize]
  simp only [Traced.inside_ite, Traced.inside_bind, Traced.inside_copy, Traced.inside_pure,
    and_true]
  split_ifs
  · simp only [TcpHdr.len]
    omega
  · simp only [UdpHdr.size]
    omega
  · simp

lemma inside_buildRflowT (rkey : Rkey) : Traced.Inside n (buildRflowT now fresh cpkt s rkey) ↔
    Chdr.len + IpHdr.len + protocolSize (IpHdr.read (cpkt.drop Chdr.len)).protocol ≤ n := by
  simp only [buildRflowT, Traced.inside_bind, Traced.inside_pure, inside_chdrT, inside_origHdrT,
    and_true]
  omega

lemma inside_rebuildT (iphdr : IpHdr) (transport : ℕ → Bytes) (size offset : ℕ) :
    Traced.Inside len.toNat (rebuildT cpkt len iphdr transport size offset) := by
  rw [rebuildT, Traced.inside_bind, Traced.inside_copy]
  exact ⟨by omega, Traced.inside_pure _⟩

lemma inside_recvTcpT : Traced.Inside len.toNat (recvTcpT cpkt len rflow) ↔
    tcpOffset (Chdr.read cpkt).i ≤ len.toNat := by
  rw [recvTcpT, Traced.inside_bind, val_chdrT, inside_chdrT, tcpOffset]
  simp only [Traced.inside_ite, Traced.inside_bind, Traced.val_pure, Traced.inside_pure,
    Traced.inside_le32, Traced.inside_be16, inside_rebuildT, and_true, true_and]
  split_ifs <;> omega

lemma inside_recvUdpT : Traced.Inside len.toNat (recvUdpT cpkt len rflow) ↔
    Chdr.len + 2 ≤ len.toNat := by
  simp only [recvUdpT, Traced.inside_bind, Traced.inside_pure, Traced.inside_be16, inside_rebuildT,
    and_true]

lemma inside_recvRawT : Traced.Inside len.toNat (recvRawT cpkt len rflow) ↔
    rawOffset (Chdr.read cpkt).i ≤ len.toNat := by
  rw [recvRawT, Traced.inside_bind, val_chdrT, inside_chdrT, rawOffset]
  simp only [Traced.inside_ite, Traced.inside_bind, Traced.val_pure, Traced.inside_pure,
    Traced.inside_be16, inside_rebuildT, and_true]
  split_ifs with hfrag
  · exact and_iff_right_of_imp fun h => by omega
  · rw [and_true]

lemma inside_recvFrameT (cpkt : Mem) (len : UInt16) (rflow : Rflow) :
    (if (Chdr.read cpkt).t = ctypeFrmTcp then Traced.Inside len.toNat (recvTcpT cpkt len rflow)
      else if (Chdr.read cpkt).t = ctypeFrmUdp then
        Traced.Inside len.toNat (recvUdpT cpkt len rflow)
      else Traced.Inside len.toNat (recvRawT cpkt len rflow)) ↔
    frameOffset (Chdr.read cpkt) ≤ len.toNat := by
  rw [frameOffset]
  split_ifs
  · exact inside_recvTcpT
  · exact inside_recvUdpT
  · exact inside_recvRawT

lemma inside_recvDataT {rkey : Rkey} {recv : Rflow → Traced (Option (Rflow × Bytes))}
    (hget : s.getRflow rkey = some rflow) :
    Traced.Inside n (recvDataT now s rkey recv) ↔ Traced.Inside n (recv rflow) := by
  rw [recvDataT, hget, Traced.inside_bind, and_iff_left_iff_imp]
  rintro -
  cases (recv rflow).val <;> exact Traced.inside_pure _

lemma inside_recvCtlT {chdr : Chdr} (hinfo : chdr.i = ctypeCtlReq)
    (hget : s.getRflow (getRflowKey chdr) = none) :
    Traced.Inside n (recvCtlT now fresh cpkt s chdr) ↔
      Chdr.len + IpHdr.len + protocolSize (IpHdr.read (cpkt.drop Chdr.len)).protocol ≤ n := by
  simp only [recvCtlT, if_pos hinfo, hget, Traced.inside_bind, Traced.inside_pure,
    inside_buildRflowT, inside_buildAckT, and_true]
  omega

/-! ## The frames that are decompressed -/

/-- The frames with which `recv_compress` gets to one of the functions above. -/
inductive Handled (cpkt : Mem) (s : Compact) : Prop
  | ipv4 (hipv4 : isIpv4 cpkt = true)
  | req (hipv4 : isIpv4 cpkt = false) (htype : (Chdr.read cpkt).t = ctypeFrmCtl)
      (hinfo : (Chdr.read cpkt).i = ctypeCtlReq)
      (hget : s.getRflow (getRflowKey (Chdr.read cpkt)) = none)
  | data {rflow : Rflow} (hipv4 : isIpv4 cpkt = false) (htype : (Chdr.read cpkt).t ≠ ctypeFrmCtl)
      (hget : s.getRflow (getRflowKey (Chdr.read cpkt)) = some rflow)

/-- The length of what the frame announces. -/
def neededLen (cpkt : Mem) : ℕ :=
  if isIpv4 cpkt then max IpHdr.len (min (IpHdr.read cpkt).totLen.toNat maxDataLength)
  else max (if versionFits cpkt then IpHdr.len else 0)
    (if (Chdr.read cpkt).t = ctypeFrmCtl then
      Chdr.len + IpHdr.len + protocolSize (IpHdr.read (cpkt.drop Chdr.len)).protocol
    else frameOffset (Chdr.read cpkt))

/-- The bytes that are read are those of the frame, no copy leaves the array of the packet, and the
packets that are made fit into it. -/
structure StaysInside (now : ℤ) (fresh : Fresh) (cpkt : Mem) (len : ℕ) (s : Compact) : Prop where
  reads : Traced.Inside len (recvCompressT now fresh cpkt s len)
  copies : fault (recvCompress now fresh cpkt len s) ≠ some .copy
  lengths : ∀ d, recvCompress now fresh cpkt len s = .ok d →
    (∀ pkt ∈ d.ippkt, pkt.length ≤ maxDataLength) ∧ ∀ pkt ∈ d.sendBack, pkt.length ≤ maxDataLength

lemma Chdr.len_le_frameOffset (chdr : Chdr) : Chdr.len ≤ frameOffset chdr := by
  rw [frameOffset, tcpOffset, rawOffset]
  split_ifs <;> omega

lemma toNat_ofNat_len {len : ℕ} (hlen : len ≤ linkMtu) : (UInt16.ofNat len).toNat = len :=
  UInt16.toNat_ofNat_of_lt' (by rw [linkMtu] at hlen; rw [UInt16.size]; omega)

/-- **What is read.** -/
lemma inside_recvCompressT {len : ℕ} (hlen : len ≤ linkMtu) (hhandled : Handled cpkt s) :
    Traced.Inside len (recvCompressT now fresh cpkt s len) ↔ neededLen cpkt ≤ len := by
  have hfits : isIpv4 cpkt = true → versionFits cpkt = true := fun hipv4 =>
    (Bool.and_eq_true_iff.1 hipv4).1
  have hword := toNat_ofNat_len hlen
  simp only [recvCompressT, Traced.inside_bind, Traced.inside_ite, inside_isIpv4T, val_isIpv4T,
    inside_chdrT, val_chdrT, neededLen]
  cases hhandled with
  | ipv4 hipv4 =>
    simp only [hipv4, hfits hipv4, if_true, Traced.inside_pure, inside_recvUntouchedIpT, and_true,
      forall_const, IpHdr.len]
    omega
  | req hipv4 htype hinfo hget =>
    simp only [hipv4, htype, if_true, Bool.false_eq_true, if_false, inside_recvCtlT hinfo hget]
    split_ifs with hversion
    · simp only [hversion, forall_const, Chdr.len, IpHdr.len]
      omega
    · simp only [hversion, Chdr.len, IpHdr.len]
      omega
  | data hipv4 htype hget =>
    have hoffset := Chdr.len_le_frameOffset (Chdr.read cpkt)
    have hframe := inside_recvFrameT cpkt (UInt16.ofNat len) ‹Rflow›
    rw [hword] at hframe
    simp only [hipv4, htype, Bool.false_eq_true, if_false, inside_recvDataT hget, hframe, Chdr.len,
      IpHdr.len] at hoffset ⊢
    split_ifs with hversion
    · simp only [hversion, forall_const]
      omega
    · simp only [hversion, Bool.false_eq_true, false_imp_iff, and_true]
      omega

/-- A copy from within the frame makes a packet, and it fits into the array. -/
lemma recvFrame_ok {len : UInt16} (rflow : Rflow) (hlen : len.toNat ≤ linkMtu)
    (hoffset : frameOffset (Chdr.read cpkt) ≤ len.toNat) :
    ∃ pkt, recvFrame cpkt len rflow = some (flowAfter (Chdr.read cpkt) rflow, pkt) ∧
      pkt.length ≤ maxDataLength := by
  obtain ⟨transport, htransport, heq⟩ := recvFrame_eq cpkt len rflow
  have hsize : transportSize (Chdr.read cpkt) ≤ TcpHdr.len := by
    rw [transportSize]
    split_ifs <;> decide
  have hfits : IpHdr.len + transportSize (Chdr.read cpkt) +
      (len.toNat - frameOffset (Chdr.read cpkt)) ≤ maxDataLength := by
    simp only [linkMtu, TcpHdr.len, IpHdr.len, maxDataLength] at hlen hsize ⊢
    omega
  rw [heq, rebuild, if_neg (Nat.not_lt.2 hoffset)]
  simp only [if_pos hfits]
  refine ⟨_, rfl, ?_⟩
  rw [List.length_append, List.length_append, IpHdr.length_bytes, htransport, Mem.length_read]
  exact hfits

lemma staysInside_of_ok {len : ℕ} {d : Decompressed}
    (hreads : Traced.Inside len (recvCompressT now fresh cpkt s len))
    (hok : recvCompress now fresh cpkt len s = .ok d)
    (hippkt : ∀ pkt ∈ d.ippkt, pkt.length ≤ maxDataLength)
    (hsendBack : ∀ pkt ∈ d.sendBack, pkt.length ≤ maxDataLength) :
    StaysInside now fresh cpkt len s where
  reads := hreads
  copies := by
    rw [hok, fault]
    exact (Option.some_ne_none _).symm
  lengths := by
    intro d' hok'
    rw [hok] at hok'
    cases hok'
    exact ⟨hippkt, hsendBack⟩

/-- **Decompression stays inside a frame that is as long as it announces, and inside no other.** -/
theorem stays_inside_iff {len : ℕ} (hlen : len ≤ linkMtu) (hhandled : Handled cpkt s) :
    StaysInside now fresh cpkt len s ↔ neededLen cpkt ≤ len := by
  refine ⟨fun h => (inside_recvCompressT hlen hhandled).1 h.reads, fun hneeded => ?_⟩
  have hreads : Traced.Inside len (recvCompressT now fresh cpkt s len) :=
    (inside_recvCompressT hlen hhandled).2 hneeded
  cases hhandled with
  | ipv4 hipv4 =>
    refine staysInside_of_ok hreads (by rw [recvCompress, if_pos hipv4]) ?_ (by simp)
    rintro pkt ⟨⟩
    rw [recvUntouchedIp, Mem.length_read]
    exact min_le_right _ _
  | req hipv4 htype hinfo hget =>
    refine staysInside_of_ok hreads
      (by simp only [recvCompress, hipv4, Bool.false_eq_true, if_false, htype, if_true, recvCtl,
        hinfo, hget]; rfl) (by simp) ?_
    rintro pkt ⟨⟩
    rw [buildAck, Chdr.length_bytes]
    decide
  | @data rflow hipv4 htype hget =>
    have hoffset : frameOffset (Chdr.read cpkt) ≤ (UInt16.ofNat len).toNat := by
      simp only [neededLen, hipv4, Bool.false_eq_true, if_false, htype] at hneeded
      rw [toNat_ofNat_len hlen]
      exact (le_max_right _ _).trans hneeded
    obtain ⟨pkt, hrecv, hpkt⟩ :=
      recvFrame_ok rflow (by rwa [toNat_ofNat_len hlen]) hoffset
    refine staysInside_of_ok hreads
      (by rw [recvCompress_recvFrame hipv4 htype, recvData, hget]; simp only [hrecv]; rfl) ?_
      (by simp)
    rintro pkt' ⟨⟩
    exact hpkt

end

/-- A request from 192.168.1.1 to 192.168.1.2, of 31 bytes. -/
def udpRequest : Mem := Mem.overlay (fun _ => 0) ([0x01, 1, 0] ++
  [0x45, 0, 0, 29, 0, 1, 0, 0, 64, 17, 0, 0, 192, 168, 1, 1, 192, 168, 1, 2] ++
  [0, 7, 0, 9, 0, 9, 0, 0])

/-- The flow tables after the request. -/
def requested : Compact := compactInit.buildRflow 0 default ⟨1, 0⟩ udpRequest

/-- A UDP frame, and the same cut off behind its compact header. -/
def udpFrame : Mem := Mem.overlay (fun _ => 0) [0x80, 1, 0, 0, 0, 7]

lemma getRflow_requested : (requested.getRflow ⟨1, 0⟩).isSome = true := by
  rw [requested, Compact.keyed_compactInit.getRflow_buildRflow (Compact.getRflow_compactInit _),
    if_pos rfl]
  rfl

lemma handled_udpFrame : Handled udpFrame requested := by
  obtain ⟨rflow, hget⟩ := Option.isSome_iff_exists.1 getRflow_requested
  exact .data (by decide +kernel) (by decide +kernel) hget

/-- A request, and a frame with a byte of payload on its flow. -/
theorem stays_inside_request : StaysInside 0 default udpRequest 31 compactInit ∧
    StaysInside 0 default udpFrame 6 requested :=
  ⟨(stays_inside_iff (by decide) (.req (by decide +kernel) (by decide +kernel) (by decide +kernel)
    (Compact.getRflow_compactInit _))).2 (by decide +kernel),
  (stays_inside_iff (by decide) handled_udpFrame).2 (by decide +kernel)⟩

/-- Of the frame without its checksum, bytes behind the end are read, and -2 bytes are copied. -/
theorem cut_frame_read : 3 ≤ linkMtu ∧ Handled udpFrame requested ∧
    3 ∈ (recvCompressT 0 default udpFrame requested 3).reads ∧
    fault (recvCompress 0 default udpFrame 3 requested) = some .copy ∧
    ¬ StaysInside 0 default udpFrame 3 requested := by
  have hfault : fault (recvCompress 0 default udpFrame 3 requested) = some .copy := by
    decide +kernel
  exact ⟨by decide, handled_udpFrame, by decide +kernel, hfault, fun h => h.copies hfault⟩

end Ipcf
