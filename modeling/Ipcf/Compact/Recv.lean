import Ipcf.Compact.Flow

/-!
# Decompressing

`recv_compress` and the functions that rebuild a packet.  Besides the state, the result is the IP
packet to be written to the tun device, if there is one, and the packet to be sent back.

What ends the program is a `Fault`: an assertion that fails, or a copy that leaves the array of the
packet, among them those of a negative length.
-/

namespace Ipcf

/-- What ends the program in `recv_compress`: `assert(rflow)`, `assert(!rflow)`, `assert(0)`, and
a copy out of bounds. -/
inductive Fault
  | rflow
  | noRflow
  | unreachable
  | copy
deriving DecidableEq

/-- The state, `*ippkt` and `*send_back_pkt`. -/
structure Decompressed where
  s : Compact
  ippkt : Option Bytes
  sendBack : Option Bytes

/-- The fault, if there is one. -/
def fault : Except Fault Decompressed → Option Fault
  | .error f => some f
  | .ok _ => none

/-- `recv_untouched_ip` -/
def recvUntouchedIp (ippkt : Mem) : Bytes :=
  let totLen := (IpHdr.read ippkt).totLen.toNat
  ippkt.read 0 (if totLen ≤ maxDataLength then totLen else maxDataLength)

/-- `build_ack` -/
def buildAck (cpkt : Mem) : Bytes :=
  let chdr := Chdr.read cpkt
  let ctlHdr : Chdr := { t := ctypeFrmCtl, i := ctypeCtlAck, smac := chdr.smac, id := chdr.id }
  ctlHdr.bytes

/-- The end of the three functions below: the headers, and behind them what follows the first
`offset` bytes of the compact packet. -/
def rebuild (iphdr : IpHdr) (transport : ℕ → Bytes) (size : ℕ) (cpkt : Mem) (len : UInt16)
    (offset : ℕ) : Option Bytes :=
  if len.toNat < offset then none
  else
    let pktLen := IpHdr.len + size + (len.toNat - offset)
    if pktLen ≤ maxDataLength then
      let iphdr := { iphdr with totLen := UInt16.ofNat pktLen, check := 0 }
      let sum := csum iphdr.bytes
      some ({ iphdr with check := ofBe16 sum.toUInt8 (UInt8.ofNat (sum.toNat / 256)) }.bytes ++
        transport (len.toNat - offset) ++ cpkt.read offset (len.toNat - offset))
    else none

/-- The IP header of a flow with the next id. -/
def nextIpId (rflow : Rflow) : Rflow :=
  { rflow with hdr := { rflow.hdr with ip := { rflow.hdr.ip with id := rflow.hdr.ip.id + 1 } } }

/-- The flags that `recv_tcp` sets for the low bits of `i`, besides `ack` and `urg`. -/
def setSbits (sbits : UInt8) (tcphdr : TcpHdr) : TcpHdr :=
  (((tcphdr.setFlag tcpSyn (sbits == ctypeTcpSyn || sbits == ctypeTcpUrgsyn)).setFlag tcpFin
      (sbits == ctypeTcpFin || sbits == ctypeTcpUrgfin)).setFlag tcpPsh
      (sbits == ctypeTcpPsh || sbits == ctypeTcpUrgpsh)).setFlag tcpRst (sbits == ctypeTcpRst)

/-- `recv_tcp`: the flow and the packet. -/
def recvTcp (cpkt : Mem) (len : UInt16) (rflow : Rflow) : Option (Rflow × Bytes) :=
  let i := (Chdr.read cpkt).i
  let rflow := nextIpId rflow
  let tcphdr := TcpHdr.read fun k => rflow.hdr.t.get k 0
  let offset := Chdr.len
  let (tcphdr, offset) :=
    if i &&& ctypeTcpSbit ≠ 0 then ({ tcphdr with seq := cpkt.le32 offset }, offset + 4)
    else (tcphdr, offset)
  let (tcphdr, offset) :=
    if i &&& ctypeTcpAbit ≠ 0 then
      ({ tcphdr.setFlag tcpAck true with ackSeq := cpkt.le32 offset }, offset + 4)
    else (tcphdr.setFlag tcpAck false, offset)
  let (tcphdr, offset) :=
    if i &&& ctypeTcpWbit ≠ 0 then ({ tcphdr with window := cpkt.be16 offset }, offset + 2)
    else (tcphdr, offset)
  let sbits := i &&& ctypeTcpSbmask
  let (tcphdr, offset) :=
    if sbits = 0 ∨ sbits ≥ ctypeTcpUrgsyn then
      ({ tcphdr.setFlag tcpUrg true with urgPtr := cpkt.be16 offset }, offset + 2)
    else (tcphdr.setFlag tcpUrg false, offset)
  let tcphdr := setSbits sbits { tcphdr with check := cpkt.be16 offset }
  (rebuild rflow.hdr.ip (fun _ => tcphdr.bytes) TcpHdr.len cpkt len (offset + 2)).map
    fun pkt => (rflow, pkt)

/-- `recv_udp`: the flow and the packet. -/
def recvUdp (cpkt : Mem) (len : UInt16) (rflow : Rflow) : Option (Rflow × Bytes) :=
  let rflow := nextIpId rflow
  let udphdr := UdpHdr.read fun k => rflow.hdr.t.get k 0
  let udphdr := { udphdr with check := cpkt.be16 Chdr.len }
  (rebuild rflow.hdr.ip
    (fun payload => { udphdr with len := UInt16.ofNat (payload + UdpHdr.size) }.bytes)
    UdpHdr.size cpkt len (Chdr.len + 2)).map fun pkt => (rflow, pkt)

/-- `recv_raw`: the packet; the flow keeps its IP id. -/
def recvRaw (cpkt : Mem) (len : UInt16) (rflow : Rflow) : Option Bytes :=
  let i := (Chdr.read cpkt).i
  let (fragOff, offset) :=
    if i &&& ctypeRawFbit ≠ 0 then (cpkt.be16 Chdr.len &&& fragOffMask, Chdr.len + 2)
    else (0, Chdr.len)
  let fragOff := if i &&& ctypeRawMfbit ≠ 0 then fragOff ||| fragFlagMfMask else fragOff
  rebuild { rflow.hdr.ip with fragOff := fragOff } (fun _ => []) 0 cpkt len offset

/-- The test of `recv_compress` for an IP packet: a version, a header length, and a checksum over
the 20 bytes of a header without options. -/
def isIpv4 (cpkt : Mem) : Bool :=
  let iphdr := IpHdr.read cpkt
  iphdr.version == 4 && iphdr.ihl ≥ 5 && csum (cpkt.read 0 IpHdr.len) == 0

/-- `recv_compress` for a compact packet of the type `CTYPE_FRM_CTL`. -/
def recvCtl (now : ℤ) (fresh : Fresh) (cpkt : Mem) (s : Compact) : Except Fault Decompressed :=
  let chdr := Chdr.read cpkt
  let rkey := getRflowKey chdr
  if chdr.i = ctypeCtlReq then
    match s.getRflow rkey with
    | some _ => .error .noRflow
    | none => .ok ⟨s.buildRflow now fresh rkey cpkt, none, some (buildAck cpkt)⟩
  else if chdr.i = ctypeCtlAck then
    match s.rindex chdr.id with
    | some addr => .ok ⟨s.setSflow addr fun n => { n with state := .established }, none, none⟩
    | none => .ok ⟨s, none, none⟩
  else if chdr.i = ctypeCtlFlt then .ok ⟨s, none, none⟩
  else .error .unreachable

/-- `recv_compress` for a compact packet with data: the receive flow is touched, and `recv` makes
the packet. -/
def recvData (now : ℤ) (rkey : Rkey) (s : Compact) (recv : Rflow → Option (Rflow × Bytes)) :
    Except Fault Decompressed :=
  match s.getRflow rkey with
  | none => .error .rflow
  | some rflow =>
    match recv rflow with
    | none => .error .copy
    | some (rflow', pkt) =>
      .ok ⟨(s.touchRflow now rkey).setRflow rkey fun n => { n with hdr := rflow'.hdr }, some pkt,
        none⟩

/-- `recv_compress` -/
def recvCompress (now : ℤ) (fresh : Fresh) (cpkt : Mem) (len : ℕ) (s : Compact) :
    Except Fault Decompressed :=
  if isIpv4 cpkt then .ok ⟨s, some (recvUntouchedIp cpkt), none⟩
  else
    let chdr := Chdr.read cpkt
    let rkey := getRflowKey chdr
    let len := UInt16.ofNat len
    if chdr.t = ctypeFrmCtl then recvCtl now fresh cpkt s
    else if chdr.t = ctypeFrmTcp then recvData now rkey s (recvTcp cpkt len)
    else if chdr.t = ctypeFrmUdp then recvData now rkey s (recvUdp cpkt len)
    else recvData now rkey s fun rflow => (recvRaw cpkt len rflow).map fun pkt => (rflow, pkt)

/-! ## What `recv_compress` can do -/

section

variable (now : ℤ) (fresh : Fresh) (cpkt : Mem) (s : Compact)

/-- All that `recv_compress` can do when it returns: hand on an IP packet; make a receive flow and
acknowledge it; establish the send flow of an acknowledgement, if there is one; nothing; or touch
the receive flow of the packet, change its headers and make a packet. -/
inductive Decoded : Decompressed → Prop
  | ipv4 (hipv4 : isIpv4 cpkt = true) : Decoded ⟨s, some (recvUntouchedIp cpkt), none⟩
  | req (hipv4 : isIpv4 cpkt = false) (htype : (Chdr.read cpkt).t = ctypeFrmCtl)
      (hinfo : (Chdr.read cpkt).i = ctypeCtlReq)
      (hget : s.getRflow (getRflowKey (Chdr.read cpkt)) = none) :
      Decoded ⟨s.buildRflow now fresh (getRflowKey (Chdr.read cpkt)) cpkt, none,
        some (buildAck cpkt)⟩
  | ack {addr : ℕ} (hipv4 : isIpv4 cpkt = false) (htype : (Chdr.read cpkt).t = ctypeFrmCtl)
      (hinfo : (Chdr.read cpkt).i = ctypeCtlAck) (hget : s.rindex (Chdr.read cpkt).id = some addr) :
      Decoded ⟨s.setSflow addr fun n => { n with state := .established }, none, none⟩
  | noAck (hipv4 : isIpv4 cpkt = false) (htype : (Chdr.read cpkt).t = ctypeFrmCtl)
      (hinfo : (Chdr.read cpkt).i = ctypeCtlAck) (hget : s.rindex (Chdr.read cpkt).id = none) :
      Decoded ⟨s, none, none⟩
  | flt (hipv4 : isIpv4 cpkt = false) (htype : (Chdr.read cpkt).t = ctypeFrmCtl)
      (hinfo : (Chdr.read cpkt).i = ctypeCtlFlt) : Decoded ⟨s, none, none⟩
  | data {rflow : Rflow} {hdr : OrigHdr} {pkt : Bytes} (hipv4 : isIpv4 cpkt = false)
      (htype : (Chdr.read cpkt).t ≠ ctypeFrmCtl)
      (hget : s.getRflow (getRflowKey (Chdr.read cpkt)) = some rflow) :
      Decoded ⟨(s.touchRflow now (getRflowKey (Chdr.read cpkt))).setRflow
        (getRflowKey (Chdr.read cpkt)) fun n => { n with hdr := hdr }, some pkt, none⟩

variable {now fresh cpkt s}

lemma decoded_data {recv : Rflow → Option (Rflow × Bytes)} {d : Decompressed}
    (hipv4 : isIpv4 cpkt = false) (htype : (Chdr.read cpkt).t ≠ ctypeFrmCtl)
    (h : recvData now (getRflowKey (Chdr.read cpkt)) s recv = .ok d) :
    Decoded now fresh cpkt s d := by
  rw [recvData] at h
  cases hget : s.getRflow (getRflowKey (Chdr.read cpkt)) with
  | none =>
    simp only [hget] at h
    cases h
  | some rflow =>
    simp only [hget] at h
    cases hout : recv rflow with
    | none =>
      simp only [hout] at h
      cases h
    | some r =>
      simp only [hout] at h
      rw [← Except.ok.inj h]
      exact .data hipv4 htype hget

lemma decoded {len : ℕ} {d : Decompressed} (h : recvCompress now fresh cpkt len s = .ok d) :
    Decoded now fresh cpkt s d := by
  rw [recvCompress] at h
  by_cases hipv4 : isIpv4 cpkt = true
  · rw [if_pos hipv4] at h
    rw [← Except.ok.inj h]
    exact .ipv4 hipv4
  · rw [if_neg hipv4] at h
    rw [Bool.not_eq_true] at hipv4
    simp only at h
    by_cases htype : (Chdr.read cpkt).t = ctypeFrmCtl
    · rw [if_pos htype, recvCtl] at h
      split_ifs at h with hreq hack hflt
      · cases hget : s.getRflow (getRflowKey (Chdr.read cpkt)) with
        | some rflow =>
          simp only [hget] at h
          cases h
        | none =>
          simp only [hget] at h
          rw [← Except.ok.inj h]
          exact .req hipv4 htype hreq hget
      · cases hget : s.rindex (Chdr.read cpkt).id with
        | some addr =>
          simp only [hget] at h
          rw [← Except.ok.inj h]
          exact .ack hipv4 htype hack hget
        | none =>
          simp only [hget] at h
          rw [← Except.ok.inj h]
          exact .noAck hipv4 htype hack hget
      · rw [← Except.ok.inj h]
        exact .flt hipv4 htype hflt
    · rw [if_neg htype] at h
      split_ifs at h
      · exact decoded_data hipv4 htype h
      · exact decoded_data hipv4 htype h
      · exact decoded_data hipv4 htype h

end

end Ipcf
