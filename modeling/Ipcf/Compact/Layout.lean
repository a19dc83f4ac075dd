import Ipcf.Compact.Peer

/-!
# The layout of a compact packet with data

Behind the compact header are the fields that its type and its flags announce, and behind these the
payload, up to the end of the frame.  `recv_tcp`, `recv_udp` and `recv_raw` differ in the fields,
in the transport header that they write, and in what they do to the IP header of the flow; the end
is the same for all (`recvFrame_eq`).
-/

namespace Ipcf

/-- The bytes in front of the payload of a TCP packet. -/
def tcpOffset (i : UInt8) : ℕ :=
  Chdr.len + (if i &&& ctypeTcpSbit ≠ 0 then 4 else 0) + (if i &&& ctypeTcpAbit ≠ 0 then 4 else 0) +
    (if i &&& ctypeTcpWbit ≠ 0 then 2 else 0) +
    (if i &&& ctypeTcpSbmask = 0 ∨ i &&& ctypeTcpSbmask ≥ ctypeTcpUrgsyn then 2 else 0) + 2

/-- The bytes in front of the payload of a RAW packet. -/
def rawOffset (i : UInt8) : ℕ := if i &&& ctypeRawFbit ≠ 0 then Chdr.len + 2 else Chdr.len

/-- The bytes in front of the payload. -/
def frameOffset (chdr : Chdr) : ℕ :=
  if chdr.t = ctypeFrmTcp then tcpOffset chdr.i
  else if chdr.t = ctypeFrmUdp then Chdr.len + 2
  else rawOffset chdr.i

/-- The length of the transport header that is written in front of the payload. -/
def transportSize (chdr : Chdr) : ℕ :=
  if chdr.t = ctypeFrmTcp then TcpHdr.len else if chdr.t = ctypeFrmUdp then UdpHdr.size else 0

/-- The fragment field that `recv_raw` makes. -/
def rawFragOff (cpkt : Mem) : UInt16 :=
  let i := (Chdr.read cpkt).i
  let fragOff := if i &&& ctypeRawFbit ≠ 0 then cpkt.be16 Chdr.len &&& fragOffMask else 0
  if i &&& ctypeRawMfbit ≠ 0 then fragOff ||| fragFlagMfMask else fragOff

/-- The flow after the packet: the IP id goes up, except for a RAW packet. -/
def flowAfter (chdr : Chdr) (rflow : Rflow) : Rflow :=
  if chdr.t = ctypeFrmTcp ∨ chdr.t = ctypeFrmUdp then nextIpId rflow else rflow

/-- The IP header of the flow, as it is written to the packet up to its length and checksum. -/
def frameIp (cpkt : Mem) (rflow : Rflow) : IpHdr :=
  if (Chdr.read cpkt).t = ctypeFrmTcp ∨ (Chdr.read cpkt).t = ctypeFrmUdp then
    (nextIpId rflow).hdr.ip
  else { rflow.hdr.ip with fragOff := rawFragOff cpkt }

section

variable (cpkt : Mem) (len : UInt16) (rflow : Rflow)

lemma recvTcp_layout : ∃ tcphdr : TcpHdr, recvTcp cpkt len rflow =
    (rebuild (nextIpId rflow).hdr.ip (fun _ => tcphdr.bytes) TcpHdr.len cpkt len
      (tcpOffset (Chdr.read cpkt).i)).map fun pkt => (nextIpId rflow, pkt) := by
  rw [recvTcp, tcpOffset]
  simp only
  split_ifs <;> exact ⟨_, rfl⟩

lemma recvUdp_layout : ∃ udphdr : UdpHdr, recvUdp cpkt len rflow =
    (rebuild (nextIpId rflow).hdr.ip
      (fun payload => { udphdr with len := UInt16.ofNat (payload + UdpHdr.size) }.bytes) UdpHdr.size
      cpkt len (Chdr.len + 2)).map fun pkt => (nextIpId rflow, pkt) := ⟨_, rfl⟩

lemma recvRaw_layout : recvRaw cpkt len rflow =
    rebuild { rflow.hdr.ip with fragOff := rawFragOff cpkt } (fun _ => []) 0 cpkt len
      (rawOffset (Chdr.read cpkt).i) := by
  rw [recvRaw, rawFragOff, rawOffset]
  split_ifs <;> rfl

/-- **The layout.** -/
lemma recvFrame_eq : ∃ transport : ℕ → Bytes,
    (∀ n, (transport n).length = transportSize (Chdr.read cpkt)) ∧
    recvFrame cpkt len rflow = (rebuild (frameIp cpkt rflow) transport
      (transportSize (Chdr.read cpkt)) cpkt len (frameOffset (Chdr.read cpkt))).map
        fun pkt => (flowAfter (Chdr.read cpkt) rflow, pkt) := by
  rw [recvFrame, frameIp, transportSize, frameOffset, flowAfter]
  by_cases htcp : (Chdr.read cpkt).t = ctypeFrmTcp
  · obtain ⟨tcphdr, heq⟩ := recvTcp_layout cpkt len rflow
    simp only [htcp, if_true, true_or]
    exact ⟨_, fun _ => TcpHdr.length_bytes _, heq⟩
  · by_cases hudp : (Chdr.read cpkt).t = ctypeFrmUdp
    · obtain ⟨udphdr, heq⟩ := recvUdp_layout cpkt len rflow
      simp only [hudp, if_true, or_true]
      exact ⟨_, fun _ => UdpHdr.length_bytes _, heq⟩
    · simp only [htcp, hudp, if_false, or_self, recvRaw_layout]
      exact ⟨_, fun _ => rfl, rfl⟩

end

end Ipcf
