import Ipcf.Compact.Flow

/-!
# Compressing

`xmit_compress` and the functions that build its packets.  The result is the list of the packets
that are pushed onto `pkt_list`, in order, each with the function that built it and, for a compact
packet, the flow as it was then (`Builder`, which is no part of the program).  A RAW packet is
pushed twice; as the same node that breaks the list, which is not a matter of this model.

A copy that leaves the 2000 bytes of a `pkt_t`, or whose length is negative and thus nearly 2^64,
ends the program: the result is `none`.
-/

namespace Ipcf

/-- The function that built a packet, and for which flow. -/
inductive Builder
  | plain
  | ctl (flow : Sflow)
  | cpkt (flow : Sflow)
deriving DecidableEq

/-- `pkt_t`: the first `len` bytes of `data`. -/
structure Pkt where
  data : Bytes
  builder : Builder
deriving DecidableEq

/-- `add_to_pkt_list` -/
def addToPktList (data : Mem) (len : UInt16) : Option Pkt :=
  if len.toNat ≤ maxDataLength then some ⟨data.read 0 len.toNat, .plain⟩ else none

/-- `build_ctl` -/
def buildCtl (sflow : Sflow) : Pkt :=
  let chdr : Chdr := { t := ctypeFrmCtl, i := ctypeCtlReq, smac := myMac, id := sflow.fid }
  let t :=
    if sflow.hdr.ip.protocol = protocolTcp then sflow.hdr.t.read 0 TcpHdr.len
    else if sflow.hdr.ip.protocol = protocolUdp then sflow.hdr.t.read 0 UdpHdr.size
    else []
  ⟨chdr.bytes ++ sflow.hdr.ip.bytes ++ t, .ctl sflow⟩

/-- The three low bits of `i` for the flags of a TCP header. -/
def tcpSbits (tcphdr : TcpHdr) : UInt8 :=
  if tcphdr.has tcpUrg then
    if tcphdr.has tcpSyn then ctypeTcpUrgsyn
    else if tcphdr.has tcpFin then ctypeTcpUrgfin
    else if tcphdr.has tcpPsh then ctypeTcpUrgpsh
    else ctypeTcpUrg
  else
    if tcphdr.has tcpSyn then ctypeTcpSyn
    else if tcphdr.has tcpFin then ctypeTcpFin
    else if tcphdr.has tcpPsh then ctypeTcpPsh
    else if tcphdr.has tcpRst then ctypeTcpRst
    else 0

/-- A packet with the header `chdr`, the fields `fields`, and what follows the first `off` bytes of
the IP packet. -/
def payloadPkt (sflow : Sflow) (chdr : Chdr) (fields : Bytes) (ippkt : Mem) (off : ℕ) :
    Option Pkt :=
  let totLen := (IpHdr.read ippkt).totLen.toNat
  if totLen < off then none
  else
    let data := chdr.bytes ++ fields ++ ippkt.read off (totLen - off)
    if data.length ≤ maxDataLength then some ⟨data, .cpkt sflow⟩ else none

/-- The RAW packet of `build_cpkt`. -/
def buildRaw (sflow : Sflow) (ippkt : Mem) : Option Pkt :=
  let iphdr := IpHdr.read ippkt
  let fragOff := iphdr.fragOff &&& fragOffMask
  let mfbit := if iphdr.fragOff &&& fragFlagMfMask ≠ 0 then ctypeRawMfbit else 0
  let fbit := if fragOff ≠ 0 then ctypeRawFbit else 0
  payloadPkt sflow { t := ctypeFrmRaw, i := mfbit ||| fbit, smac := myMac, id := sflow.fid }
    (if fragOff ≠ 0 then be16 fragOff else []) ippkt IpHdr.len

/-- The TCP packet of `build_cpkt`. -/
def buildTcp (sflow : Sflow) (ippkt : Mem) : Option Pkt :=
  let tcphdr := TcpHdr.read (ippkt.drop IpHdr.len)
  let abit := if tcphdr.has tcpAck then ctypeTcpAbit else 0
  payloadPkt sflow
    { t := ctypeFrmTcp
      i := tcpSbits tcphdr ||| ctypeTcpSbit ||| abit ||| ctypeTcpWbit
      smac := myMac
      id := sflow.fid }
    (le32 tcphdr.seq ++ (if tcphdr.has tcpAck then le32 tcphdr.ackSeq else []) ++
      be16 tcphdr.window ++ (if tcphdr.has tcpUrg then be16 tcphdr.urgPtr else []) ++
      be16 tcphdr.check)
    ippkt (IpHdr.len + TcpHdr.len)

/-- The UDP packet of `build_cpkt`. -/
def buildUdp (sflow : Sflow) (ippkt : Mem) : Option Pkt :=
  let udphdr := UdpHdr.read (ippkt.drop IpHdr.len)
  payloadPkt sflow { t := ctypeFrmUdp, i := 0, smac := myMac, id := sflow.fid }
    (be16 udphdr.check) ippkt (IpHdr.len + UdpHdr.size)

/-- The packet that `build_cpkt` pushes when none of its branches is taken: the frame type was
never assigned. -/
def buildBare (fresh : Fresh) (sflow : Sflow) : Pkt :=
  let chdr : Chdr := { t := fresh.pkt >>> 6, i := 0, smac := myMac, id := sflow.fid }
  ⟨chdr.bytes, .cpkt sflow⟩

/-- `build_cpkt`: what it pushes. -/
def buildCpkt (fresh : Fresh) (sflow : Sflow) (ippkt : Mem) : Option (List Pkt) :=
  let iphdr := IpHdr.read ippkt
  if sflow.skey.ipid ≠ 0 then (buildRaw sflow ippkt).map fun pkt => [pkt, pkt]
  else if iphdr.protocol = protocolTcp then (buildTcp sflow ippkt).map fun pkt => [pkt]
  else if iphdr.protocol = protocolUdp then (buildUdp sflow ippkt).map fun pkt => [pkt]
  else some [buildBare fresh sflow]

/-- The tests of `xmit_compress` that lead to `can_not_compact`. -/
def cannotCompact (ippkt : Mem) : Bool :=
  let iphdr := IpHdr.read ippkt
  let tcphdr := TcpHdr.read (ippkt.drop IpHdr.len)
  iphdr.version != 4 || iphdr.ihl != 5 ||
    (iphdr.protocol == protocolTcp && tcphdr.doff != 5) || csum (ippkt.read 0 IpHdr.len) != 0

/-- `xmit_compress` from the switch on the state of the flow on: what is pushed, the state that
is left, touched. -/
def xmitSflow (now : ℤ) (fresh : Fresh) (ippkt : Mem) (s : Compact) (sflow : Sflow) :
    Option (Compact × List Pkt) :=
  let len := (IpHdr.read ippkt).totLen
  match sflow.state with
  | .new =>
    (addToPktList ippkt len).map fun pkt =>
      ((s.setSflow sflow.addr fun n => { n with state := .pending }).touchSflow now sflow.addr,
        [buildCtl sflow, pkt])
  | .pending => (addToPktList ippkt len).map fun pkt => (s.touchSflow now sflow.addr, [pkt])
  | .established =>
    (buildCpkt fresh sflow ippkt).map fun pkts => (s.touchSflow now sflow.addr, pkts)

/-- `xmit_compress` -/
def xmitCompress (now : ℤ) (fresh : Fresh) (ippkt : Mem) (s : Compact) :
    Option (Compact × List Pkt) :=
  if cannotCompact ippkt then
    (addToPktList ippkt (IpHdr.read ippkt).totLen).map fun pkt => (s, [pkt])
  else
    let skey := getSflowKey ippkt
    match s.getSflow skey with
    | some sflow => xmitSflow now fresh ippkt s sflow
    | none =>
      match getId s.idp with
      | (none, idp) => some ({ s with idp := idp }, [])
      | (some fid, idp) =>
        let r := { s with idp := idp }.buildSflow now fresh skey ippkt (UInt8.ofNat fid)
        xmitSflow now fresh ippkt r.1 r.2

/-! ## What `xmit_compress` can do -/

section

variable (now : ℤ) (fresh : Fresh) (ippkt : Mem) (s : Compact)

/-- The flow that `xmit_compress` makes, when the pool hands out `fid`. -/
def newSflow (fid : UInt8) : Sflow where
  addr := s.heap
  state := .new
  skey := getSflowKey ippkt
  hdr := OrigHdr.read fresh ippkt
  fid := fid
  softTimeout := Ipcf.softTimeout now

/-- All that `xmit_compress` can do: the packet goes out as it is, without a flow, with the request
that opens a flow, or because the flow is pending; it goes out compressed; or it is dropped. -/
inductive Xmitted : Compact → List Pkt → Prop
  | refused {pkt : Pkt} (h : cannotCompact ippkt = true)
      (hpkt : addToPktList ippkt (IpHdr.read ippkt).totLen = some pkt) : Xmitted s [pkt]
  | dropped (h : cannotCompact ippkt = false) (hget : s.getSflow (getSflowKey ippkt) = none)
      (hid : (getId s.idp).1 = none) : Xmitted { s with idp := (getId s.idp).2 } []
  | opened {fid : ℕ} {pkt : Pkt} (h : cannotCompact ippkt = false)
      (hget : s.getSflow (getSflowKey ippkt) = none) (hid : (getId s.idp).1 = some fid)
      (hpkt : addToPktList ippkt (IpHdr.read ippkt).totLen = some pkt) :
      Xmitted
        (((({ s with idp := (getId s.idp).2 }.buildSflow now fresh (getSflowKey ippkt) ippkt
          (UInt8.ofNat fid)).1.setSflow s.heap fun n => { n with state := .pending })).touchSflow
            now s.heap)
        [buildCtl (newSflow now fresh ippkt s (UInt8.ofNat fid)), pkt]
  | again {sflow : Sflow} {pkt : Pkt} (h : cannotCompact ippkt = false)
      (hget : s.getSflow (getSflowKey ippkt) = some sflow) (hstate : sflow.state = .new)
      (hpkt : addToPktList ippkt (IpHdr.read ippkt).totLen = some pkt) :
      Xmitted ((s.setSflow sflow.addr fun n => { n with state := .pending }).touchSflow now
        sflow.addr) [buildCtl sflow, pkt]
  | pending {sflow : Sflow} {pkt : Pkt} (h : cannotCompact ippkt = false)
      (hget : s.getSflow (getSflowKey ippkt) = some sflow) (hstate : sflow.state = .pending)
      (hpkt : addToPktList ippkt (IpHdr.read ippkt).totLen = some pkt) :
      Xmitted (s.touchSflow now sflow.addr) [pkt]
  | compressed {sflow : Sflow} {pkts : List Pkt} (h : cannotCompact ippkt = false)
      (hget : s.getSflow (getSflowKey ippkt) = some sflow) (hstate : sflow.state = .established)
      (hpkts : buildCpkt fresh sflow ippkt = some pkts) :
      Xmitted (s.touchSflow now sflow.addr) pkts

variable {now fresh ippkt s}

lemma xmitted {s' : Compact} {pkts : List Pkt}
    (h : xmitCompress now fresh ippkt s = some (s', pkts)) :
    Xmitted now fresh ippkt s s' pkts := by
  rw [xmitCompress] at h
  by_cases hcannot : cannotCompact ippkt = true
  · rw [if_pos hcannot, Option.map_eq_some_iff] at h
    obtain ⟨pkt, hpkt, heq⟩ := h
    cases heq
    exact .refused hcannot hpkt
  · rw [if_neg hcannot] at h
    rw [Bool.not_eq_true] at hcannot
    simp only at h
    cases hget : s.getSflow (getSflowKey ippkt) with
    | some sflow =>
      rw [hget] at h
      simp only [xmitSflow] at h
      cases hstate : sflow.state with
      | new =>
        rw [hstate] at h
        obtain ⟨pkt, hpkt, heq⟩ := Option.map_eq_some_iff.1 h
        cases heq
        exact .again hcannot hget hstate hpkt
      | pending =>
        rw [hstate] at h
        obtain ⟨pkt, hpkt, heq⟩ := Option.map_eq_some_iff.1 h
        cases heq
        exact .pending hcannot hget hstate hpkt
      | established =>
        rw [hstate] at h
        obtain ⟨pkts', hpkts, heq⟩ := Option.map_eq_some_iff.1 h
        cases heq
        exact .compressed hcannot hget hstate hpkts
    | none =>
      rw [hget] at h
      cases hid : getId s.idp with
      | mk fid idp =>
        rw [hid] at h
        have hfst : (getId s.idp).1 = fid := by rw [hid]
        have hsnd : (getId s.idp).2 = idp := by rw [hid]
        cases fid with
        | none =>
          cases h
          rw [← hsnd]
          exact .dropped hcannot hget hfst
        | some fid =>
          simp only [xmitSflow, Compact.buildSflow] at h
          obtain ⟨pkt, hpkt, heq⟩ := Option.map_eq_some_iff.1 h
          cases heq
          rw [← hsnd]
          exact .opened hcannot hget hfst hpkt

/-- What `build_cpkt` pushes, by the branch that was taken. -/
lemma buildCpkt_cases {sflow : Sflow} {pkts : List Pkt} {pkt : Pkt}
    (h : buildCpkt fresh sflow ippkt = some pkts) (hpkt : pkt ∈ pkts) :
    buildRaw sflow ippkt = some pkt ∨ buildTcp sflow ippkt = some pkt ∨
      buildUdp sflow ippkt = some pkt ∨ pkt = buildBare fresh sflow := by
  rw [buildCpkt] at h
  split_ifs at h
  · obtain ⟨pkt', hpkt', rfl⟩ := Option.map_eq_some_iff.1 h
    have heq : pkt = pkt' := by simpa using hpkt
    exact .inl (heq ▸ hpkt')
  · obtain ⟨pkt', hpkt', rfl⟩ := Option.map_eq_some_iff.1 h
    rw [List.mem_singleton.1 hpkt]
    exact .inr (.inl hpkt')
  · obtain ⟨pkt', hpkt', rfl⟩ := Option.map_eq_some_iff.1 h
    rw [List.mem_singleton.1 hpkt]
    exact .inr (.inr (.inl hpkt'))
  · cases h
    rw [List.mem_singleton.1 hpkt]
    exact .inr (.inr (.inr rfl))

/-- A packet with a payload: its bytes begin with the header and the fields. -/
lemma payloadPkt_eq_some {sflow : Sflow} {chdr : Chdr} {fields : Bytes} {off : ℕ} {pkt : Pkt}
    (h : payloadPkt sflow chdr fields ippkt off = some pkt) :
    pkt.builder = .cpkt sflow ∧ ∃ rest, pkt.data = chdr.bytes ++ (fields ++ rest) := by
  rw [payloadPkt] at h
  simp only at h
  split_ifs at h
  cases h
  exact ⟨rfl, _, List.append_assoc ..⟩

/-- A packet whose fields are shorter than what they stand for is built if the packet is long
enough. -/
lemma payloadPkt_eq_some_iff {flow : Sflow} {chdr : Chdr} {fields : Bytes} {off : ℕ} {pkt : Pkt}
    (hfields : fields.length + Chdr.len ≤ off)
    (hmax : (IpHdr.read ippkt).totLen.toNat ≤ maxDataLength) :
    payloadPkt flow chdr fields ippkt off = some pkt ↔
      off ≤ (IpHdr.read ippkt).totLen.toNat ∧
        pkt = ⟨chdr.bytes ++ fields ++ ippkt.read off ((IpHdr.read ippkt).totLen.toNat - off),
          .cpkt flow⟩ := by
  rw [payloadPkt]
  simp only
  split_ifs with hshort hlen
  · simp [Nat.not_le.2 hshort]
  · simp [Nat.not_lt.1 hshort, eq_comm]
  · exfalso
    apply hlen
    simp only [List.length_append, Mem.length_read]
    have hchdr : chdr.bytes.length = Chdr.len := rfl
    omega

/-- The fields of a TCP packet are shorter than its header. -/
lemma tcpFields_length (tcphdr : TcpHdr) :
    (le32 tcphdr.seq ++ (if tcphdr.has tcpAck then le32 tcphdr.ackSeq else []) ++
      be16 tcphdr.window ++ (if tcphdr.has tcpUrg then be16 tcphdr.urgPtr else []) ++
      be16 tcphdr.check).length + Chdr.len ≤ IpHdr.len + TcpHdr.len := by
  split_ifs <;> simp [le32, be16, Chdr.len, IpHdr.len, TcpHdr.len]

lemma rawFields_length (fragOff : UInt16) :
    (if fragOff ≠ 0 then be16 fragOff else []).length + Chdr.len ≤ IpHdr.len := by
  split_ifs <;> simp [be16, Chdr.len, IpHdr.len]

lemma udpFields_length (check : UInt16) :
    (be16 check).length + Chdr.len ≤ IpHdr.len + UdpHdr.size := by
  simp [be16, Chdr.len, IpHdr.len, UdpHdr.size]

lemma builder_buildCpkt {sflow : Sflow} {pkts : List Pkt} {pkt : Pkt}
    (h : buildCpkt fresh sflow ippkt = some pkts) (hpkt : pkt ∈ pkts) :
    pkt.builder = .cpkt sflow := by
  rcases buildCpkt_cases h hpkt with h | h | h | rfl
  · exact (payloadPkt_eq_some h).1
  · exact (payloadPkt_eq_some h).1
  · exact (payloadPkt_eq_some h).1
  · rfl

/-- A plain packet is the front of what was read, as far as its total length says. -/
lemma plain_of_xmit {s' : Compact} {pkts : List Pkt} {pkt : Pkt}
    (h : xmitCompress now fresh ippkt s = some (s', pkts)) (hpkt : pkt ∈ pkts)
    (hplain : pkt.builder = .plain) :
    addToPktList ippkt (IpHdr.read ippkt).totLen = some pkt := by
  cases xmitted h with
  | refused hcannot hadd => rw [List.mem_singleton.1 hpkt, hadd]
  | dropped hcannot hget hid => cases hpkt
  | opened hcannot hget hid hadd =>
    rcases List.mem_cons.1 hpkt with rfl | hpkt
    · cases hplain
    · rw [List.mem_singleton.1 hpkt, hadd]
  | again hcannot hget hstate hadd =>
    rcases List.mem_cons.1 hpkt with rfl | hpkt
    · cases hplain
    · rw [List.mem_singleton.1 hpkt, hadd]
  | pending hcannot hget hstate hadd => rw [List.mem_singleton.1 hpkt, hadd]
  | compressed hcannot hget hstate hpkts =>
    rw [builder_buildCpkt hpkts hpkt] at hplain
    cases hplain

/-- The packet goes out uncompressed: it can not be compressed, or its flow is new or pending. -/
def sendsPlain (ippkt : Mem) (s : Compact) : Bool :=
  cannotCompact ippkt ||
    match s.getSflow (getSflowKey ippkt) with
    | some sflow => sflow.state != .established
    | none => (getId s.idp).1.isSome

/-- What goes out uncompressed is pushed, unless it is longer than a `pkt_t`. -/
lemma xmit_of_sendsPlain (h : sendsPlain ippkt s = true) {pkt : Pkt}
    (hpkt : addToPktList ippkt (IpHdr.read ippkt).totLen = some pkt) :
    ∃ s' pkts, xmitCompress now fresh ippkt s = some (s', pkts) ∧ pkt ∈ pkts := by
  rw [xmitCompress]
  by_cases hcannot : cannotCompact ippkt = true
  · rw [if_pos hcannot, hpkt]
    exact ⟨_, _, rfl, List.mem_singleton_self pkt⟩
  · rw [if_neg hcannot]
    rw [Bool.not_eq_true] at hcannot
    rw [sendsPlain, hcannot, Bool.false_or] at h
    cases hget : s.getSflow (getSflowKey ippkt) with
    | some sflow =>
      rw [hget] at h
      simp only [hget, xmitSflow, hpkt]
      cases hstate : sflow.state with
      | new => exact ⟨_, _, rfl, by simp⟩
      | pending => exact ⟨_, _, rfl, by simp⟩
      | established => simp [hstate] at h
    | none =>
      rw [hget] at h
      cases hid : getId s.idp with
      | mk fid idp =>
        rw [hid] at h
        cases fid with
        | none => cases h
        | some fid =>
          simp only [hget, xmitSflow, Compact.buildSflow, hpkt]
          exact ⟨_, _, rfl, by simp⟩

end

end Ipcf
