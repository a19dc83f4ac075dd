import Ipcf.Compact.Layout
import Ipcf.Framework.OnesComplement

/-!
# The checksum of rebuilt headers

`recv_tcp`, `recv_udp` and `recv_raw` write an IP header, and `csum` of it, with zero in place of
the checksum, into it.  `csum_finish` folds the sum once and cuts off what is left above 16 bits.
So the header that comes out is valid if and only if the sum of the words before it (`bareHdr`),
folded once, is a word (`checksums_valid_iff`).

The sum is that of the header of the flow with an id that goes up and a length that is anything, so
a flow that lives long enough meets the sums whose fold has a carry.
-/

namespace Ipcf

/-! ## `csum` -/

lemma toNat_csumContinue (sum : UInt32) (data : Bytes) :
    (csumContinue sum data).toNat = (sum.toNat + sumLe data) % 2 ^ 32 := by
  fun_induction csumContinue sum data with
  | case1 sum a b data ih =>
    have hword := toNat_ofLe16 a b
    rw [ih, sumLe, UInt32.toNat_add, UInt16.toNat_toUInt32, hword]
    omega
  | case2 sum a =>
    rw [sumLe, UInt32.toNat_add, UInt8.toNat_toUInt32]
  | case3 sum =>
    rw [sumLe, Nat.add_zero, Nat.mod_eq_of_lt sum.toNat_lt]

/-- `csum_finish` is one fold. -/
lemma toNat_csumFinish (sum : UInt32) : (csumFinish sum).toNat = checksum 65536 sum.toNat := by
  have hsum := sum.toNat_lt
  have hlow : (sum &&& 0xffff).toNat = sum.toNat % 65536 := by
    rw [UInt32.toNat_and]
    exact Nat.and_two_pow_sub_one_eq_mod sum.toNat 16
  have hhigh : (sum >>> 16).toNat = sum.toNat / 65536 := by
    rw [UInt32.toNat_shiftRight]
    exact Nat.shiftRight_eq_div_pow sum.toNat 16
  rw [csumFinish, checksum, foldCarry, UInt16.toNat_not, UInt32.toNat_toUInt16, UInt32.toNat_add,
    hlow, hhigh, Nat.mod_eq_of_lt (by omega : sum.toNat % 65536 + sum.toNat / 65536 < 2 ^ 32)]

lemma toNat_csum {data : Bytes} (hdata : data.length ≤ 2 ^ 16) :
    (csum data).toNat = checksum 65536 (sumLe data) := by
  have hle := sumLe_le data
  rw [csum, toNat_csumFinish, toNat_csumContinue, UInt32.toNat_zero, Nat.zero_add,
    Nat.mod_eq_of_lt (by omega)]

/-! ## A header and its checksum -/

/-- The words of the header are all ones in one's complement. -/
def ValidIp (hdr : Bytes) : Prop := AllOnes 65536 (sumBe hdr)

/-- The header with its checksum, as the code makes it. -/
def IpHdr.withCsum (h : IpHdr) : IpHdr :=
  let sum := csum h.bytes
  { h with check := ofBe16 sum.toUInt8 (UInt8.ofNat (sum.toNat / 256)) }

/-- The sum of the words fits into one, once folded. -/
def IpHdr.NoCarry (h : IpHdr) : Prop := foldCarry 65536 (sumLe h.bytes) < 65536

instance (h : IpHdr) : Decidable h.NoCarry := inferInstanceAs (Decidable (_ < _))

lemma sumLe_withCsum {h : IpHdr} (hcheck : h.check = 0) :
    sumLe h.withCsum.bytes = sumLe h.bytes + (csum h.bytes).toNat := by
  rw [IpHdr.withCsum]
  generalize csum h.bytes = c
  have hc := c.toNat_lt
  have hcells : c.toUInt8.toNat + 256 * (UInt8.ofNat (c.toNat / 256)).toNat = c.toNat := by
    rw [UInt16.toNat_toUInt8, UInt8.toNat_ofNat']
    omega
  have hzero : be16 0 = [0, 0] := rfl
  simp only [IpHdr.bytes, hcheck, be16_ofBe16, hzero]
  simp only [be16, le32, List.cons_append, List.nil_append, sumLe, UInt8.toNat_zero]
  omega

/-- **One header.**  It is valid, and `csum` finds it so, just when there is no second carry. -/
lemma validIp_withCsum {h : IpHdr} (hcheck : h.check = 0) :
    (ValidIp h.withCsum.bytes ↔ h.NoCarry) ∧
      (csum h.withCsum.bytes = 0 ↔ ValidIp h.withCsum.bytes) := by
  have hle := sumLe_le h.bytes
  have hle' := sumLe_le h.withCsum.bytes
  rw [IpHdr.length_bytes, IpHdr.len] at hle hle'
  constructor
  · rw [ValidIp, allOnes_sumBe_iff, sumLe_withCsum hcheck, toNat_csum (by simp [IpHdr.len]),
      allOnes_add_checksum_iff (by decide) (by omega), IpHdr.NoCarry]
  · rw [ValidIp, allOnes_sumBe_iff, ← checksum_eq_zero_iff (by decide) (by omega),
      ← toNat_csum (by simp [IpHdr.len]), ← UInt16.toNat_inj, UInt16.toNat_zero]

/-! ## The headers of the packets that are made -/

/-- The header that is made for a packet with data, before its checksum. -/
def bareHdr (cpkt : Mem) (len : UInt16) (rflow : Rflow) : IpHdr :=
  { frameIp cpkt rflow with
    totLen := UInt16.ofNat (IpHdr.len + transportSize (Chdr.read cpkt) +
      (len.toNat - frameOffset (Chdr.read cpkt)))
    check := 0 }

lemma rebuild_header {iphdr : IpHdr} {transport : ℕ → Bytes} {size offset : ℕ} {cpkt : Mem}
    {len : UInt16} {pkt : Bytes} (h : rebuild iphdr transport size cpkt len offset = some pkt) :
    pkt.take IpHdr.len = IpHdr.bytes (IpHdr.withCsum { iphdr with
      totLen := UInt16.ofNat (IpHdr.len + size + (len.toNat - offset)), check := 0 }) := by
  rw [rebuild] at h
  simp only at h
  split_ifs at h
  rw [← Option.some.inj h, List.append_assoc]
  exact List.take_left' (IpHdr.length_bytes _)

/-- The packet begins with its header. -/
lemma recvFrame_header {cpkt : Mem} {len : UInt16} {rflow rflow' : Rflow} {pkt : Bytes}
    (h : recvFrame cpkt len rflow = some (rflow', pkt)) :
    rflow' = flowAfter (Chdr.read cpkt) rflow ∧
      pkt.take IpHdr.len = (bareHdr cpkt len rflow).withCsum.bytes := by
  obtain ⟨transport, -, heq⟩ := recvFrame_eq cpkt len rflow
  rw [heq, Option.map_eq_some_iff] at h
  obtain ⟨pkt', hpkt, hr⟩ := h
  cases hr
  exact ⟨rfl, rebuild_header hpkt⟩

/-! ## The frames of a flow -/

/-- The packets that are made of frames, one after the other, on one flow. -/
def recvFrames : List (Mem × UInt16) → Rflow → Option (Rflow × List Bytes)
  | [], rflow => some (rflow, [])
  | (cpkt, len) :: frames, rflow =>
    (recvFrame cpkt len rflow).bind fun r =>
      (recvFrames frames r.1).map fun r' => (r'.1, r.2 :: r'.2)

/-- The headers that are made for the frames, before their checksums. -/
def bareHdrs : List (Mem × UInt16) → Rflow → List IpHdr
  | [], _ => []
  | (cpkt, len) :: frames, rflow =>
    bareHdr cpkt len rflow :: bareHdrs frames (flowAfter (Chdr.read cpkt) rflow)

/-- Each packet that is made goes with the header before its checksum. -/
lemma recvFrames_headers {frames : List (Mem × UInt16)} {rflow rflow' : Rflow} {pkts : List Bytes}
    (h : recvFrames frames rflow = some (rflow', pkts)) :
    List.Forall₂ (fun hdr pkt => hdr.check = 0 ∧ pkt.take IpHdr.len = hdr.withCsum.bytes)
      (bareHdrs frames rflow) pkts := by
  induction frames generalizing rflow pkts with
  | nil =>
    cases h
    exact .nil
  | cons frame frames ih =>
    obtain ⟨cpkt, len⟩ := frame
    obtain ⟨⟨rflow₁, pkt⟩, hframe, hbind⟩ := Option.bind_eq_some_iff.1 h
    obtain ⟨⟨rflow₂, pkts'⟩, hrest, hr⟩ := Option.map_eq_some_iff.1 hbind
    cases hr
    obtain ⟨rfl, hheader⟩ := recvFrame_header hframe
    exact .cons ⟨rfl, hheader⟩ (ih hrest)

lemma forall_iff_of_forall₂ {α β : Type*} {p : α → Prop} {q : β → Prop} {as : List α} {bs : List β}
    (h : List.Forall₂ (fun a b => q b ↔ p a) as bs) : (∀ b ∈ bs, q b) ↔ ∀ a ∈ as, p a := by
  induction h with
  | nil => simp
  | cons hab _ ih => rw [List.forall_mem_cons, List.forall_mem_cons, hab, ih]

/-- **Checksums.**  Whatever the flow and whatever frames it gets, one after the other: the header
of a packet that is made is valid, or, what comes to the same, `csum` of it is zero, if and only if
the sum of its words before the checksum fits into a word, once folded.  So all are valid if and
only if all these sums do. -/
theorem checksums_valid_iff {frames : List (Mem × UInt16)} {rflow rflow' : Rflow}
    {pkts : List Bytes} (h : recvFrames frames rflow = some (rflow', pkts)) :
    List.Forall₂ (fun hdr pkt => (ValidIp (pkt.take IpHdr.len) ↔ hdr.NoCarry) ∧
        (csum (pkt.take IpHdr.len) = 0 ↔ hdr.NoCarry)) (bareHdrs frames rflow) pkts ∧
      ((∀ pkt ∈ pkts, ValidIp (pkt.take IpHdr.len)) ↔
        ∀ hdr ∈ bareHdrs frames rflow, hdr.NoCarry) := by
  have heach : List.Forall₂ (fun hdr pkt => (ValidIp (pkt.take IpHdr.len) ↔ hdr.NoCarry) ∧
      (csum (pkt.take IpHdr.len) = 0 ↔ hdr.NoCarry)) (bareHdrs frames rflow) pkts := by
    refine (recvFrames_headers h).imp fun hdr pkt hpkt => ?_
    obtain ⟨hvalid, hcsum⟩ := validIp_withCsum hpkt.1
    rw [hpkt.2]
    exact ⟨hvalid, hcsum.trans hvalid⟩
  exact ⟨heach, forall_iff_of_forall₂ (heach.imp fun _ _ hpkt => hpkt.1)⟩

/-- A flow from 192.168.1.1 to 192.168.1.2. -/
def lanFlow (id : UInt16) : Rflow where
  rkey := ⟨1, 0⟩
  hdr := {
    ip := {
      verIhl := 0x45, tos := 0, totLen := 0, id := id, fragOff := 0, ttl := 64,
      protocol := protocolUdp, check := 0, saddr := 0x0101a8c0, daddr := 0x0201a8c0 }
    t := Buffer.fill _ 0 }
  fid := 0
  softTimeout := 0

/-- A UDP frame with one byte of payload. -/
def byteFrame : Mem × UInt16 := (Mem.overlay (fun _ => 0) [0x80, 1, 0, 0, 0, 7], 6)

/-- Two frames of a flow, and two valid headers. -/
theorem checksums_valid_iff_two : ∃ rflow' pkts,
    recvFrames [byteFrame, byteFrame] (lanFlow 1) = some (rflow', pkts) ∧ pkts.length = 2 ∧
      ∀ pkt ∈ pkts, ValidIp (pkt.take IpHdr.len) := by
  have hany : (recvFrames [byteFrame, byteFrame] (lanFlow 1)).any
      (fun r => r.2.length == 2) = true := by
    decide +kernel
  obtain ⟨⟨rflow', pkts⟩, hrecv, hlen⟩ := (Option.any_eq_true _ _).1 hany
  refine ⟨rflow', pkts, hrecv, by simpa using hlen, (checksums_valid_iff hrecv).2.2 ?_⟩
  decide +kernel

/-- The words of the header with the id 0xf87c add up to 0x1ffff. -/
theorem second_carry_lost : ∃ rflow' pkt,
    recvFrames [byteFrame] (lanFlow 0xf87b) = some (rflow', [pkt]) ∧
      ¬ ValidIp (pkt.take IpHdr.len) ∧ csum (pkt.take IpHdr.len) ≠ 0 := by
  have hany : (recvFrames [byteFrame] (lanFlow 0xf87b)).any
      (fun r => r.2.all (fun pkt => csum (pkt.take IpHdr.len) != 0 &&
        sumBe (pkt.take IpHdr.len) % 65535 != 0) && r.2.length == 1) = true := by
    decide +kernel
  obtain ⟨⟨rflow', pkts⟩, hrecv, hpkts⟩ := (Option.any_eq_true _ _).1 hany
  rw [Bool.and_eq_true, beq_iff_eq] at hpkts
  obtain ⟨pkt, rfl⟩ := List.length_eq_one_iff.1 hpkts.2
  have hpkt := List.all_eq_true.1 hpkts.1 pkt (List.mem_singleton_self pkt)
  rw [Bool.and_eq_true, bne_iff_ne, bne_iff_ne] at hpkt
  exact ⟨rflow', pkt, hrecv, fun hvalid => hpkt.2 hvalid.1, hpkt.1⟩

end Ipcf
