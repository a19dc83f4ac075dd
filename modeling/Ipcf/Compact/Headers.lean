import Ipcf.Crc
import Ipcf.Framework.Memory
import Ipcf.Framework.Buffer

/-!
# Headers

The headers of `ipv4.h` and the compact header of `compact.h`.  The fields are those of the C
structures, with 16-bit fields in host order (`ntohs` of what is in memory); 32-bit fields are only
copied and compared, and stay as they are in memory.  A byte that holds two bit fields is one
field here, with functions for its parts.

`csum` is the checksum of an IP header, `lib/csum.c`.
-/

namespace Ipcf

def protocolTcp : UInt8 := 0x06
def protocolUdp : UInt8 := 0x11
def fragFlagMfMask : UInt16 := 0x2000
def fragOffMask : UInt16 := 0x1fff

/-! ## IP -/

/-- `struct iphdr` -/
structure IpHdr where
  verIhl : UInt8
  tos : UInt8
  totLen : UInt16
  id : UInt16
  fragOff : UInt16
  ttl : UInt8
  protocol : UInt8
  check : UInt16
  saddr : UInt32
  daddr : UInt32
deriving DecidableEq

namespace IpHdr

/-- `sizeof(struct iphdr)` -/
def len : ℕ := 20

def version (h : IpHdr) : UInt8 := h.verIhl >>> 4

def ihl (h : IpHdr) : UInt8 := h.verIhl &&& 0xf

/-- The header behind a pointer. -/
def read (m : Mem) : IpHdr where
  verIhl := m 0
  tos := m 1
  totLen := m.be16 2
  id := m.be16 4
  fragOff := m.be16 6
  ttl := m 8
  protocol := m 9
  check := m.be16 10
  saddr := m.le32 12
  daddr := m.le32 16

/-- The header in memory. -/
def bytes (h : IpHdr) : Bytes :=
  [h.verIhl, h.tos] ++ be16 h.totLen ++ be16 h.id ++ be16 h.fragOff ++ [h.ttl, h.protocol] ++
    be16 h.check ++ le32 h.saddr ++ le32 h.daddr

@[simp] lemma length_bytes (h : IpHdr) : h.bytes.length = len := rfl

/-- Reading a header back. -/
lemma read_of_bytes {h : IpHdr} {m : Mem} (hm : ∀ i < len, m i = h.bytes.getD i 0) :
    read m = h := by
  simp only [read, Mem.be16, Mem.le32, Nat.reduceAdd]
  rw [hm 0 (by decide), hm 1 (by decide), hm 2 (by decide), hm 3 (by decide), hm 4 (by decide),
    hm 5 (by decide), hm 6 (by decide), hm 7 (by decide), hm 8 (by decide), hm 9 (by decide),
    hm 10 (by decide), hm 11 (by decide), hm 12 (by decide), hm 13 (by decide), hm 14 (by decide),
    hm 15 (by decide), hm 16 (by decide), hm 17 (by decide), hm 18 (by decide), hm 19 (by decide)]
  obtain ⟨verIhl, tos, totLen, id, fragOff, ttl, protocol, check, saddr, daddr⟩ := h
  have htot := ofBe16_be16 totLen
  have hid := ofBe16_be16 id
  have hfrag := ofBe16_be16 fragOff
  have hcheck := ofBe16_be16 check
  have hsaddr := ofLe32_le32 saddr
  have hdaddr := ofLe32_le32 daddr
  simp only [bytes, be16, le32, List.cons_append, List.nil_append, List.getD_cons_zero,
    List.getD_cons_succ, htot, hid, hfrag, hcheck, hsaddr, hdaddr]

/-- A header that was copied in. -/
lemma read_overlay (m : Mem) (h : IpHdr) (rest : Bytes) : read (m.overlay (h.bytes ++ rest)) = h :=
  read_of_bytes fun _ hi => m.overlay_append_apply rest hi

end IpHdr

/-! ## TCP and UDP -/

def tcpFin : UInt8 := 0x01
def tcpSyn : UInt8 := 0x02
def tcpRst : UInt8 := 0x04
def tcpPsh : UInt8 := 0x08
def tcpAck : UInt8 := 0x10
def tcpUrg : UInt8 := 0x20

/-- `struct tcphdr`; `off` is the byte of `res1` and `doff`, `flags` that of the eight flags. -/
structure TcpHdr where
  source : UInt16
  dest : UInt16
  seq : UInt32
  ackSeq : UInt32
  off : UInt8
  flags : UInt8
  window : UInt16
  check : UInt16
  urgPtr : UInt16
deriving DecidableEq

namespace TcpHdr

/-- `sizeof(struct tcphdr)` -/
def len : ℕ := 20

def doff (h : TcpHdr) : UInt8 := h.off >>> 4

/-- Whether the flag is set. -/
def has (h : TcpHdr) (flag : UInt8) : Bool := h.flags &&& flag != 0

/-- Set the flag, or clear it. -/
def setFlag (h : TcpHdr) (flag : UInt8) (b : Bool) : TcpHdr :=
  { h with flags := if b then h.flags ||| flag else h.flags &&& ~~~flag }

/-- The header behind a pointer. -/
def read (m : Mem) : TcpHdr where
  source := m.be16 0
  dest := m.be16 2
  seq := m.le32 4
  ackSeq := m.le32 8
  off := m 12
  flags := m 13
  window := m.be16 14
  check := m.be16 16
  urgPtr := m.be16 18

/-- The header in memory. -/
def bytes (h : TcpHdr) : Bytes :=
  be16 h.source ++ be16 h.dest ++ le32 h.seq ++ le32 h.ackSeq ++ [h.off, h.flags] ++
    be16 h.window ++ be16 h.check ++ be16 h.urgPtr

@[simp] lemma length_bytes (h : TcpHdr) : h.bytes.length = len := rfl

/-- The header is 20 bytes. -/
lemma read_congr {m m' : Mem} (h : ∀ i < len, m i = m' i) : read m = read m' := by
  simp only [read, Mem.be16, Mem.le32, Nat.reduceAdd]
  rw [h 0 (by decide), h 1 (by decide), h 2 (by decide), h 3 (by decide), h 4 (by decide),
    h 5 (by decide), h 6 (by decide), h 7 (by decide), h 8 (by decide), h 9 (by decide),
    h 10 (by decide), h 11 (by decide), h 12 (by decide), h 13 (by decide), h 14 (by decide),
    h 15 (by decide), h 16 (by decide), h 17 (by decide), h 18 (by decide), h 19 (by decide)]

/-- Reading a header back. -/
lemma read_bytes (h : TcpHdr) : read (fun i => h.bytes.getD i 0) = h := by
  have hsource := ofBe16_be16 h.source
  have hdest := ofBe16_be16 h.dest
  have hseq := ofLe32_le32 h.seq
  have hack := ofLe32_le32 h.ackSeq
  have hwindow := ofBe16_be16 h.window
  have hcheck := ofBe16_be16 h.check
  have hurg := ofBe16_be16 h.urgPtr
  simp only [read, Mem.be16, Mem.le32, Nat.reduceAdd, bytes, be16, le32, List.cons_append,
    List.nil_append, List.getD_cons_zero, List.getD_cons_succ, hsource, hdest, hseq, hack, hwindow,
    hcheck, hurg]

/-- A header that was copied in. -/
lemma read_overlay (m : Mem) (h : TcpHdr) (rest : Bytes) :
    read (m.overlay (h.bytes ++ rest)) = h :=
  (read_congr fun _ hi => m.overlay_append_apply rest hi).trans (read_bytes h)

end TcpHdr

/-- `struct udphdr` -/
structure UdpHdr where
  source : UInt16
  dest : UInt16
  len : UInt16
  check : UInt16
deriving DecidableEq

namespace UdpHdr

/-- `sizeof(struct udphdr)` -/
def size : ℕ := 8

/-- The header behind a pointer. -/
def read (m : Mem) : UdpHdr where
  source := m.be16 0
  dest := m.be16 2
  len := m.be16 4
  check := m.be16 6

/-- The header in memory. -/
def bytes (h : UdpHdr) : Bytes := be16 h.source ++ be16 h.dest ++ be16 h.len ++ be16 h.check

@[simp] lemma length_bytes (h : UdpHdr) : h.bytes.length = size := rfl

/-- The header is 8 bytes. -/
lemma read_congr {m m' : Mem} (h : ∀ i < size, m i = m' i) : read m = read m' := by
  simp only [read, Mem.be16, Nat.reduceAdd]
  rw [h 0 (by decide), h 1 (by decide), h 2 (by decide), h 3 (by decide), h 4 (by decide),
    h 5 (by decide), h 6 (by decide), h 7 (by decide)]

/-- A header that was copied in. -/
lemma read_overlay (m : Mem) (h : UdpHdr) (rest : Bytes) :
    read (m.overlay (h.bytes ++ rest)) = h := by
  have hm : ∀ i < size, m.overlay (h.bytes ++ rest) i = h.bytes.getD i 0 :=
    fun _ hi => m.overlay_append_apply rest hi
  simp only [read, Mem.be16, Nat.reduceAdd]
  rw [hm 0 (by decide), hm 1 (by decide), hm 2 (by decide), hm 3 (by decide), hm 4 (by decide),
    hm 5 (by decide), hm 6 (by decide), hm 7 (by decide)]
  have hsource := ofBe16_be16 h.source
  have hdest := ofBe16_be16 h.dest
  have hlen := ofBe16_be16 h.len
  have hcheck := ofBe16_be16 h.check
  simp only [bytes, be16, List.cons_append, List.nil_append, List.getD_cons_zero,
    List.getD_cons_succ, hsource, hdest, hlen, hcheck]

end UdpHdr

/-! ## The compact header -/

def ctypeFrmCtl : UInt8 := 0
def ctypeFrmTcp : UInt8 := 1
def ctypeFrmUdp : UInt8 := 2
def ctypeFrmRaw : UInt8 := 3
def ctypeCtlReq : UInt8 := 1
def ctypeCtlAck : UInt8 := 2
def ctypeCtlFlt : UInt8 := 3
def ctypeTcpSbit : UInt8 := 0x20
def ctypeTcpAbit : UInt8 := 0x10
def ctypeTcpWbit : UInt8 := 0x08
def ctypeTcpUrg : UInt8 := 0x0
def ctypeTcpSyn : UInt8 := 0x1
def ctypeTcpFin : UInt8 := 0x2
def ctypeTcpRst : UInt8 := 0x3
def ctypeTcpPsh : UInt8 := 0x4
def ctypeTcpUrgsyn : UInt8 := 0x5
def ctypeTcpUrgfin : UInt8 := 0x6
def ctypeTcpUrgpsh : UInt8 := 0x7
def ctypeTcpSbmask : UInt8 := 0x7
def ctypeRawFbit : UInt8 := 0x20
def ctypeRawMfbit : UInt8 := 0x10

/-- `chdr_t` -/
structure Chdr where
  i : UInt8
  t : UInt8
  smac : UInt8
  id : UInt8
deriving DecidableEq

namespace Chdr

/-- `sizeof(chdr_t)` -/
def len : ℕ := 3

/-- The header behind a pointer: `i` is the low six bits of the first byte, `t` the other two. -/
def read (m : Mem) : Chdr where
  i := m 0 &&& 0x3f
  t := m 0 >>> 6
  smac := m 1
  id := m 2

/-- The header in memory. -/
def bytes (h : Chdr) : Bytes := [h.t <<< 6 ||| h.i &&& 0x3f, h.smac, h.id]

@[simp] lemma length_bytes (h : Chdr) : h.bytes.length = len := rfl

/-- A header that was copied in, if its bit fields are not too wide. -/
lemma read_overlay (m : Mem) {i t : UInt8} (smac id : UInt8) (ht : t < 4) (hi : i < 64)
    (rest : Bytes) : read (m.overlay (bytes ⟨i, t, smac, id⟩ ++ rest)) = ⟨i, t, smac, id⟩ := by
  have hbits : ∀ t < 4, ∀ i < 64,
      (UInt8.ofNat t <<< 6 ||| UInt8.ofNat i &&& 0x3f) &&& 0x3f = UInt8.ofNat i ∧
        (UInt8.ofNat t <<< 6 ||| UInt8.ofNat i &&& 0x3f) >>> 6 = UInt8.ofNat t := by
    decide +kernel
  have hfirst := hbits t.toNat (UInt8.lt_iff_toNat_lt.1 ht) i.toNat (UInt8.lt_iff_toNat_lt.1 hi)
  simp only [UInt8.ofNat_toNat] at hfirst
  change Chdr.mk ((t <<< 6 ||| i &&& 0x3f) &&& 0x3f) ((t <<< 6 ||| i &&& 0x3f) >>> 6) smac id = _
  rw [hfirst.1, hfirst.2]

end Chdr

/-! ## The checksum -/

/-- `csum_continue` -/
def csumContinue (sum : UInt32) : Bytes → UInt32
  | a :: b :: data => csumContinue (sum + (ofLe16 a b).toUInt32) data
  | [a] => sum + a.toUInt32
  | [] => sum

/-- `csum_finish` -/
def csumFinish (sum : UInt32) : UInt16 :=
  let low : UInt32 := sum &&& 0xffff
  let high : UInt32 := sum >>> 16
  ~~~(low + high).toUInt16

/-- `csum` -/
def csum (data : Bytes) : UInt16 := csumFinish (csumContinue 0 data)

end Ipcf
