import Ipcf.Compact.Plain
import Ipcf.Split.Exchange

/-!
# The pipeline

`recv_tun` and `recv_unsplit` of `test.c`: a packet from the tun device is compressed, what comes
out is handed to `upper_send`, and on the other side the messages that `upper_recv` returns go
to `recv_compress`, which makes the packets for the tun device there.

The two layers count bytes in different ways.  `upper_send` may accept only the first part of a
message, which `recv_tun` reports and ignores; `recv_untouched_ip` copies as many bytes as the
header says, whatever was received.  So an uncompressed packet that is accepted in part comes
out at its full length, with the end filled from what the buffer held before.
`pipeline_iff` is the exact condition for an uncompressed packet to come out as it is, if it comes
out; `pipeline_stale` is a packet that does not.
-/

namespace Ipcf

/-- The size of the buffers in `test.c`. -/
def maxBufSize : ℕ := 2000

/-- One round of the loop of `recv_unsplit` with a buffer that holds `buf`, up to the packet for
the tun device: there is none when there was no message, when `recv_compress` makes none, or when
the program has ended. -/
def recvUnsplit (now : ℤ) (fresh : Fresh) (buf : Mem) (b : Split) (s : Compact) : Option Bytes :=
  let msg := (upperRecv maxBufSize b).2.1
  if msg = [] then none
  else
    match recvCompress now fresh (buf.overlay msg) msg.length s with
    | .ok d => d.ippkt
    | .error _ => none

/-- The endpoint after `i` messages were taken from it. -/
def afterRecv (b : Split) : ℕ → Split
  | 0 => b
  | i + 1 => afterRecv (upperRecv maxBufSize b).1 i

/-! ## Messages, by their place -/

lemma upperRecvList_afterRecv (b : Split) (i : ℕ) :
    (afterRecv b i).upperRecvList = b.upperRecvList.drop i := by
  induction i generalizing b with
  | zero => rfl
  | succ i ih =>
    rw [afterRecv, ih, upperRecv]
    cases hlist : b.upperRecvList with
    | nil => simp [hlist]
    | cons r rs => rfl

/-- What `recv_unsplit` does with the message in place `i`, which fits into its buffer. -/
lemma recvUnsplit_afterRecv {b : Split} {i : ℕ} {msg : Bytes}
    (hmsg : b.upperRecvList[i]? = some msg)
    (hlen : msg.length ≤ maxBufSize) (hne : msg ≠ []) (now : ℤ) (fresh : Fresh) (buf : Mem)
    (s : Compact) :
    recvUnsplit now fresh buf (afterRecv b i) s =
      match recvCompress now fresh (buf.overlay msg) msg.length s with
      | .ok d => d.ippkt
      | .error _ => none := by
  have hlist : ∃ rs, (afterRecv b i).upperRecvList = msg :: rs := by
    rw [upperRecvList_afterRecv]
    obtain ⟨hi, hget⟩ := List.getElem?_eq_some_iff.1 hmsg
    exact ⟨_, by rw [List.drop_eq_getElem_cons hi, hget]⟩
  obtain ⟨rs, hlist⟩ := hlist
  have hrecv : (upperRecv maxBufSize (afterRecv b i)).2.1 = msg := by
    rw [upperRecv, hlist]
    exact List.take_of_length_le hlen
  rw [recvUnsplit, hrecv]
  simp only [if_neg hne]

lemma recvUnsplit_none {b : Split} {i : ℕ} (hmsg : b.upperRecvList[i]? = none) (now : ℤ)
    (fresh : Fresh) (buf : Mem) (s : Compact) :
    recvUnsplit now fresh buf (afterRecv b i) s = none := by
  have hlist : (afterRecv b i).upperRecvList = [] := by
    rw [upperRecvList_afterRecv, List.drop_eq_nil_iff]
    exact List.getElem?_eq_none_iff.1 hmsg
  rw [recvUnsplit, upperRecv, hlist]
  simp

/-! ## What is accepted -/

section

variable {smac dmac : UInt8} {ds qs : List Packet} {x : Link} {n : ℕ}

/-- The part of one more message that is accepted: all of it exactly when its DATA frame fits. -/
lemma LinkInv.accepted_upperSend (h : LinkInv smac dmac ds qs x) (now : ℤ) (stack : Stack)
    {msg : Bytes} (hmsg : msg ≠ []) :
    ∃ r, r ≤ msg.length ∧ (upperSend now stack smac dmac msg x.a).2 = r ∧
      (x.upperSend now stack smac dmac msg).accepted = x.accepted ++ [msg.take r] ∧
      (r = msg.length ↔ msg.length ≤ sliceDataLen * maxSliceNum ∧
        dataLen smac dmac (UInt8.ofNat x.accepted.length) msg ≤ linkMtu) ∧
      (r = msg.length ∨ sliceDataLen ≤ r) := by
  obtain ⟨p, hret, htake, -⟩ := waits_upperSend h.waits now stack hmsg
  have hseq : ((getSse now dmac x.a).getD (createSse now)).seq = UInt8.ofNat x.accepted.length := by
    rw [h.accepted, List.length_map, ← h.next, seq_getSse]
  obtain ⟨hwhole, hslice⟩ := upperSendSse_length now stack smac dmac hmsg
    ((getSse now dmac x.a).getD (createSse now))
  have hlen : ¬ msg.length ≤ 0 := Nat.not_le.2 (List.length_pos_iff.2 hmsg)
  have heq : (upperSendSse now stack smac dmac msg
      ((getSse now dmac x.a).getD (createSse now))).2 = p.payload.length := by
    rw [← hret, upperSend, if_neg hlen]
  rw [heq, hseq] at hwhole
  rw [heq] at hslice
  simp only [Nat.cast_inj, Nat.cast_le] at hwhole hslice
  have hpos : 0 < (p.payload.length : ℤ) :=
    Int.natCast_pos.2 (List.length_pos_iff.2 p.payload_ne)
  refine ⟨p.payload.length, ?_, hret, ?_, hwhole, hslice⟩
  · rw [htake]
    exact List.length_take_le' _ _
  · simp only [Link.upperSend, Link.accepted, List.filterMap_append, hret, List.filterMap_cons,
      List.filterMap_nil, if_pos hpos, Int.toNat_natCast]

/-- The last of the accepted messages is submitted at some point if and only if all of them fit;
what is submitted in its place is it. -/
lemma LinkInv.delivered_last (h : LinkInv smac dmac ds qs x) (hphase : Phase smac dmac ds x qs n)
    (env : ℕ → Transfer) {earlier : List Bytes} {m : Bytes} (hlast : x.accepted = earlier ++ [m]) :
    ((∃ k, (x.exchange env k).b.upperRecvList[earlier.length]? = some m) ↔
      ∀ p ∈ ds ++ qs, p.PatchFits smac dmac) ∧
    ∀ k, (x.exchange env k).b.upperRecvList[earlier.length]? = some m ∨
      (x.exchange env k).b.upperRecvList[earlier.length]? = none := by
  have hlen : (ds ++ qs).length = earlier.length + 1 := by
    have := congrArg List.length (h.accepted.symm.trans hlast)
    simpa using this
  have hsub : ∀ k, ∃ ps rest, ds ++ qs = ps ++ rest ∧
      (x.exchange env k).b.upperRecvList = ps.map Packet.payload ∧
      ∀ p ∈ ps, p.PatchFits smac dmac := by
    intro k
    obtain ⟨ds', qs', n', hps, hinv, hphase', -⟩ := exchange_moves h hphase env k
    rw [← hps]
    exact hinv.upper hphase'
  have hget : ∀ k msg, (x.exchange env k).b.upperRecvList[earlier.length]? = some msg →
      msg = m ∧ ∀ p ∈ ds ++ qs, p.PatchFits smac dmac := by
    intro k msg hmsg
    obtain ⟨ps, rest, hps, hupper, hfits⟩ := hsub k
    rw [hupper] at hmsg
    have hle : earlier.length < ps.length := by
      obtain ⟨hi, -⟩ := List.getElem?_eq_some_iff.1 hmsg
      rwa [List.length_map] at hi
    have hrest : rest = [] := by
      rw [← List.length_eq_zero_iff]
      have hsum := congrArg List.length hps
      rw [hlen, List.length_append] at hsum
      omega
    rw [hrest, List.append_nil] at hps
    refine ⟨?_, hps ▸ hfits⟩
    rw [← hps, ← h.accepted, hlast, List.getElem?_concat_length] at hmsg
    exact (Option.some.inj hmsg).symm
  refine ⟨⟨fun ⟨k, hk⟩ => (hget k m hk).2, fun hfits => ?_⟩, fun k => ?_⟩
  · obtain ⟨k, hk⟩ := (h.transferred_iff hphase env).2 hfits
    obtain ⟨ds', qs', n', hps, hinv, -, -⟩ := exchange_moves h hphase env k
    refine ⟨k, ?_⟩
    rw [hk.submitted, hinv.accepted, hps, ← h.accepted, hlast, List.getElem?_concat_length]
  · cases hmsg : (x.exchange env k).b.upperRecvList[earlier.length]? with
    | none => exact .inr rfl
    | some msg => exact .inl (congrArg some (hget k msg hmsg).1)

end

/-! ## What comes out -/

section

variable {ippkt : Mem} {r : ℕ}

/-- The front of an IP packet comes out at the full length of the packet. -/
lemma recvCompress_front (hipv4 : isIpv4 ippkt = true) (hmin : IpHdr.len ≤ r)
    (hmax : (IpHdr.read ippkt).totLen.toNat ≤ maxDataLength) (now : ℤ) (fresh : Fresh) (buf : Mem)
    (len : ℕ) (s : Compact) :
    recvCompress now fresh (buf.overlay (ippkt.read 0 r)) len s =
      .ok ⟨s, some ((buf.overlay (ippkt.read 0 r)).read 0 (IpHdr.read ippkt).totLen.toNat),
        none⟩ := by
  have hsame : ∀ i < IpHdr.len, buf.overlay (ippkt.read 0 r) i = ippkt i :=
    fun i hi => Mem.overlay_read_apply (Nat.lt_of_lt_of_le hi hmin)
  have htot : (IpHdr.read (buf.overlay (ippkt.read 0 r))).totLen = (IpHdr.read ippkt).totLen := by
    simp only [IpHdr.read, Mem.be16]
    rw [hsame 2 (by decide), hsame (2 + 1) (by decide)]
  rw [recvCompress, if_pos ((isIpv4_congr hsame).trans hipv4), recvUntouchedIp, htot, if_pos hmax]

/-- What comes out is the packet for every old content of the buffer only if all of it was
received. -/
lemma overlay_read_eq_iff {n : ℕ} (hr : r ≤ n) :
    (∀ buf : Mem, (buf.overlay (ippkt.read 0 r)).read 0 n = ippkt.read 0 n) ↔ r = n := by
  constructor
  · intro hall
    by_contra hne
    have hlt : r < n := Nat.lt_of_le_of_ne hr hne
    have hbyte := congrArg (fun l => l[r]?) (hall fun i => ippkt i + 1)
    simp only [Mem.getElem?_read, if_pos hlt, Nat.zero_add] at hbyte
    rw [Mem.overlay_apply_of_ge (by rw [Mem.length_read])] at hbyte
    simp at hbyte
  · rintro rfl buf
    apply Mem.read_congr
    intro i hi
    rw [Nat.zero_add]
    exact Mem.overlay_read_apply hi

end

/-- Whatever `recv_unsplit` makes of the message in place `i`, in the course of the exchange, with
whatever in its buffer and in whatever state, is the packet `p`. -/
def ComesOut (env : ℕ → Transfer) (x : Link) (i : ℕ) (p : Bytes) : Prop :=
  ∀ (k : ℕ) (now : ℤ) (fresh : Fresh) (buf : Mem) (s : Compact) (q : Bytes),
    recvUnsplit now fresh buf (afterRecv (x.exchange env k).b i) s = some q → q = p

section

variable {ippkt : Mem}

/-- The packet is the message behind those that were handed over before, on a link in any state
of its exchange. -/
lemma LinkInv.comesOut_iff {smac dmac : UInt8} {ds qs : List Packet} {x : Link} {n : ℕ}
    (h : LinkInv smac dmac ds qs x) (hphase : Phase smac dmac ds x qs n) (env : ℕ → Transfer)
    (now : ℤ) (stack : Stack) (hipv4 : isIpv4 ippkt = true)
    (hmin : IpHdr.len ≤ (IpHdr.read ippkt).totLen.toNat)
    (hmax : (IpHdr.read ippkt).totLen.toNat ≤ maxDataLength) {p : Bytes}
    (hp : p = ippkt.read 0 (IpHdr.read ippkt).totLen.toNat) :
    ComesOut env (x.upperSend now stack smac dmac p) x.accepted.length p ↔
      (p.length ≤ sliceDataLen * maxSliceNum ∧
          dataLen smac dmac (UInt8.ofNat x.accepted.length) p ≤ linkMtu) ∨
        ¬ ∀ i m, (x.upperSend now stack smac dmac p).accepted[i]? = some m →
          patchLen smac dmac (UInt8.ofNat i) m ≤ linkMtu + 1 := by
  set tot := (IpHdr.read ippkt).totLen.toNat with htot
  have hplen : p.length = tot := by rw [hp, Mem.length_read]
  have hpne : p ≠ [] := by
    rw [← List.length_pos_iff, hplen]
    exact Nat.lt_of_lt_of_le (by decide) hmin
  obtain ⟨r, hr, -, haccepted, hwhole, hslice⟩ := h.accepted_upperSend now stack hpne
  obtain ⟨qs', n', hinv, hphase'⟩ := exchange_upperSend h hphase now stack p
  obtain ⟨hdelivered, hplace⟩ := hinv.delivered_last hphase' env haccepted
  rw [← hwhole, ← hinv.patchFits_iff, hplen]
  rw [hplen] at hr hslice
  have hrmin : IpHdr.len ≤ r := by
    rcases hslice with rfl | hslice
    · exact hmin
    · exact Nat.le_trans (by decide) hslice
  have hmsg : p.take r = ippkt.read 0 r := by rw [hp, Mem.take_read _ _ hr]
  have hmsglen : (p.take r).length ≤ maxBufSize := by
    rw [hmsg, Mem.length_read]
    exact Nat.le_trans hr hmax
  have hmsgne : p.take r ≠ [] := by
    rw [← List.length_pos_iff, hmsg, Mem.length_read]
    exact Nat.lt_of_lt_of_le (by decide) hrmin
  -- what comes out, when the message is there
  have hout : ∀ k now' fresh buf s,
      ((x.upperSend now stack smac dmac p).exchange env k).b.upperRecvList[x.accepted.length]? =
        some (p.take r) →
      recvUnsplit now' fresh buf
        (afterRecv ((x.upperSend now stack smac dmac p).exchange env k).b x.accepted.length) s =
        some ((buf.overlay (ippkt.read 0 r)).read 0 tot) := by
    intro k now' fresh buf s hk
    rw [recvUnsplit_afterRecv hk hmsglen hmsgne, hmsg, recvCompress_front hipv4 hrmin hmax]
  constructor
  · intro hcomes
    by_cases hfits : ∀ q ∈ ds ++ qs', q.PatchFits smac dmac
    · left
      obtain ⟨k, hk⟩ := hdelivered.2 hfits
      rw [← overlay_read_eq_iff hr]
      intro buf
      rw [← hp]
      exact hcomes k 0 default buf compactInit _ (hout k 0 default buf compactInit hk)
    · exact .inr hfits
  · rintro hcond k now' fresh buf s q hq
    rcases hplace k with hk | hk
    · rw [hout k now' fresh buf s hk] at hq
      rcases hcond with hall | hstuck
      · rw [← Option.some.inj hq, hp]
        exact (overlay_read_eq_iff hr).2 hall buf
      · exact absurd (hdelivered.1 ⟨k, hk⟩) hstuck
    · rw [recvUnsplit_none hk] at hq
      cases hq

/-- **The pipeline.**  A packet with a header of 20 bytes and a right checksum is sent uncompressed
and handed to `upper_send` behind whatever was sent before, and frames are moved.  It comes out as
it is, if anything comes out, exactly when all of it is accepted: it has at most 864 bytes and its
DATA frame fits into the MTU.  Otherwise nothing comes out only when the exchange gets stuck
before. -/
theorem pipeline_iff {s : Compact} (hplain : sendsPlain ippkt s = true)
    (hversion : (IpHdr.read ippkt).version = 4) (hihl : (IpHdr.read ippkt).ihl = 5)
    (hcsum : csum (ippkt.read 0 IpHdr.len) = 0)
    (hmin : IpHdr.len ≤ (IpHdr.read ippkt).totLen.toNat)
    (hmax : (IpHdr.read ippkt).totLen.toNat ≤ maxDataLength) (now : ℤ) (fresh : Fresh)
    (ops : List LinkOp) (nowA : ℤ) (stack : Stack) (env : ℕ → Transfer) :
    ∃ s' pkts pkt, xmitCompress now fresh ippkt s = some (s', pkts) ∧ pkt ∈ pkts ∧
      pkt.builder = .plain ∧ pkt.data = ippkt.read 0 (IpHdr.read ippkt).totLen.toNat ∧
      (ComesOut env ((Link.run 2 1 ops).upperSend nowA stack 2 1 pkt.data)
          (Link.run 2 1 ops).accepted.length pkt.data ↔
        (pkt.data.length ≤ sliceDataLen * maxSliceNum ∧
          dataLen 2 1 (UInt8.ofNat (Link.run 2 1 ops).accepted.length) pkt.data ≤ linkMtu) ∨
        ¬ ∀ i m, ((Link.run 2 1 ops).upperSend nowA stack 2 1 pkt.data).accepted[i]? = some m →
          patchLen 2 1 (UInt8.ofNat i) m ≤ linkMtu + 1) := by
  have hipv4 : isIpv4 ippkt = true := by
    rw [isIpv4, hversion, hihl, hcsum]
    decide
  have hpkt : addToPktList ippkt (IpHdr.read ippkt).totLen =
      some ⟨ippkt.read 0 (IpHdr.read ippkt).totLen.toNat, .plain⟩ := by
    rw [addToPktList, if_pos hmax]
  obtain ⟨s', pkts, hxmit, hmem⟩ := xmit_of_sendsPlain hplain hpkt
  obtain ⟨ds, qs, n, hinv, hphase⟩ := exchange_run 2 1 ops
  exact ⟨s', pkts, _, hxmit, hmem, rfl, rfl,
    hinv.comesOut_iff hphase env nowA stack hipv4 hmin hmax rfl⟩

end

/-! ## Two packets -/

instance : Inhabited Transfer := ⟨⟨0, default, linkMtu, Nat.le_refl _, true⟩⟩

/-- A UDP packet of 900 bytes. -/
def longPacket : Bytes :=
  [0x45, 0x00, 0x03, 0x84, 0x00, 0x01, 0x00, 0x00, 0x40, 0x11, 0x63, 0x66, 0x0a, 0x00, 0x00, 0x01,
    0x0a, 0x00, 0x00, 0x02, 0x00, 0x07, 0x00, 0x07, 0x03, 0x70, 0x00, 0x00] ++ List.replicate 872 0

set_option maxRecDepth 20000 in
/-- The first packet of its flow: 864 of its bytes are accepted, and come out with 36 others behind
them. -/
theorem pipeline_stale :
    (∃ s' pkts, xmitCompress 0 default (Mem.overlay (fun _ => 0) longPacket) compactInit =
      some (s', pkts) ∧ ⟨longPacket, .plain⟩ ∈ pkts) ∧
    ¬ ComesOut (fun _ => default) ((Link.run 2 1 []).upperSend 0 default 2 1 longPacket)
      (Link.run 2 1 []).accepted.length longPacket := by
  have hlen : longPacket.length = 900 := by
    rw [longPacket, List.length_append, List.length_replicate]
    rfl
  have htot : (IpHdr.read (Mem.overlay (fun _ => 0) longPacket)).totLen.toNat = 900 := by decide
  have hdata : longPacket = Mem.read (Mem.overlay (fun _ => 0) longPacket) 0
      (IpHdr.read (Mem.overlay (fun _ => 0) longPacket)).totLen.toNat := by
    rw [htot, Mem.read_overlay _ (Nat.le_of_eq hlen.symm), List.take_of_length_le]
    exact Nat.le_of_eq hlen
  have hpkt : addToPktList (Mem.overlay (fun _ => 0) longPacket)
      (IpHdr.read (Mem.overlay (fun _ => 0) longPacket)).totLen = some ⟨longPacket, .plain⟩ := by
    rw [addToPktList, ← hdata, htot, if_pos (by decide)]
  have hipv4 : isIpv4 (Mem.overlay (fun _ => 0) longPacket) = true := by decide
  refine ⟨xmit_of_sendsPlain (by decide +kernel) hpkt, fun hout => ?_⟩
  obtain ⟨ds, qs, n, hinv, hphase⟩ := exchange_run 2 1 []
  rw [hinv.comesOut_iff hphase (fun _ => default) 0 default hipv4 (by rw [htot]; decide)
    (by rw [htot]; decide) hdata] at hout
  rcases hout with hwhole | hstuck
  · have hshort : ¬ 900 ≤ sliceDataLen * maxSliceNum := by decide
    rw [hlen] at hwhole
    exact hshort hwhole.1
  · have hne : longPacket ≠ [] := List.cons_ne_nil _ _
    obtain ⟨r, -, hret, haccepted, -⟩ := hinv.accepted_upperSend 0 default hne
    have hret' : (upperSend 0 default 2 1 longPacket (Link.run 2 1 []).a).2 = (864 : ℕ) := by
      decide +kernel
    have hpatch : patchLen 2 1 (UInt8.ofNat 0) (longPacket.take 864) ≤ linkMtu + 1 := by
      decide +kernel
    obtain rfl : r = 864 := by
      rw [hret', Nat.cast_inj] at hret
      exact hret.symm
    apply hstuck
    intro i m hm
    rw [haccepted] at hm
    cases i with
    | zero =>
      rw [← Option.some.inj hm]
      exact hpatch
    | succ i => cases hm

/-- The first packet of a flow, on a fresh link. -/
theorem pipeline_iff_udp : ∃ s' pkts pkt,
    xmitCompress 0 default (Mem.overlay (fun _ => 0) udpPacket) compactInit = some (s', pkts) ∧
      pkt ∈ pkts ∧ pkt.builder = .plain ∧
      ComesOut (fun _ => default) ((Link.run 2 1 []).upperSend 0 default 2 1 pkt.data) 0
        pkt.data := by
  obtain ⟨s', pkts, pkt, hxmit, hmem, hbuilder, hdata, hiff⟩ := @pipeline_iff
    (Mem.overlay (fun _ => 0) udpPacket) compactInit (by decide +kernel) (by decide) (by decide)
    (by decide) (by decide) (by decide) 0 default [] 0 default fun _ => default
  refine ⟨s', pkts, pkt, hxmit, hmem, hbuilder, hiff.2 (.inl ?_)⟩
  rw [hdata]
  decide +kernel

end Ipcf
