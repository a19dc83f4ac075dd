import Ipcf.Compact.Conveyed
import Ipcf.Framework.Links

/-!
# The list of packets

`xmit_compress` once more, with the list that it fills: the packets it allocates are nodes, and
`list_push_back` links them.  `xmitList_contents` connects it with `xmitCompress`: the packets that
are pushed, in order, are the result there.

`WellFormed` is what `recv_tun` needs of the list.  The RAW branch of `build_cpkt` pushes its
packet, and so does the end of the function, which breaks the list.  And a copy that leaves the
packet, or whose length is negative, ends the program before it has a list.  `wellFormed_iff`:
nothing else is in the way.  `PktLoop` is the loop of `recv_tun` step by step, for the model of the
whole program.
-/

namespace Ipcf

/-- `pkt_list`, at the address 0, with the packets that were allocated, at the addresses from 1 on,
and the addresses that were pushed, in order. -/
structure PktList where
  links : Links
  pkts : List Pkt
  pushed : List ℕ

namespace PktList

/-- `list_init` on a list in any state. -/
def init (links : Links) : PktList := ⟨links.listInit 0, [], []⟩

/-- `xmalloc`, with what the packet will contain; its address. -/
def alloc (l : PktList) (pkt : Pkt) : PktList × ℕ :=
  ({ l with pkts := l.pkts ++ [pkt] }, l.pkts.length + 1)

/-- `list_push_back` -/
def push (l : PktList) (elem : ℕ) : PktList :=
  { l with links := l.links.listPushBack 0 elem, pushed := l.pushed ++ [elem] }

/-- The addresses of the packets. -/
def allocated (l : PktList) : List ℕ := (List.range l.pkts.length).map (· + 1)

/-- Allocate a packet and push it. -/
def pushPkt (l : PktList) (pkt : Pkt) : PktList :=
  let r := l.alloc pkt
  r.1.push r.2

/-- `add_to_pkt_list` -/
def addToPktList (data : Mem) (len : UInt16) (l : PktList) : Option PktList :=
  (Ipcf.addToPktList data len).map l.pushPkt

/-- `build_ctl` -/
def buildCtl (sflow : Sflow) (l : PktList) : PktList := l.pushPkt (Ipcf.buildCtl sflow)

/-- `build_cpkt`: the RAW branch pushes the packet before the end of the function does. -/
def buildCpkt (fresh : Fresh) (sflow : Sflow) (ippkt : Mem) (l : PktList) : Option PktList :=
  let iphdr := IpHdr.read ippkt
  if sflow.skey.ipid ≠ 0 then
    (buildRaw sflow ippkt).map fun pkt =>
      let r := l.alloc pkt
      let l := r.1.push r.2
      l.push r.2
  else if iphdr.protocol = protocolTcp then (buildTcp sflow ippkt).map l.pushPkt
  else if iphdr.protocol = protocolUdp then (buildUdp sflow ippkt).map l.pushPkt
  else some (l.pushPkt (buildBare fresh sflow))

/-- `xmit_compress` from the switch on the state of the flow on. -/
def xmitSflow (fresh : Fresh) (ippkt : Mem) (sflow : Sflow) (l : PktList) : Option PktList :=
  let len := (IpHdr.read ippkt).totLen
  match sflow.state with
  | .new => addToPktList ippkt len (buildCtl sflow l)
  | .pending => addToPktList ippkt len l
  | .established => buildCpkt fresh sflow ippkt l

/-- `xmit_compress`: what becomes of the list. -/
def xmitList (now : ℤ) (fresh : Fresh) (ippkt : Mem) (s : Compact) (links : Links) :
    Option PktList :=
  let l := init links
  if cannotCompact ippkt then addToPktList ippkt (IpHdr.read ippkt).totLen l
  else
    let skey := getSflowKey ippkt
    match s.getSflow skey with
    | some sflow => xmitSflow fresh ippkt sflow l
    | none =>
      match getId s.idp with
      | (none, _) => some l
      | (some fid, idp) =>
        xmitSflow fresh ippkt
          ({ s with idp := idp }.buildSflow now fresh skey ippkt (UInt8.ofNat fid)).2 l

/-- The packet at an address. -/
def pktAt (l : PktList) (addr : ℕ) : Option Pkt := l.pkts[addr - 1]?

/-- The list is circular with every allocated packet on it once, and the loop of `recv_tun` frees
each packet once and ends. -/
structure WellFormed (l : PktList) : Prop where
  circular : ∃ xs, l.links.Circular 0 xs ∧ xs.Perm l.allocated
  freed : ∃ fuel xs, Links.forEachFree 0 fuel (l.links.next 0) l.links [] = some xs ∧
    xs.Perm l.allocated

/-! ## Pushing a new packet -/

/-- The packets that were allocated are on the list, in order. -/
structure Good (l : PktList) : Prop where
  circular : l.links.Circular 0 l.pushed
  pushed : l.pushed = l.allocated

lemma good_init (links : Links) : (init links).Good :=
  ⟨Links.circular_listInit links 0, rfl⟩

variable {l : PktList}

lemma allocated_pushPkt (l : PktList) (pkt : Pkt) :
    (l.pushPkt pkt).allocated = l.allocated ++ [l.pkts.length + 1] := by
  change (List.range (l.pkts ++ [pkt]).length).map (· + 1) = l.allocated ++ [l.pkts.length + 1]
  rw [allocated, List.length_append, List.length_singleton, List.range_succ, List.map_append]
  rfl

lemma Good.pushPkt (h : l.Good) (pkt : Pkt) : (l.pushPkt pkt).Good := by
  have hnew : l.pkts.length + 1 ∉ 0 :: l.pushed := by
    rw [h.pushed, allocated]
    simp
  refine ⟨h.circular.listPushBack hnew, ?_⟩
  rw [allocated_pushPkt, ← h.pushed]
  rfl

lemma Good.wellFormed (h : l.Good) : l.WellFormed where
  circular := ⟨l.pushed, h.circular, List.Perm.of_eq h.pushed⟩
  freed := ⟨l.pushed.length + 1, l.pushed, h.circular.forEachFree_eq [] (by simp)
    (Nat.lt_succ_self _), List.Perm.of_eq h.pushed⟩

/-- A packet that is pushed twice leads to itself. -/
lemma next_twice (links : Links) (pkt : Pkt) :
    ((((init links).alloc pkt).1.push 1).push 1).links.next 1 = 1 := by
  change (((links.listInit 0).listInsert 0 1).listInsert 0 1).next 1 = 1
  rw [Links.next_listInsert _ Nat.one_ne_zero, Links.prev_listInsert, if_pos rfl, if_pos rfl]

lemma not_wellFormed_twice (links : Links) (pkt : Pkt) :
    ¬ ((((init links).alloc pkt).1.push 1).push 1).WellFormed := by
  rintro ⟨⟨xs, hcircular, hperm⟩, -⟩
  have hxs : xs = [1] := List.perm_singleton.1 hperm
  rw [hxs] at hcircular
  have hnext : ((((init links).alloc pkt).1.push 1).push 1).links.next 1 = 0 :=
    hcircular.seg.2.1
  rw [next_twice] at hnext
  exact Nat.one_ne_zero hnext

/-! ## What is pushed -/

/-- Every packet that is allocated is pushed, once or twice. -/
def Pushed (l : PktList) : Prop := l.allocated ⊆ l.pushed

lemma Pushed.pushPkt (h : l.Pushed) (pkt : Pkt) : (l.pushPkt pkt).Pushed := by
  rw [Pushed, allocated_pushPkt]
  exact List.append_subset.2 ⟨List.subset_append_of_subset_left _ h, List.subset_append_right _ _⟩

lemma Pushed.push (h : l.Pushed) (elem : ℕ) : (l.push elem).Pushed :=
  List.subset_append_of_subset_left _ h

lemma Pushed.buildCpkt (h : l.Pushed) {fresh : Fresh} {sflow : Sflow} {ippkt : Mem} {l' : PktList}
    (hl' : buildCpkt fresh sflow ippkt l = some l') : l'.Pushed := by
  rw [PktList.buildCpkt] at hl'
  simp only at hl'
  split_ifs at hl'
  · obtain ⟨pkt, -, rfl⟩ := Option.map_eq_some_iff.1 hl'
    exact (h.pushPkt pkt).push _
  · obtain ⟨pkt, -, rfl⟩ := Option.map_eq_some_iff.1 hl'
    exact h.pushPkt pkt
  · obtain ⟨pkt, -, rfl⟩ := Option.map_eq_some_iff.1 hl'
    exact h.pushPkt pkt
  · obtain rfl := Option.some.inj hl'
    exact h.pushPkt _

lemma Pushed.xmitSflow (h : l.Pushed) {fresh : Fresh} {ippkt : Mem} {sflow : Sflow} {l' : PktList}
    (hl' : xmitSflow fresh ippkt sflow l = some l') : l'.Pushed := by
  rw [PktList.xmitSflow] at hl'
  cases hstate : sflow.state with
  | new =>
    rw [hstate] at hl'
    obtain ⟨pkt, -, rfl⟩ := Option.map_eq_some_iff.1 hl'
    exact (h.pushPkt _).pushPkt pkt
  | pending =>
    rw [hstate] at hl'
    obtain ⟨pkt, -, rfl⟩ := Option.map_eq_some_iff.1 hl'
    exact h.pushPkt pkt
  | established =>
    rw [hstate] at hl'
    exact h.buildCpkt hl'

/-- One more packet, if it can be built. -/
lemma Good.exists_pushPkt (h : l.Good) (pkt : Option Pkt) :
    (∃ l', pkt.map l.pushPkt = some l' ∧ l'.WellFormed) ↔ pkt.isSome := by
  cases pkt with
  | none => simp
  | some pkt => simpa using (h.pushPkt pkt).wellFormed

lemma isSome_addToPktList (data : Mem) (len : UInt16) :
    (Ipcf.addToPktList data len).isSome ↔ len.toNat ≤ maxDataLength := by
  rw [Ipcf.addToPktList]
  split_ifs with h
  · exact iff_of_true rfl h
  · exact iff_of_false Bool.false_ne_true h

lemma Good.exists_addToPktList (h : l.Good) (data : Mem) (len : UInt16) :
    (∃ l', addToPktList data len l = some l' ∧ l'.WellFormed) ↔ len.toNat ≤ maxDataLength := by
  rw [addToPktList, h.exists_pushPkt, isSome_addToPktList]

/-- A packet with a payload can be built if what follows its headers is not negative and fits. -/
lemma isSome_payloadPkt (sflow : Sflow) (chdr : Chdr) (fields : Bytes) (ippkt : Mem) (off : ℕ) :
    (payloadPkt sflow chdr fields ippkt off).isSome ↔
      off ≤ (IpHdr.read ippkt).totLen.toNat ∧
        Chdr.len + fields.length + ((IpHdr.read ippkt).totLen.toNat - off) ≤ maxDataLength := by
  rw [payloadPkt]
  simp only [List.length_append, Mem.length_read, Chdr.length_bytes]
  split_ifs with hshort hfits
  · exact iff_of_false Bool.false_ne_true fun h => Nat.not_le.2 hshort h.1
  · exact iff_of_true rfl ⟨Nat.not_lt.1 hshort, hfits⟩
  · exact iff_of_false Bool.false_ne_true fun h => hfits h.2

/-- The length of the fields that `build_cpkt` keeps of a TCP header. -/
def tcpFieldsLen (tcphdr : TcpHdr) : ℕ :=
  4 + (if tcphdr.has tcpAck then 4 else 0) + 2 + (if tcphdr.has tcpUrg then 2 else 0) + 2

/-- What `build_cpkt` copies when the key has no IP id: a TCP or UDP packet is as long as its
headers, and the compact packet holds what remains of it. -/
def CopyFits (ippkt : Mem) : Prop :=
  let iphdr := IpHdr.read ippkt
  let totLen := iphdr.totLen.toNat
  if iphdr.protocol = protocolTcp then
    let off := IpHdr.len + TcpHdr.len
    off ≤ totLen ∧
      Chdr.len + tcpFieldsLen (TcpHdr.read (ippkt.drop IpHdr.len)) + (totLen - off) ≤ maxDataLength
  else if iphdr.protocol = protocolUdp then
    let off := IpHdr.len + UdpHdr.size
    off ≤ totLen ∧ Chdr.len + 2 + (totLen - off) ≤ maxDataLength
  else True

lemma isSome_buildTcp (sflow : Sflow) (ippkt : Mem) :
    (buildTcp sflow ippkt).isSome ↔
      IpHdr.len + TcpHdr.len ≤ (IpHdr.read ippkt).totLen.toNat ∧
        Chdr.len + tcpFieldsLen (TcpHdr.read (ippkt.drop IpHdr.len)) +
          ((IpHdr.read ippkt).totLen.toNat - (IpHdr.len + TcpHdr.len)) ≤ maxDataLength := by
  rw [buildTcp, isSome_payloadPkt, tcpFieldsLen]
  split_ifs <;> rfl

lemma isSome_buildUdp (sflow : Sflow) (ippkt : Mem) :
    (buildUdp sflow ippkt).isSome ↔
      IpHdr.len + UdpHdr.size ≤ (IpHdr.read ippkt).totLen.toNat ∧
        Chdr.len + 2 + ((IpHdr.read ippkt).totLen.toNat - (IpHdr.len + UdpHdr.size)) ≤
          maxDataLength := by
  rw [buildUdp, isSome_payloadPkt]
  rfl

/-- Every branch but RAW pushes its packet once. -/
lemma exists_buildCpkt (fresh : Fresh) (sflow : Sflow) (ippkt : Mem) (links : Links) :
    (∃ l, buildCpkt fresh sflow ippkt (init links) = some l ∧ l.WellFormed) ↔
      sflow.skey.ipid = 0 ∧ CopyFits ippkt := by
  have hgood := good_init links
  rw [buildCpkt]
  by_cases hipid : sflow.skey.ipid = 0
  · rw [if_neg (not_not.2 hipid), and_iff_right hipid, CopyFits]
    simp only
    split_ifs with htcp hudp
    · rw [hgood.exists_pushPkt, isSome_buildTcp]
    · rw [hgood.exists_pushPkt, isSome_buildUdp]
    · exact iff_of_true ⟨_, rfl, (hgood.pushPkt _).wellFormed⟩ trivial
  · rw [if_pos hipid]
    refine iff_of_false ?_ fun h => hipid h.1
    rintro ⟨l, hl, hwell⟩
    obtain ⟨pkt, -, rfl⟩ := Option.map_eq_some_iff.1 hl
    exact not_wellFormed_twice links pkt hwell

lemma exists_xmitSflow (fresh : Fresh) (ippkt : Mem) (sflow : Sflow) (links : Links) :
    (∃ l, xmitSflow fresh ippkt sflow (init links) = some l ∧ l.WellFormed) ↔
      if sflow.state = .established then sflow.skey.ipid = 0 ∧ CopyFits ippkt
      else (IpHdr.read ippkt).totLen.toNat ≤ maxDataLength := by
  have hgood := good_init links
  rw [xmitSflow]
  cases sflow.state with
  | new => exact (hgood.pushPkt _).exists_addToPktList ippkt _
  | pending => exact hgood.exists_addToPktList ippkt _
  | established => exact exists_buildCpkt fresh sflow ippkt links

end PktList

/-! ## The loop of `recv_tun` -/

/-- The loop of `recv_tun`: the list, the packet that is next, and those that were freed. -/
structure PktLoop where
  list : PktList
  cur : ℕ
  freed : List ℕ

namespace PktLoop

/-- No list was filled yet. -/
def init : PktLoop := ⟨⟨⟨id, id⟩, [], []⟩, 0, []⟩

/-- The loop begins. -/
def start (list : PktList) : PktLoop := ⟨list, list.links.next 0, []⟩

/-- The packet that is sent next: there is none at the end of the list, and none where the loop
comes to a packet that it has freed, which ends the program. -/
def pkt (w : PktLoop) : Option Pkt :=
  if w.cur = 0 ∨ w.cur ∈ w.freed then none else w.list.pktAt w.cur

/-- The packet is taken off the list and freed; what comes next was read before. -/
def advance (w : PktLoop) : PktLoop where
  list := { w.list with links := w.list.links.listRemove w.cur }
  cur := w.list.links.next w.cur
  freed := w.freed ++ [w.cur]

lemma ends_of_forEachFree {w : PktLoop} {fuel : ℕ} {xs : List ℕ}
    (h : Links.forEachFree 0 fuel w.cur w.list.links w.freed = some xs) :
    ∃ n, (advance^[n] w).cur = 0 ∧ (advance^[n] w).freed = xs := by
  induction fuel generalizing w with
  | zero => cases h
  | succ fuel ih =>
    rw [Links.forEachFree] at h
    split_ifs at h with hend
    · exact ⟨0, hend, Option.some.inj h⟩
    · obtain ⟨n, hn⟩ := ih (w := w.advance) h
      exact ⟨n + 1, hn⟩

/-- On a list that is in order the loop ends when every packet was freed once. -/
lemma ends_of_wellFormed {list : PktList} (h : list.WellFormed) :
    ∃ n, (advance^[n] (start list)).cur = 0 ∧
      (advance^[n] (start list)).freed.Perm list.allocated := by
  obtain ⟨fuel, xs, hfree, hperm⟩ := h.freed
  obtain ⟨n, hcur, hfreed⟩ := ends_of_forEachFree (w := start list) hfree
  exact ⟨n, hcur, hfreed ▸ hperm⟩

/-- The loop comes back to a packet that was pushed twice, and neither ends nor goes on. -/
lemma stuck_twice (links : Links) (pkt : Pkt) :
    let w := (start ((((PktList.init links).alloc pkt).1.push 1).push 1)).advance
    w.cur = 1 ∧ w.pkt = none := by
  intro w
  have hfirst : ((((PktList.init links).alloc pkt).1.push 1).push 1).links.next 0 = 1 := by
    change (((links.listInit 0).listInsert 0 1).listInsert 0 1).next 0 = 1
    rw [Links.next_listInsert _ Nat.one_ne_zero, Links.prev_listInsert, if_pos rfl,
      if_neg Nat.zero_ne_one, if_neg Nat.zero_ne_one, Links.next_listInsert _ Nat.one_ne_zero]
    exact if_pos (Function.update_self 0 0 links.prev).symm
  have hcur : w.cur = 1 := by
    change ((((PktList.init links).alloc pkt).1.push 1).push 1).links.next
      (((((PktList.init links).alloc pkt).1.push 1).push 1).links.next 0) = 1
    rw [hfirst, PktList.next_twice]
  refine ⟨hcur, if_pos (.inr ?_)⟩
  rw [hcur, ← hfirst]
  exact List.mem_singleton_self _

end PktLoop

/-- What goes out as it is fits into a `pkt_t`; and what goes out compressed, in the packet of a
flow without an IP id, that is, not RAW. -/
def InOrder (s : Compact) (ippkt : Mem) : Prop :=
  let totLen := (IpHdr.read ippkt).totLen.toNat
  if cannotCompact ippkt then totLen ≤ maxDataLength
  else
    match s.getSflow (getSflowKey ippkt) with
    | some sflow =>
      if sflow.state = .established then sflow.skey.ipid = 0 ∧ PktList.CopyFits ippkt
      else totLen ≤ maxDataLength
    | none => (getId s.idp).1 = none ∨ totLen ≤ maxDataLength

/-- **The list.**  Whatever the state, the packet and the memory, `xmit_compress` leaves a list, and
one that is in order, exactly if all that it copies fits and the packet does not go out RAW. -/
theorem wellFormed_iff (now : ℤ) (fresh : Fresh) (ippkt : Mem) (s : Compact) (links : Links) :
    (∃ l, PktList.xmitList now fresh ippkt s links = some l ∧ l.WellFormed) ↔ InOrder s ippkt := by
  have hgood := PktList.good_init links
  rw [PktList.xmitList, InOrder]
  simp only
  split_ifs with hcannot
  · exact hgood.exists_addToPktList ippkt _
  · cases s.getSflow (getSflowKey ippkt) with
    | some sflow => exact PktList.exists_xmitSflow fresh ippkt sflow links
    | none =>
      cases getId s.idp with
      | mk fid idp =>
        cases fid with
        | none => exact iff_of_true ⟨_, rfl, hgood.wellFormed⟩ (.inl rfl)
        | some fid =>
          simp only [reduceCtorEq, false_or]
          exact PktList.exists_xmitSflow fresh ippkt _ links

/-- An empty packet of the protocol ICMP. -/
def icmpPacket : Mem := Mem.overlay (fun _ => 0)
  [0x45, 0x00, 0x00, 0x14, 0x00, 0x01, 0x00, 0x00, 0x40, 0x01, 0x66, 0xe6, 0x0a, 0x00, 0x00, 0x01,
    0x0a, 0x00, 0x00, 0x02]

/-- The second packet of a flow that was acknowledged is pushed twice. -/
theorem pushed_twice : ∃ x l, Sender.run [
      .xmit 0 default icmpPacket,
      .ack 10 default (fun _ => 0) 3 (Mem.overlay (fun _ => 0) [0, 1, 0])] Sender.init = some x ∧
    PktList.xmitList 20 default icmpPacket x.s ⟨id, id⟩ = some l ∧ ¬ l.WellFormed := by
  have hraw : ((Sender.run [
      .xmit 0 default icmpPacket,
      .ack 10 default (fun _ => 0) 3 (Mem.overlay (fun _ => 0) [0, 1, 0])]
      Sender.init).bind fun x =>
        (PktList.xmitList 20 default icmpPacket x.s ⟨id, id⟩).map fun l =>
          (l.allocated, l.links.next 1)) = some ([1], 1) := by decide +kernel
  obtain ⟨x, hrun, hx⟩ := Option.bind_eq_some_iff.1 hraw
  obtain ⟨l, hl, heq⟩ := Option.map_eq_some_iff.1 hx
  obtain ⟨hallocated, hnext⟩ := Prod.mk.inj heq
  refine ⟨x, l, hrun, hl, ?_⟩
  rintro ⟨⟨xs, hcircular, hperm⟩, -⟩
  rw [hallocated, List.perm_singleton] at hperm
  subst hperm
  exact Nat.one_ne_zero (hnext.symm.trans hcircular.seg.2.1)

end Ipcf
