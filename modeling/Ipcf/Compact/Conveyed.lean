import Ipcf.Compact.Acked

/-!
# No packet is lost

`Conveyed` says what should become of a packet that can be compressed: it goes out once, in plain
form if its flow has not been acknowledged, behind a request if it makes the flow, and compressed if
it has; and in plain form where no flow can be made.  `conveyed_iff` is when it does.  It does not
when all ids are taken: the packet is dropped (`packet_dropped`).  And it does not when the flow was
acknowledged and the packet fits none of the branches of `build_cpkt`: it is shorter than its
headers, or it is of another protocol with the IP id zero, which has no branch.
-/

namespace Ipcf

/-- The packet as it is. -/
def plainPkt (ippkt : Mem) : Pkt := ⟨ippkt.read 0 (IpHdr.read ippkt).totLen.toNat, .plain⟩

/-- A compact packet of the flow, with all that follows the headers of the IP packet. -/
structure Compressed (flow : Sflow) (ippkt : Mem) (pkt : Pkt) : Prop where
  builder : pkt.builder = .cpkt flow
  data : ∃ (chdr : Chdr) (fields : Bytes) (off : ℕ),
    pkt.data = chdr.bytes ++ fields ++ ippkt.read off ((IpHdr.read ippkt).totLen.toNat - off) ∧
      off ≤ (IpHdr.read ippkt).totLen.toNat ∧ chdr.smac = myMac ∧ chdr.id = flow.fid ∧
      ((chdr.t = ctypeFrmTcp ∧ off = IpHdr.len + TcpHdr.len) ∨
        (chdr.t = ctypeFrmUdp ∧ off = IpHdr.len + UdpHdr.size) ∨
        (chdr.t = ctypeFrmRaw ∧ off = IpHdr.len))

/-- What should become of a packet that can be compressed.  A packet that is pushed twice is one
packet. -/
def Conveyed (x : Sender) (ippkt : Mem) : Prop :=
  ∀ now fresh, ∃ s' pkts, xmitCompress now fresh ippkt x.s = some (s', pkts) ∧
    match x.s.getSflow (getSflowKey ippkt) with
    | some flow =>
      (¬ Acked x.log flow → pkts = [plainPkt ippkt]) ∧
        (Acked x.log flow → ∃ pkt, pkts ≠ [] ∧ (∀ q ∈ pkts, q = pkt) ∧ Compressed flow ippkt pkt)
    | none =>
      match s'.getSflow (getSflowKey ippkt) with
      | some flow => flow.hdr = OrigHdr.read fresh ippkt ∧
          ∃ req, req.data = (buildCtl flow).data ∧ pkts = [req, plainPkt ippkt]
      | none => pkts = [plainPkt ippkt]

/-- One of the branches of `build_cpkt` fits the packet. -/
def Compactable (ippkt : Mem) : Prop :=
  if (getSflowKey ippkt).ipid ≠ 0 then IpHdr.len ≤ (IpHdr.read ippkt).totLen.toNat
  else
    ((IpHdr.read ippkt).protocol = protocolTcp ∧
        IpHdr.len + TcpHdr.len ≤ (IpHdr.read ippkt).totLen.toNat) ∨
      ((IpHdr.read ippkt).protocol = protocolUdp ∧
        IpHdr.len + UdpHdr.size ≤ (IpHdr.read ippkt).totLen.toNat)

/-- Fewer than 256 flows are live, or the packet has a flow; and if its flow was acknowledged, the
packet has a branch. -/
def Conveyable (x : Sender) (ippkt : Mem) : Prop :=
  match x.s.getSflow (getSflowKey ippkt) with
  | none => x.s.sflows.values.length < 2 ^ nIdBits
  | some flow => Acked x.log flow → Compactable ippkt

/-! ## `build_cpkt` -/

section

variable {flow : Sflow} {ippkt : Mem}

/-- A packet that fits is compressed. -/
lemma compressed_of_compactable (hkey : flow.skey = getSflowKey ippkt) (hfits : Compactable ippkt)
    (hmax : (IpHdr.read ippkt).totLen.toNat ≤ maxDataLength) (fresh : Fresh) :
    ∃ pkts pkt, buildCpkt fresh flow ippkt = some pkts ∧ pkts ≠ [] ∧ (∀ q ∈ pkts, q = pkt) ∧
      Compressed flow ippkt pkt := by
  rw [Compactable, ← hkey] at hfits
  rw [buildCpkt]
  split_ifs at hfits with hipid
  · obtain ⟨pkt, hpkt⟩ : ∃ pkt, buildRaw flow ippkt = some pkt :=
      ⟨_, (payloadPkt_eq_some_iff (rawFields_length _) hmax).2 ⟨hfits, rfl⟩⟩
    obtain ⟨-, hdata⟩ := (payloadPkt_eq_some_iff (rawFields_length _) hmax).1 hpkt
    rw [if_pos hipid, hpkt]
    refine ⟨[pkt, pkt], pkt, rfl, by simp, by simp, ?_⟩
    rw [hdata]
    exact ⟨rfl, _, _, IpHdr.len, rfl, hfits, rfl, rfl, .inr (.inr ⟨rfl, rfl⟩)⟩
  · rw [if_neg hipid]
    rcases hfits with ⟨hproto, hlen⟩ | ⟨hproto, hlen⟩
    · obtain ⟨pkt, hpkt⟩ : ∃ pkt, buildTcp flow ippkt = some pkt :=
        ⟨_, (payloadPkt_eq_some_iff (tcpFields_length _) hmax).2 ⟨hlen, rfl⟩⟩
      obtain ⟨-, hdata⟩ := (payloadPkt_eq_some_iff (tcpFields_length _) hmax).1 hpkt
      rw [if_pos hproto, hpkt]
      refine ⟨[pkt], pkt, rfl, by simp, by simp, ?_⟩
      rw [hdata]
      exact ⟨rfl, _, _, _, rfl, hlen, rfl, rfl, .inl ⟨rfl, rfl⟩⟩
    · have hnot : (IpHdr.read ippkt).protocol ≠ protocolTcp := by
        rw [hproto]
        decide
      obtain ⟨pkt, hpkt⟩ : ∃ pkt, buildUdp flow ippkt = some pkt :=
        ⟨_, (payloadPkt_eq_some_iff (udpFields_length _) hmax).2 ⟨hlen, rfl⟩⟩
      obtain ⟨-, hdata⟩ := (payloadPkt_eq_some_iff (udpFields_length _) hmax).1 hpkt
      rw [if_neg hnot, if_pos hproto, hpkt]
      refine ⟨[pkt], pkt, rfl, by simp, by simp, ?_⟩
      rw [hdata]
      exact ⟨rfl, _, _, _, rfl, hlen, rfl, rfl, .inr (.inl ⟨rfl, rfl⟩)⟩

/-- A header of the three types is not that of a packet without a type. -/
lemma not_compressed_bare {fresh : Fresh} (hfresh : fresh.pkt = 0) :
    ¬ Compressed flow ippkt (buildBare fresh flow) := by
  rintro ⟨-, chdr, fields, off, hdata, -, -, -, htype⟩
  have hbits : ∀ t ∈ [ctypeFrmTcp, ctypeFrmUdp, ctypeFrmRaw], ∀ i < 256,
      (0 : UInt8) ≠ t <<< 6 ||| UInt8.ofNat i &&& 0x3f := by decide +kernel
  have hhead : (0 : UInt8) = chdr.t <<< 6 ||| chdr.i &&& 0x3f := by
    have h := congrArg List.head? hdata
    have hzero : ((0 : UInt8) >>> 6) <<< 6 ||| 0 &&& 0x3f = 0 := by decide
    rw [buildBare, hfresh] at h
    rw [← hzero]
    exact Option.some.inj h
  have hi := fun t ht => hbits t ht chdr.i.toNat chdr.i.toNat_lt
  simp only [UInt8.ofNat_toNat] at hi
  rcases htype with ⟨ht, -⟩ | ⟨ht, -⟩ | ⟨ht, -⟩
  · exact hi chdr.t (by simp [ht]) hhead
  · exact hi chdr.t (by simp [ht]) hhead
  · exact hi chdr.t (by simp [ht]) hhead

/-- Only a packet that fits is compressed whatever was in the memory of the packet. -/
lemma compactable_of_compressed (hkey : flow.skey = getSflowKey ippkt)
    (hmax : (IpHdr.read ippkt).totLen.toNat ≤ maxDataLength)
    (hall : ∀ fresh, ∃ pkts pkt, buildCpkt fresh flow ippkt = some pkts ∧ pkts ≠ [] ∧
      (∀ q ∈ pkts, q = pkt) ∧ Compressed flow ippkt pkt) : Compactable ippkt := by
  obtain ⟨pkts, pkt, hbuild, hne, hsame, hcompressed⟩ := hall ⟨0, Buffer.fill _ 0⟩
  obtain ⟨q, hq⟩ := List.exists_mem_of_ne_nil _ hne
  rw [buildCpkt] at hbuild
  rw [Compactable, ← hkey]
  split_ifs at hbuild ⊢ with hipid htcp hudp
  · obtain ⟨raw, hraw, -⟩ := Option.map_eq_some_iff.1 hbuild
    exact ((payloadPkt_eq_some_iff (rawFields_length _) hmax).1 hraw).1
  · obtain ⟨tcp, htcp', -⟩ := Option.map_eq_some_iff.1 hbuild
    exact .inl ⟨htcp, ((payloadPkt_eq_some_iff (tcpFields_length _) hmax).1 htcp').1⟩
  · obtain ⟨udp, hudp', -⟩ := Option.map_eq_some_iff.1 hbuild
    exact .inr ⟨hudp, ((payloadPkt_eq_some_iff (udpFields_length _) hmax).1 hudp').1⟩
  · obtain rfl := Option.some.inj hbuild
    rw [← hsame _ (List.mem_singleton_self _)] at hcompressed
    exact absurd hcompressed (not_compressed_bare rfl)

end

/-! ## `xmit_compress` -/

section

variable {now : ℤ} {fresh : Fresh} {ippkt : Mem} {s : Compact}

lemma addToPktList_plainPkt (hmax : (IpHdr.read ippkt).totLen.toNat ≤ maxDataLength) :
    addToPktList ippkt (IpHdr.read ippkt).totLen = some (plainPkt ippkt) := by
  rw [addToPktList, if_pos hmax, plainPkt]

lemma xmitCompress_of_some (hcan : cannotCompact ippkt = false) {flow : Sflow}
    (hget : s.getSflow (getSflowKey ippkt) = some flow) :
    xmitCompress now fresh ippkt s = xmitSflow now fresh ippkt s flow := by
  rw [xmitCompress, if_neg (by rw [hcan]; exact Bool.false_ne_true)]
  simp only [hget]

lemma xmitCompress_of_none (hcan : cannotCompact ippkt = false)
    (hget : s.getSflow (getSflowKey ippkt) = none) (hid : (getId s.idp).1 = none) :
    xmitCompress now fresh ippkt s = some ({ s with idp := (getId s.idp).2 }, []) := by
  rw [xmitCompress, if_neg (by rw [hcan]; exact Bool.false_ne_true)]
  simp only [hget]
  cases hgetId : getId s.idp with
  | mk fid idp =>
    rw [hgetId] at hid
    cases hid
    rfl

lemma xmitCompress_of_new (hcan : cannotCompact ippkt = false)
    (hget : s.getSflow (getSflowKey ippkt) = none) {fid : ℕ} (hid : (getId s.idp).1 = some fid)
    (hmax : (IpHdr.read ippkt).totLen.toNat ≤ maxDataLength) :
    xmitCompress now fresh ippkt s = some
      ((({ s with idp := (getId s.idp).2 }.buildSflow now fresh (getSflowKey ippkt) ippkt
          (UInt8.ofNat fid)).1.setSflow s.heap fun n => { n with state := .pending }).touchSflow now
            s.heap,
        [buildCtl (newSflow now fresh ippkt s (UInt8.ofNat fid)), plainPkt ippkt]) := by
  rw [xmitCompress, if_neg (by rw [hcan]; exact Bool.false_ne_true)]
  simp only [hget]
  cases hgetId : getId s.idp with
  | mk fid' idp =>
    rw [hgetId] at hid
    cases hid
    simp only [xmitSflow, Compact.buildSflow, addToPktList_plainPkt hmax]
    rfl

end

/-- The pool is not empty as long as there are fewer than 256 flows. -/
lemma Compact.Good.getId_isSome_iff {s : Compact} (h : s.Good) :
    (∃ fid, (getId s.idp).1 = some fid) ↔ s.sflows.values.length < 2 ^ nIdBits := by
  obtain ⟨ids, hholds, hn, hperm⟩ := h.ids
  have hlen := hperm.length_eq
  rw [List.length_append, List.length_map, List.length_range] at hlen
  cases ids with
  | nil =>
    rw [hholds.getId_nil]
    rw [List.length_nil] at hlen
    constructor
    · rintro ⟨fid, hfid⟩
      cases hfid
    · intro hlt
      omega
  | cons id ids =>
    rw [List.length_cons] at hlen
    constructor
    · intro _
      omega
    · exact fun _ => ⟨id, hholds.getId.1⟩

section

variable {x : Sender} {ippkt : Mem}

/-- A packet that makes a flow. -/
lemma AckInv.conveyed_of_none (h : AckInv x) (hcan : cannotCompact ippkt = false)
    (hmax : (IpHdr.read ippkt).totLen.toNat ≤ maxDataLength)
    (hget : x.s.getSflow (getSflowKey ippkt) = none) :
    Conveyed x ippkt ↔ x.s.sflows.values.length < 2 ^ nIdBits := by
  rw [← h.good.getId_isSome_iff]
  constructor
  · intro hconveyed
    obtain ⟨s', pkts, hxmit, hpkts⟩ := hconveyed 0 default
    cases hid : (getId x.s.idp).1 with
    | some fid => exact ⟨fid, rfl⟩
    | none =>
      rw [xmitCompress_of_none hcan hget hid] at hxmit
      cases hxmit
      have hsame : Compact.getSflow { x.s with idp := (getId x.s.idp).2 } (getSflowKey ippkt) =
          none := hget
      simp only [hget, hsame] at hpkts
      cases hpkts
  · rintro ⟨fid, hid⟩ now fresh
    refine ⟨_, _, xmitCompress_of_new hcan hget hid hmax, ?_⟩
    have hgood := (((h.good.buildSflow hget hid now fresh ippkt).setState .pending
      x.s.heap).touchSflow now x.s.heap)
    set n₀ := newSflow now fresh ippkt x.s (UInt8.ofNat fid) with hn₀
    have hget' := hgood.keyed.getSflow_eq_some_iff (k := getSflowKey ippkt)
      (n := { n₀ with state := .pending, softTimeout := softTimeout now })
    have hmem : { n₀ with state := .pending, softTimeout := softTimeout now } ∈
        ((({ x.s with idp := (getId x.s.idp).2 }.buildSflow now fresh (getSflowKey ippkt) ippkt
          (UInt8.ofNat fid)).1.setSflow x.s.heap fun n => { n with state := .pending }).touchSflow
            now x.s.heap).sflows.values := by
      simp only [Compact.touchSflow, Compact.setSflow, Hmap.values_update, List.mem_map,
        exists_exists_and_eq_and]
      refine ⟨n₀, Hmap.mem_values_insert.2 (.inl rfl), ?_⟩
      have haddr₀ : n₀.addr = x.s.heap := rfl
      simp [haddr₀]
    rw [hget]
    simp only
    rw [hget'.2 ⟨hmem, rfl⟩]
    exact ⟨rfl, buildCtl n₀, rfl, rfl⟩

/-- A packet of a live flow. -/
lemma AckInv.conveyed_of_some (h : AckInv x) (hcan : cannotCompact ippkt = false)
    (hmax : (IpHdr.read ippkt).totLen.toNat ≤ maxDataLength) {flow : Sflow}
    (hget : x.s.getSflow (getSflowKey ippkt) = some flow) :
    Conveyed x ippkt ↔ (Acked x.log flow → Compactable ippkt) := by
  obtain ⟨hmem, hkey⟩ := h.good.keyed.getSflow_eq_some_iff.1 hget
  have hacked := h.acked flow hmem
  simp only [Conveyed, hget, xmitCompress_of_some hcan hget]
  cases hstate : flow.state with
  | new => exact absurd hstate (h.started flow hmem)
  | pending =>
    have hnot : ¬ Acked x.log flow := by
      rw [← hacked, hstate]
      simp
    simp only [xmitSflow, hstate, addToPktList_plainPkt hmax, hnot, not_false_eq_true, true_implies,
      false_implies, iff_true, and_true]
    exact fun now fresh => ⟨_, _, rfl, rfl⟩
  | established =>
    have hyes : Acked x.log flow := hacked.1 hstate
    simp only [xmitSflow, hstate, hyes, not_true_eq_false, false_implies, true_implies, true_and]
    constructor
    · intro hconveyed
      apply compactable_of_compressed hkey hmax
      intro fresh
      obtain ⟨s', pkts, hxmit, pkt, hne, hsame, hcompressed⟩ := hconveyed 0 fresh
      obtain ⟨pkts', hbuild, heq⟩ := Option.map_eq_some_iff.1 hxmit
      obtain rfl := (Prod.mk.inj heq).2
      exact ⟨pkts', pkt, hbuild, hne, hsame, hcompressed⟩
    · intro hfits now fresh
      obtain ⟨pkts, pkt, hbuild, hne, hsame, hcompressed⟩ :=
        compressed_of_compactable hkey hfits hmax fresh
      rw [hbuild]
      exact ⟨_, _, rfl, pkt, hne, hsame, hcompressed⟩

/-- **No packet is lost.**  After any run, a packet that can be compressed is conveyed as it should
be if and only if fewer than 256 flows are live or it has a flow, and, if that was acknowledged, one
of the branches of `build_cpkt` fits it. -/
theorem conveyed_iff {ops : List SenderOp} (hrun : Sender.run ops Sender.init = some x)
    (hcan : cannotCompact ippkt = false)
    (hmax : (IpHdr.read ippkt).totLen.toNat ≤ maxDataLength) :
    Conveyed x ippkt ↔ Conveyable x ippkt := by
  have h := ackInv_init.run hrun
  rw [Conveyable]
  cases hget : x.s.getSflow (getSflowKey ippkt) with
  | none => exact h.conveyed_of_none hcan hmax hget
  | some flow => exact h.conveyed_of_some hcan hmax hget

end

/-! ## Many flows -/

/-- The keys of the flows in the table. -/
def Compact.keys (s : Compact) : List Skey := s.sflows.values.map Sflow.skey

lemma Compact.keys_setSflow (s : Compact) (addr : ℕ) {f : Sflow → Sflow}
    (hf : ∀ n, (f n).skey = n.skey) : (s.setSflow addr f).keys = s.keys := by
  rw [keys, keys, setSflow, Hmap.values_update, List.map_map]
  apply List.map_congr_left
  intro n _
  simp only [Function.comp_apply]
  split_ifs
  · exact hf n
  · rfl

section

variable {x : Sender} (now : ℤ) (fresh : Fresh)

/-- A packet with a new key makes a flow, if there is an id for it. -/
lemma AckInv.step_new (h : AckInv x) {ippkt : Mem} (hcan : cannotCompact ippkt = false)
    (hmax : (IpHdr.read ippkt).totLen.toNat ≤ maxDataLength) (hnew : getSflowKey ippkt ∉ x.s.keys)
    (hroom : x.s.keys.length < 2 ^ nIdBits) :
    ∃ x', x.step (.xmit now fresh ippkt) = some x' ∧
      x'.s.keys.Perm (getSflowKey ippkt :: x.s.keys) := by
  rw [Compact.keys, List.length_map] at hroom
  obtain ⟨fid, hid⟩ := h.good.getId_isSome_iff.2 hroom
  have hget : x.s.getSflow (getSflowKey ippkt) = none := by
    rw [h.good.keyed.getSflow_eq_none_iff]
    intro n hn hkey
    exact hnew (hkey ▸ List.mem_map_of_mem hn)
  refine ⟨_, by rw [Sender.step, xmitCompress_of_new hcan hget hid hmax]; rfl, ?_⟩
  rw [Compact.touchSflow, Compact.keys_setSflow, Compact.keys_setSflow]
  · exact (Hmap.values_insert _ _ _).map Sflow.skey
  · exact fun _ => rfl
  · exact fun _ => rfl

/-- So do as many as there are ids. -/
lemma AckInv.run_new (h : AckInv x) {ippkts : List Mem}
    (hcan : ∀ ippkt ∈ ippkts, cannotCompact ippkt = false)
    (hmax : ∀ ippkt ∈ ippkts, (IpHdr.read ippkt).totLen.toNat ≤ maxDataLength)
    (hnew : (ippkts.map getSflowKey ++ x.s.keys).Nodup)
    (hroom : (ippkts.map getSflowKey ++ x.s.keys).length ≤ 2 ^ nIdBits) :
    ∃ x', Sender.run (ippkts.map (.xmit now fresh)) x = some x' ∧
      x'.s.keys.Perm (ippkts.map getSflowKey ++ x.s.keys) := by
  induction ippkts generalizing x with
  | nil => exact ⟨x, rfl, List.Perm.refl _⟩
  | cons ippkt ippkts ih =>
    rw [List.map_cons, List.cons_append] at hnew hroom
    obtain ⟨hnotin, hnew⟩ := List.nodup_cons.1 hnew
    rw [List.length_cons, List.length_append] at hroom
    obtain ⟨y, hstep, hkeys⟩ := h.step_new now fresh (hcan ippkt List.mem_cons_self)
      (hmax ippkt List.mem_cons_self) (fun hmem => hnotin (List.mem_append_right _ hmem)) (by omega)
    have hmoved : (ippkts.map getSflowKey ++ y.s.keys).Perm
        (getSflowKey ippkt :: (ippkts.map getSflowKey ++ x.s.keys)) :=
      (hkeys.append_left _).trans List.perm_middle
    obtain ⟨x', hrun, hkeys'⟩ := ih (h.step hstep)
      (fun p hp => hcan p (List.mem_cons_of_mem _ hp))
      (fun p hp => hmax p (List.mem_cons_of_mem _ hp))
      (hmoved.nodup_iff.2 (List.nodup_cons.2 ⟨hnotin, hnew⟩))
      (by rw [hmoved.length_eq, List.length_cons, List.length_append]; exact hroom)
    refine ⟨x', ?_, hkeys'.trans hmoved⟩
    rw [List.map_cons, Sender.run, hstep]
    exact hrun

end

/-- Packets to 256 ports, all at once. -/
def manyFlows : List SenderOp :=
  (List.range 256).map fun dport => .xmit 0 default (portPacket 7 (UInt8.ofNat dport))

/-- All of them can be compressed, and each has a port of its own. -/
lemma portPacket_seven : ∀ dport < 256, cannotCompact (portPacket 7 (UInt8.ofNat dport)) = false ∧
    (IpHdr.read (portPacket 7 (UInt8.ofNat dport))).totLen.toNat ≤ maxDataLength ∧
    (getSflowKey (portPacket 7 (UInt8.ofNat dport))).sport = 7 ∧
    (getSflowKey (portPacket 7 (UInt8.ofNat dport))).dport.toNat = dport := by
  decide +kernel

/-- There is no id left then, and a packet from another port is dropped. -/
theorem packet_dropped : ∃ x, Sender.run manyFlows Sender.init = some x ∧
    cannotCompact (portPacket 8 0) = false ∧
    (IpHdr.read (portPacket 8 0)).totLen.toNat ≤ maxDataLength ∧ ¬ Conveyed x (portPacket 8 0) := by
  set ippkts := (List.range 256).map fun dport => portPacket 7 (UInt8.ofNat dport) with hippkts
  have hport : ∀ ippkt ∈ ippkts, cannotCompact ippkt = false ∧
      (IpHdr.read ippkt).totLen.toNat ≤ maxDataLength ∧ (getSflowKey ippkt).sport = 7 := by
    intro ippkt hippkt
    obtain ⟨dport, hdport, rfl⟩ := List.mem_map.1 hippkt
    obtain ⟨hcan, hmax, hsport, -⟩ := portPacket_seven dport (List.mem_range.1 hdport)
    exact ⟨hcan, hmax, hsport⟩
  have hnodup : (ippkts.map getSflowKey).Nodup := by
    rw [hippkts, List.map_map]
    refine List.Nodup.map_on (fun i hi j hj hkey => ?_) List.nodup_range
    obtain ⟨-, -, -, hdport⟩ := portPacket_seven i (List.mem_range.1 hi)
    obtain ⟨-, -, -, hdport'⟩ := portPacket_seven j (List.mem_range.1 hj)
    rw [← hdport, ← hdport']
    exact congrArg (fun k => k.dport.toNat) hkey
  have hempty : Sender.init.s.keys = [] := by
    simp [Sender.init, compactInit, Compact.keys]
  obtain ⟨x, hrun, hkeys⟩ := ackInv_init.run_new 0 default (fun p hp => (hport p hp).1)
    (fun p hp => (hport p hp).2.1) (by rwa [hempty, List.append_nil])
    (by rw [hempty, List.append_nil, List.length_map, hippkts, List.length_map, List.length_range]
        decide)
  rw [hempty, List.append_nil] at hkeys
  have hcan : cannotCompact (portPacket 8 0) = false := by decide +kernel
  have hmax : (IpHdr.read (portPacket 8 0)).totLen.toNat ≤ maxDataLength := by decide
  have hrun' : Sender.run manyFlows Sender.init = some x := by
    rw [← hrun, hippkts, List.map_map]
    rfl
  refine ⟨x, hrun', hcan, hmax, ?_⟩
  have hget : x.s.getSflow (getSflowKey (portPacket 8 0)) = none := by
    rw [(ackInv_init.run hrun).good.keyed.getSflow_eq_none_iff]
    intro n hn hkey
    obtain ⟨ippkt, hippkt, hsame⟩ := List.mem_map.1 (hkeys.mem_iff.1 (List.mem_map_of_mem hn))
    have hsport := (hport ippkt hippkt).2.2
    rw [hsame, hkey] at hsport
    exact absurd hsport (by decide)
  have hfull : x.s.sflows.values.length = 2 ^ nIdBits := by
    have hlen := hkeys.length_eq
    rw [Compact.keys, List.length_map, List.length_map, hippkts, List.length_map,
      List.length_range] at hlen
    exact hlen
  rw [(ackInv_init.run hrun).conveyed_of_none hcan hmax hget, hfull]
  exact Nat.lt_irrefl _

/-- A packet of a flow that was acknowledged. -/
theorem conveyed_iff_udp : ∃ x, Sender.run [
      .xmit 0 default (Mem.overlay (fun _ => 0) udpPacket),
      .ack 10 default (fun _ => 0) 3 (Mem.overlay (fun _ => 0) [0, 1, 0])] Sender.init = some x ∧
    Conveyed x (Mem.overlay (fun _ => 0) udpPacket) := by
  have hlive : ((Sender.run [
      .xmit 0 default (Mem.overlay (fun _ => 0) udpPacket),
      .ack 10 default (fun _ => 0) 3 (Mem.overlay (fun _ => 0) [0, 1, 0])] Sender.init).map fun x =>
        (x.s.getSflow (getSflowKey (Mem.overlay (fun _ => 0) udpPacket))).isSome) = some true := by
    decide +kernel
  obtain ⟨x, hrun, hsome⟩ := Option.map_eq_some_iff.1 hlive
  obtain ⟨flow, hget⟩ := Option.isSome_iff_exists.1 hsome
  refine ⟨x, hrun, (conveyed_iff hrun (by decide +kernel) (by decide)).2 ?_⟩
  rw [Conveyable, hget]
  have hfits : Compactable (Mem.overlay (fun _ => 0) udpPacket) := by
    rw [Compactable]
    decide +kernel
  exact fun _ => hfits

end Ipcf
