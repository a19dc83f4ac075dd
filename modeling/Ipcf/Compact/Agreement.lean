import Ipcf.Compact.Nodes
import Ipcf.Framework.Ownership

/-!
# When both nodes agree

`flows_agree`: in a run whose steps are all `Fine` both nodes agree on every packet.  The invariant
replays the packets in flight on the peer's table (`Orderly`): every request finds its id without an
owner, every compressed packet finds its own flow, and every live send flow owns its id when all of
them have arrived.  Acknowledgements do not matter: a send flow that is established too early, by an
old one, still has its request ahead of its packets.
-/

namespace Ipcf

/-! ## The invariant -/

/-- What a packet needs at the peer. -/
def Pkt.demand (pkt : Pkt) : Demand UInt8 Sflow :=
  match pkt.builder with
  | .plain => .idle
  | .ctl flow => .opens flow.fid flow.fixed
  | .cpkt flow => .uses flow.fid flow.fixed

/-- The packets that are on their way: a plain one is taken for an IP packet. -/
inductive Pkt.Built : Pkt → Prop
  | plain {data : Bytes} (h : ∀ m : Mem, isIpv4 (m.overlay data) = true) : Built ⟨data, .plain⟩
  | ctl (flow : Sflow) : Built (buildCtl flow)
  | cpkt {fresh : Fresh} {flow : Sflow} {ippkt : Mem} {pkts : List Pkt} {pkt : Pkt}
      (h : buildCpkt fresh flow ippkt = some pkts) (hpkt : pkt ∈ pkts) : Built pkt

/-- The send flows own their ids, and have been requested. -/
def Owned (owner : UInt8 → Option Sflow) (s : Compact) : Prop :=
  ∀ flow ∈ s.sflows.values, owner flow.fid = some flow.fixed ∧ flow.state ≠ .new

/-- The flow that the receive flow of this id was made for. -/
def Nodes.owner (x : Nodes) (fid : UInt8) : Option Sflow :=
  (x.b.getRflow ⟨myMac, fid⟩).bind fun _ => (x.source ⟨myMac, fid⟩).map Sflow.fixed

structure NodesInv (x : Nodes) : Prop where
  keyed : x.b.Keyed
  built : ∀ pkt ∈ x.toB, pkt.Built
  acks : ∀ msg ∈ x.toA, ∃ cpkt, msg = buildAck cpkt
  rflows : ∀ k rflow, x.b.getRflow k = some rflow →
    ∃ req, x.source k = some req ∧ CameFrom req rflow.hdr
  orderly : Orderly x.owner (x.toB.map Pkt.demand)
  owned : Owned (ownerAfter x.owner (x.toB.map Pkt.demand)) x.a

lemma nodesInv_init : NodesInv Nodes.init where
  keyed := Compact.keyed_compactInit
  built := by simp [Nodes.init]
  acks := by simp [Nodes.init]
  rflows := by
    intro k rflow hget
    rw [Nodes.init, Compact.getRflow_compactInit] at hget
    cases hget
  orderly := trivial
  owned := by simp [Owned, Nodes.init, compactInit]

/-! ## Send flows -/

section

variable {owner : UInt8 → Option Sflow} {s : Compact}

/-- Writes to a send flow that leave its fixed part alone. -/
lemma Owned.setSflow (h : Owned owner s) {f : Sflow → Sflow} (hfixed : ∀ n, (f n).fixed = n.fixed)
    (hstate : ∀ n, n.state ≠ .new → (f n).state ≠ .new) (addr : ℕ) :
    Owned owner (s.setSflow addr f) := by
  intro flow hflow
  rw [Compact.setSflow, Hmap.values_update, List.mem_map] at hflow
  obtain ⟨n, hn, rfl⟩ := hflow
  obtain ⟨hown, hnew⟩ := h n hn
  split_ifs
  · rw [(Sflow.eq_of_fixed (hfixed n)).2.2, hfixed]
    exact ⟨hown, hstate n hnew⟩
  · exact ⟨hown, hnew⟩

lemma Owned.touchSflow (h : Owned owner s) (now : ℤ) (addr : ℕ) :
    Owned owner (s.touchSflow now addr) :=
  h.setSflow (f := fun n => { n with softTimeout := softTimeout now }) (fun _ => rfl)
    (fun _ hn => hn) addr

lemma Owned.timerEvent (h : Owned owner s) (now : ℤ) : Owned owner (s.timerEvent now) := by
  intro flow hflow
  have hvalues : (s.timerEvent now).sflows.values =
      s.sflows.values.filter fun n => !!decide (now < n.softTimeout) := Hmap.values_removeIf _ _
  rw [hvalues] at hflow
  exact h flow (List.mem_of_mem_filter hflow)

/-- A flow with a new id: the id gets an owner, and the flow has been requested. -/
lemma Owned.opened (h : Owned owner s) (now : ℤ) (fresh : Fresh) (ippkt : Mem) (idp : Idpool)
    {fid : UInt8} (hfree : owner fid = none) :
    Owned (Function.update owner fid (some (newSflow now fresh ippkt s fid).fixed))
      ((({ s with idp := idp }.buildSflow now fresh (getSflowKey ippkt) ippkt fid).1.setSflow s.heap
        fun n => { n with state := .pending }).touchSflow now s.heap) := by
  apply Owned.touchSflow
  intro flow hflow
  rw [Compact.setSflow, Hmap.values_update, List.mem_map] at hflow
  obtain ⟨n, hn, rfl⟩ := hflow
  have hcases : n = newSflow now fresh ippkt s fid ∨ n ∈ s.sflows.values :=
    Hmap.mem_values_insert.1 hn
  rcases hcases with rfl | hn
  · have haddr : (newSflow now fresh ippkt s fid).addr = s.heap := rfl
    rw [if_pos haddr]
    exact ⟨Function.update_self _ _ _, by simp⟩
  · obtain ⟨hown, hnew⟩ := h n hn
    have hne : n.fid ≠ fid := by
      rintro rfl
      rw [hfree] at hown
      cases hown
    split_ifs
    · exact ⟨(Function.update_of_ne hne _ _).trans hown, by simp⟩
    · exact ⟨(Function.update_of_ne hne _ _).trans hown, hnew⟩

end

/-! ## Sending -/

lemma mem_of_getSflow {s : Compact} {k : Skey} {flow : Sflow} (h : s.getSflow k = some flow) :
    flow ∈ s.sflows.values := by
  have hspec := Hmap.findWithHash_spec s.sflows k.hash fun n => n.skey == k
  rw [show s.sflows.findWithHash k.hash (fun n => n.skey == k) = some flow from h] at hspec
  exact List.mem_map.2 ⟨_, hspec.1, rfl⟩

section

variable {now : ℤ} {fresh : Fresh} {ippkt : Mem} {s s' : Compact} {pkts : List Pkt} {pkt : Pkt}
  {owner : UInt8 → Option Sflow}

/-- A packet that passes the peer's test passes it again when it was sent as it is. -/
lemma built_plain (hipv4 : isIpv4 ippkt = true)
    (hmin : IpHdr.len ≤ (IpHdr.read ippkt).totLen.toNat)
    (hpkt : addToPktList ippkt (IpHdr.read ippkt).totLen = some pkt) :
    pkt.Built ∧ pkt.demand = .idle := by
  rw [addToPktList] at hpkt
  split_ifs at hpkt
  obtain rfl := Option.some.inj hpkt
  refine ⟨.plain fun m => ?_, rfl⟩
  rw [← hipv4]
  exact isIpv4_congr fun i hi => Mem.overlay_read_apply (Nat.lt_of_lt_of_le hi hmin)

/-- What `xmit_compress` sends finds what it needs, behind what was sent before, and the flows that
it leaves own their ids. -/
lemma Owned.xmit (h : Owned owner s) (hxmit : Xmitted now fresh ippkt s s' pkts)
    (hipv4 : isIpv4 ippkt = true) (hmin : IpHdr.len ≤ (IpHdr.read ippkt).totLen.toNat)
    (hfree : cannotCompact ippkt = false → s.getSflow (getSflowKey ippkt) = none →
      ∀ fid ∈ (getId s.idp).1, owner (UInt8.ofNat fid) = none) :
    Orderly owner (pkts.map Pkt.demand) ∧ Owned (ownerAfter owner (pkts.map Pkt.demand)) s' ∧
      ∀ pkt ∈ pkts, pkt.Built := by
  cases hxmit with
  | refused hcannot hpkt =>
    obtain ⟨hbuilt, hdemand⟩ := built_plain hipv4 hmin hpkt
    simp only [List.map_cons, List.map_nil, hdemand]
    exact ⟨⟨trivial, trivial⟩, h, by simpa using hbuilt⟩
  | dropped hcan hget hid => exact ⟨trivial, h, by simp⟩
  | @opened fid pkt hcan hget hid hpkt =>
    obtain ⟨hbuilt, hdemand⟩ := built_plain hipv4 hmin hpkt
    have hnone := hfree hcan hget fid hid
    simp only [List.map_cons, List.map_nil, hdemand]
    refine ⟨⟨hnone, trivial, trivial⟩, h.opened now fresh ippkt _ hnone, ?_⟩
    simpa using ⟨Pkt.Built.ctl _, hbuilt⟩
  | again hcan hget hstate hpkt => exact absurd hstate (h _ (mem_of_getSflow hget)).2
  | pending hcan hget hstate hpkt =>
    obtain ⟨hbuilt, hdemand⟩ := built_plain hipv4 hmin hpkt
    simp only [List.map_cons, List.map_nil, hdemand]
    exact ⟨⟨trivial, trivial⟩, h.touchSflow now _, by simpa using hbuilt⟩
  | @compressed flow _ hcan hget hstate hpkts =>
    have huses : ∀ d ∈ pkts.map Pkt.demand, d = .uses flow.fid flow.fixed := by
      intro d hd
      obtain ⟨pkt, hpkt, rfl⟩ := List.mem_map.1 hd
      rw [Pkt.demand, builder_buildCpkt hpkts hpkt]
    obtain ⟨horderly, hafter⟩ := orderly_of_uses (h flow (mem_of_getSflow hget)).1 huses
    rw [hafter]
    exact ⟨horderly, h.touchSflow now _, fun pkt hpkt => .cpkt hpkts hpkt⟩

end

/-! ## Steps -/

section

variable {x x' : Nodes}

/-- An id that is not claimed has no owner when all packets have arrived. -/
lemma Nodes.Unclaimed.ownerAfter_eq {fid : UInt8} (h : x.Unclaimed fid) :
    ownerAfter x.owner (x.toB.map Pkt.demand) fid = none := by
  rw [ownerAfter_of_not_opened, Nodes.owner, h.1, Option.bind_none]
  intro v hv
  obtain ⟨pkt, hpkt, hdemand⟩ := List.mem_map.1 hv
  have hfid := h.2 pkt hpkt
  rw [Pkt.demand] at hdemand
  cases hbuilder : pkt.builder with
  | plain =>
    rw [hbuilder] at hdemand
    cases hdemand
  | ctl flow =>
    rw [hbuilder] at hdemand hfid
    injection hdemand with hkey
    exact hfid flow rfl hkey
  | cpkt flow =>
    rw [hbuilder] at hdemand
    cases hdemand

lemma NodesInv.xmit (h : NodesInv x) {now : ℤ} {fresh : Fresh} {ippkt : Mem}
    (hfine : x.Fine (.xmit now fresh ippkt)) (hstep : x.xmit now fresh ippkt = some x') :
    NodesInv x' := by
  obtain ⟨⟨hipv4, hmin⟩, hfree⟩ := hfine
  obtain ⟨⟨s', pkts⟩, hxmit, rfl⟩ := Option.map_eq_some_iff.1 hstep
  obtain ⟨horderly, howned, hbuilt⟩ := h.owned.xmit (xmitted hxmit) hipv4 hmin
    fun hcan hget fid hfid => (hfree hcan hget fid hfid).ownerAfter_eq
  refine ⟨h.keyed, fun pkt hpkt => ?_, h.acks, h.rflows, ?_, ?_⟩
  · rcases List.mem_append.1 hpkt with hpkt | hpkt
    · exact h.built pkt hpkt
    · exact hbuilt pkt hpkt
  · rw [List.map_append, orderly_append]
    exact ⟨h.orderly, horderly⟩
  · rw [List.map_append, ownerAfter_append]
    exact howned

/-- Whoever owns an id has a receive flow at the peer, with its headers. -/
lemma NodesInv.of_owner (h : NodesInv x) {fid : UInt8} {v : Sflow} (hown : x.owner fid = some v) :
    ∃ rflow req, x.b.getRflow ⟨myMac, fid⟩ = some rflow ∧ x.source ⟨myMac, fid⟩ = some req ∧
      req.fixed = v ∧ CameFrom req rflow.hdr := by
  obtain ⟨rflow, hget, hsource⟩ := Option.bind_eq_some_iff.1 hown
  obtain ⟨req, hreq, hcame⟩ := h.rflows _ rflow hget
  rw [hreq, Option.map_some, Option.some.injEq] at hsource
  exact ⟨rflow, req, hget, hreq, hsource, hcame⟩

lemma NodesInv.getRflow_of_owner_eq_none (h : NodesInv x) {fid : UInt8}
    (hown : x.owner fid = none) : x.b.getRflow ⟨myMac, fid⟩ = none := by
  cases hget : x.b.getRflow ⟨myMac, fid⟩ with
  | none => rfl
  | some rflow =>
    obtain ⟨req, hreq, -⟩ := h.rflows _ rflow hget
    rw [Nodes.owner, hget, hreq] at hown
    cases hown

/-- The next packet is plain: the peer hands it on. -/
lemma NodesInv.recvB_plain (h : NodesInv x) {data : Bytes} {toB : List Pkt}
    (htoB : x.toB = ⟨data, .plain⟩ :: toB) : NodesInv { x with toB := toB } where
  keyed := h.keyed
  built pkt hpkt := h.built pkt (by rw [htoB]; exact List.mem_cons_of_mem _ hpkt)
  acks := h.acks
  rflows := h.rflows
  orderly := by
    have horderly := h.orderly
    rw [htoB] at horderly
    exact horderly.2
  owned := by
    have howned := h.owned
    rw [htoB] at howned
    exact howned

/-- The next packet is a request: the receive flow is made, and acknowledged. -/
lemma NodesInv.recvB_ctl (h : NodesInv x) {flow : Sflow} {toB : List Pkt}
    (htoB : x.toB = buildCtl flow :: toB) (now : ℤ) (fresh : Fresh) (buf : Mem) :
    NodesInv { x with
      b := x.b.buildRflow now fresh ⟨myMac, flow.fid⟩ (buf.overlay (buildCtl flow).data)
      toB := toB
      toA := x.toA ++ [buildAck (buf.overlay (buildCtl flow).data)]
      source := Function.update x.source ⟨myMac, flow.fid⟩ (some flow) } := by
  have horderly := h.orderly
  have howned := h.owned
  rw [htoB] at horderly howned
  have hnone := h.getRflow_of_owner_eq_none horderly.1
  have hget := h.keyed.getRflow_buildRflow hnone now fresh (buf.overlay (buildCtl flow).data)
  set x' : Nodes := { x with
      b := x.b.buildRflow now fresh ⟨myMac, flow.fid⟩ (buf.overlay (buildCtl flow).data)
      toB := toB
      toA := x.toA ++ [buildAck (buf.overlay (buildCtl flow).data)]
      source := Function.update x.source ⟨myMac, flow.fid⟩ (some flow) } with hx'
  have howner : x'.owner = Function.update x.owner flow.fid (some flow.fixed) := by
    funext fid
    rw [Nodes.owner, hx']
    simp only [hget, Function.update_apply, Rkey.mk.injEq, true_and]
    split_ifs
    · rfl
    · rfl
  refine ⟨h.keyed.buildRflow hnone now fresh _, fun pkt hpkt => ?_, fun msg hmsg => ?_,
    fun k rflow hk => ?_, ?_, ?_⟩
  · exact h.built pkt (by rw [htoB]; exact List.mem_cons_of_mem _ hpkt)
  · rcases List.mem_append.1 hmsg with hmsg | hmsg
    · exact h.acks msg hmsg
    · exact ⟨_, List.mem_singleton.1 hmsg⟩
  · rw [hget] at hk
    rw [hx']
    simp only [Function.update_apply]
    split_ifs at hk ⊢
    · refine ⟨flow, rfl, ?_⟩
      rw [← Option.some.inj hk]
      exact cameFrom_buildCtl flow fresh buf
    · exact h.rflows k rflow hk
  · rw [howner]
    exact horderly.2
  · rw [howner]
    exact howned

/-- The next packet is compressed: the receive flow of its id is touched, and its IP id may be
counted up. -/
lemma NodesInv.recvB_cpkt (h : NodesInv x) {pkt : Pkt} {flow : Sflow} {toB : List Pkt}
    (htoB : x.toB = pkt :: toB) (hbuilder : pkt.builder = .cpkt flow) (now : ℤ) {hdr : OrigHdr}
    (hhdr : ∀ req rflow, x.b.getRflow ⟨myMac, flow.fid⟩ = some rflow → CameFrom req rflow.hdr →
      CameFrom req hdr) :
    NodesInv { x with
      b := (x.b.touchRflow now ⟨myMac, flow.fid⟩).setRflow ⟨myMac, flow.fid⟩ fun n =>
        { n with hdr := hdr }
      toB := toB } := by
  have horderly := h.orderly
  have howned := h.owned
  rw [htoB, List.map_cons, Pkt.demand, hbuilder] at horderly howned
  have hkeyed : (x.b.touchRflow now ⟨myMac, flow.fid⟩).Keyed :=
    h.keyed.setRflow (f := fun n => { n with softTimeout := softTimeout now }) (fun _ => rfl) _
  have htouch : ∀ k, (x.b.touchRflow now ⟨myMac, flow.fid⟩).getRflow k =
      if k = ⟨myMac, flow.fid⟩ then
        (x.b.getRflow k).map fun n => { n with softTimeout := softTimeout now }
      else x.b.getRflow k := fun k =>
    h.keyed.getRflow_setRflow (f := fun n => { n with softTimeout := softTimeout now })
      (fun _ => rfl) _ k
  set f : Rflow → Rflow := fun n => { n with hdr := hdr } with hf
  have hget : ∀ k,
      ((x.b.touchRflow now ⟨myMac, flow.fid⟩).setRflow ⟨myMac, flow.fid⟩ f).getRflow k =
      if k = ⟨myMac, flow.fid⟩ then
        (x.b.getRflow k).map fun n => { n with softTimeout := softTimeout now, hdr := hdr }
      else x.b.getRflow k := by
    intro k
    rw [hkeyed.getRflow_setRflow (f := f) (fun _ => rfl), htouch]
    split_ifs
    · rw [Option.map_map]
      rfl
    · rfl
  have howner : Nodes.owner { x with
      b := (x.b.touchRflow now ⟨myMac, flow.fid⟩).setRflow ⟨myMac, flow.fid⟩ f
      toB := toB } = x.owner := by
    funext fid
    rw [Nodes.owner, Nodes.owner, hget]
    split_ifs
    · cases x.b.getRflow ⟨myMac, fid⟩ <;> rfl
    · rfl
  refine ⟨hkeyed.setRflow (f := f) (fun _ => rfl) _, fun p hp => ?_, h.acks, fun k rflow hk => ?_,
    ?_, ?_⟩
  · exact h.built p (by rw [htoB]; exact List.mem_cons_of_mem _ hp)
  · simp only [hget] at hk
    split_ifs at hk with hkey
    · obtain ⟨n, hn, rfl⟩ := Option.map_eq_some_iff.1 hk
      obtain ⟨req, hreq, hcame⟩ := h.rflows k n hn
      rw [hkey] at hn
      exact ⟨req, hreq, hhdr req n hn hcame⟩
    · exact h.rflows k rflow hk
  · rw [howner]
    exact horderly.2
  · rw [howner]
    exact howned

lemma NodesInv.recvB (h : NodesInv x) {now : ℤ} {fresh : Fresh} {buf : Mem}
    (hstep : x.recvB now fresh buf = some x') : NodesInv x' := by
  rw [Nodes.recvB] at hstep
  cases htoB : x.toB with
  | nil =>
    rw [htoB] at hstep
    rw [← Option.some.inj hstep]
    exact h
  | cons pkt toB =>
    simp only [htoB] at hstep
    have hbuilt := h.built pkt (by rw [htoB]; exact List.mem_cons_self)
    have horderly := h.orderly
    rw [htoB] at horderly
    cases hbuilt with
    | plain hipv4 =>
      rw [recvCompress, if_pos (hipv4 buf)] at hstep
      rw [← Option.some.inj hstep]
      simp only [Option.toList_none, List.append_nil]
      exact h.recvB_plain htoB
    | ctl flow =>
      rw [recvCompress_buildCtl, h.getRflow_of_owner_eq_none horderly.1] at hstep
      rw [← Option.some.inj hstep]
      exact h.recvB_ctl htoB now fresh buf
    | @cpkt _ flow _ _ _ hpkts hpkt =>
      have hbuilder := builder_buildCpkt hpkts hpkt
      obtain ⟨hkey, hinfo⟩ := chdr_buildCpkt hpkts hpkt buf
      have hipv4 := neverIpv4_buildCpkt hpkts hpkt buf
      by_cases htype : (Chdr.read (buf.overlay pkt.data)).t = ctypeFrmCtl
      · rw [recvCompress_unknown _ _ _ _ hipv4 htype (hinfo htype)] at hstep
        cases hstep
      · obtain ⟨recv, hrecv, hflow⟩ := recvCompress_data now fresh pkt.data.length x.b hipv4 htype
        rw [hrecv, hkey, recvData] at hstep
        cases hget : x.b.getRflow ⟨myMac, flow.fid⟩ with
        | none =>
          simp only [hget] at hstep
          cases hstep
        | some rflow =>
          simp only [hget] at hstep
          cases hout : recv rflow with
          | none =>
            simp only [hout] at hstep
            cases hstep
          | some r =>
            simp only [hout, hbuilder, Builder.requested, Option.toList_none, List.append_nil]
              at hstep
            rw [← Option.some.inj hstep]
            apply h.recvB_cpkt htoB hbuilder now
            intro req n hn hcame
            rw [hget] at hn
            obtain rfl := Option.some.inj hn
            rcases hflow _ _ hout with hsame | hnext
            · rw [hsame]
              exact hcame
            · rw [hnext]
              exact hcame.nextIpId

lemma NodesInv.recvA (h : NodesInv x) {now : ℤ} {fresh : Fresh} {buf : Mem}
    (hstep : x.recvA now fresh buf = some x') : NodesInv x' := by
  rw [Nodes.recvA] at hstep
  cases htoA : x.toA with
  | nil =>
    rw [htoA] at hstep
    rw [← Option.some.inj hstep]
    exact h
  | cons msg toA =>
    simp only [htoA] at hstep
    obtain ⟨cpkt, rfl⟩ := h.acks msg (by rw [htoA]; exact List.mem_cons_self)
    have hacks : ∀ m ∈ toA, ∃ cpkt, m = buildAck cpkt :=
      fun m hm => h.acks m (by rw [htoA]; exact List.mem_cons_of_mem _ hm)
    rw [recvCompress_buildAck] at hstep
    cases hget : x.a.rindex (Chdr.read cpkt).id with
    | none =>
      simp only [hget] at hstep
      rw [← Option.some.inj hstep]
      exact ⟨h.keyed, h.built, hacks, h.rflows, h.orderly, h.owned⟩
    | some addr =>
      simp only [hget] at hstep
      rw [← Option.some.inj hstep]
      exact ⟨h.keyed, h.built, hacks, h.rflows, h.orderly,
        h.owned.setSflow (f := fun n => { n with state := .established }) (fun _ => rfl)
          (fun _ _ => by simp) addr⟩

/-- An id in use at B that is unused otherwise: no packet on its way is about it. -/
lemma Nodes.Unused.not_demanded (h : NodesInv x) {fid : UInt8} (hunused : x.Unused fid) {v : Sflow}
    (hown : x.owner fid = some v) {d : Demand UInt8 Sflow} (hd : d ∈ x.toB.map Pkt.demand) :
    d.key ≠ some fid := by
  have huses : ∀ w, Demand.uses fid w ∉ x.toB.map Pkt.demand := by
    intro w hw
    obtain ⟨pkt, hpkt, hdemand⟩ := List.mem_map.1 hw
    have hfid := hunused.2 pkt hpkt
    rw [Pkt.demand] at hdemand
    cases hbuilder : pkt.builder with
    | plain =>
      rw [hbuilder] at hdemand
      cases hdemand
    | ctl flow =>
      rw [hbuilder] at hdemand
      cases hdemand
    | cpkt flow =>
      rw [hbuilder] at hdemand hfid
      injection hdemand with hkey
      exact hfid flow rfl hkey
  have hopens := h.orderly.not_opened hown huses
  intro hkey
  cases d with
  | opens k w =>
    obtain rfl := Option.some.inj hkey
    exact hopens w hd
  | uses k w =>
    obtain rfl := Option.some.inj hkey
    exact huses w hd
  | idle => cases hkey

lemma NodesInv.timerB (h : NodesInv x) {now : ℤ} (hfine : x.Fine (.timerB now)) :
    NodesInv { x with b := x.b.timerEvent now } := by
  have hget := h.keyed.getRflow_timerEvent now
  set x' : Nodes := { x with b := x.b.timerEvent now } with hx'
  -- a receive flow that is freed was not in use
  have hkept : ∀ fid, x'.owner fid = x.owner fid ∨ x.Unused fid ∧ ∃ v, x.owner fid = some v := by
    intro fid
    cases hrflow : x.b.getRflow ⟨myMac, fid⟩ with
    | none =>
      left
      rw [Nodes.owner, Nodes.owner, hx']
      simp only [hget, hrflow]
      rfl
    | some rflow =>
      obtain ⟨hmem, hkey⟩ := h.keyed.getRflow_eq_some_iff.1 hrflow
      obtain ⟨req, hreq, -⟩ := h.rflows _ rflow hrflow
      by_cases hlive : now < rflow.softTimeout
      · left
        rw [Nodes.owner, Nodes.owner, hx']
        simp only [hget, hrflow]
        rw [Option.filter_some_pos (by simpa using hlive)]
      · right
        have hunused := hfine rflow hmem (Int.not_lt.1 hlive)
        rw [hkey] at hunused
        refine ⟨hunused, req.fixed, ?_⟩
        rw [Nodes.owner, hrflow, hreq]
        rfl
  refine ⟨h.keyed.timerEvent now, h.built, h.acks, fun k rflow hk => ?_, ?_, fun flow hflow => ?_⟩
  · rw [hget, Option.filter_eq_some_iff] at hk
    exact h.rflows k rflow hk.1
  · apply h.orderly.forget
    intro d hd fid hfid
    rcases hkept fid with hsame | ⟨hunused, v, hown⟩
    · exact hsame
    · exact absurd hfid (hunused.not_demanded h hown hd)
  · obtain ⟨hown, hstate⟩ := h.owned flow hflow
    refine ⟨?_, hstate⟩
    rw [← hown]
    rcases hkept flow.fid with hsame | ⟨hunused, -⟩
    · exact ownerAfter_congr hsame
    · exact absurd rfl (hunused.1 flow hflow)

/-- One step. -/
lemma NodesInv.step (h : NodesInv x) {op : NodesOp} (hfine : x.Fine op)
    (hstep : x.step op = some x') : NodesInv x' := by
  cases op with
  | xmit now fresh ippkt => exact h.xmit hfine hstep
  | recvB now fresh buf => exact h.recvB hstep
  | recvA now fresh buf => exact h.recvA hstep
  | timerA now =>
    rw [← Option.some.inj hstep]
    exact ⟨h.keyed, h.built, h.acks, h.rflows, h.orderly, h.owned.timerEvent now⟩
  | timerB now =>
    rw [← Option.some.inj hstep]
    exact h.timerB hfine

/-- A whole run. -/
lemma NodesInv.run (h : NodesInv x) {ops : List NodesOp} (hfine : x.FineRun ops)
    (hrun : Nodes.run ops x = some x') : NodesInv x' := by
  induction ops generalizing x with
  | nil =>
    rw [← Option.some.inj hrun]
    exact h
  | cons op ops ih =>
    obtain ⟨y, hstep, hrest⟩ := Option.bind_eq_some_iff.1 hrun
    exact ih (h.step hfine.1 hstep) (hfine.2 y hstep) hrest

/-! ## Agreement -/

lemma NodesInv.agrees (h : NodesInv x) : x.Agrees := by
  have hhead : ∀ pkt, x.toB.head? = some pkt → pkt.Built ∧ pkt.demand.Meets x.owner := by
    intro pkt hpkt
    obtain ⟨toB, htoB⟩ := List.head?_eq_some_iff.1 hpkt
    have horderly := h.orderly
    rw [htoB] at horderly
    exact ⟨h.built pkt (by rw [htoB]; exact List.mem_cons_self), horderly.1⟩
  refine ⟨fun pkt flow hpkt hbuilder buf => ?_, fun pkt flow hpkt hbuilder buf => ?_,
    fun pkt hpkt now fresh buf => ?_⟩
  · obtain ⟨hbuilt, hmeets⟩ := hhead pkt hpkt
    cases hbuilt with
    | plain hipv4 => cases hbuilder
    | ctl req => cases hbuilder
    | cpkt hpkts hmem =>
      rw [builder_buildCpkt hpkts hmem, Builder.cpkt.injEq] at hbuilder
      subst hbuilder
      rw [Pkt.demand, builder_buildCpkt hpkts hmem] at hmeets
      rw [(chdr_buildCpkt hpkts hmem buf).1]
      exact h.of_owner hmeets
  · obtain ⟨hbuilt, hmeets⟩ := hhead pkt hpkt
    cases hbuilt with
    | plain hipv4 => cases hbuilder
    | ctl req => exact h.getRflow_of_owner_eq_none hmeets
    | cpkt hpkts hmem =>
      rw [builder_buildCpkt hpkts hmem] at hbuilder
      cases hbuilder
  · obtain ⟨hbuilt, hmeets⟩ := hhead pkt hpkt
    cases hbuilt with
    | plain hipv4 =>
      rw [recvCompress, if_pos (hipv4 buf), fault]
      exact ⟨by simp, by simp⟩
    | ctl req =>
      rw [recvCompress_buildCtl, h.getRflow_of_owner_eq_none hmeets]
      exact ⟨by simp [fault], by simp [fault]⟩
    | @cpkt _ flow _ _ _ hpkts hmem =>
      obtain ⟨hkey, hinfo⟩ := chdr_buildCpkt hpkts hmem buf
      have hipv4 := neverIpv4_buildCpkt hpkts hmem buf
      rw [Pkt.demand, builder_buildCpkt hpkts hmem] at hmeets
      obtain ⟨rflow, req, hget, -⟩ := h.of_owner hmeets
      by_cases htype : (Chdr.read (buf.overlay pkt.data)).t = ctypeFrmCtl
      · rw [recvCompress_unknown _ _ _ _ hipv4 htype (hinfo htype)]
        exact ⟨by simp [fault], by simp [fault]⟩
      · obtain ⟨recv, hrecv, -⟩ := recvCompress_data now fresh pkt.data.length x.b hipv4 htype
        rw [hrecv, hkey]
        rcases fault_recvData now x.b hget recv with hfault | hfault
        · rw [hfault]
          exact ⟨by simp, by simp⟩
        · rw [hfault]
          exact ⟨by simp, by simp⟩

/-- **Agreement.**  As long as the peer's timer frees no receive flow that is in use, no id is
handed out that is in use at the peer, and every packet is one that the peer takes for an IP packet,
both nodes agree on the flow of every packet. -/
theorem flows_agree {ops : List NodesOp} (hfine : Nodes.init.FineRun ops)
    (hrun : Nodes.run ops Nodes.init = some x) : x.Agrees :=
  (nodesInv_init.run hfine hrun).agrees

end

/-- An empty UDP packet is sent and acknowledged, sent again, and, when both flows have expired,
once more. -/
def fineRun : List NodesOp := [
  .xmit 0 default (Mem.overlay (fun _ => 0) udpPacket),
  .recvB 0 default fun _ => 0,
  .recvB 0 default fun _ => 0,
  .recvA 100 default fun _ => 0,
  .xmit 100 default (Mem.overlay (fun _ => 0) udpPacket),
  .recvB 200 default fun _ => 0,
  .timerA 20000,
  .timerB 20000,
  .xmit 20000 default (Mem.overlay (fun _ => 0) udpPacket)]

theorem flows_agree_udp : ∃ x, Nodes.run fineRun Nodes.init = some x ∧ x.Agrees := by
  have hfine : Nodes.init.FineRun fineRun := by decide +kernel
  have hsome : (Nodes.run fineRun Nodes.init).isSome = true := by decide +kernel
  obtain ⟨x, hrun⟩ := Option.isSome_iff_exists.1 hsome
  exact ⟨x, hrun, flows_agree hfine hrun⟩

end Ipcf
