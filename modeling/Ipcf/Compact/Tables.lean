import Ipcf.Compact.Idpool
import Ipcf.Compact.Peer
import Ipcf.Framework.HmapLoop
import Mathlib.Data.List.Perm.Lattice

/-!
# The tables stay consistent

The state of `compact.c` is a hash map of send flows, an index of them by id, a pool of ids and a
hash map of receive flows, and three operations update them in separate statements.  `Good` is what
holds in between: the index holds just the live flows, and the free ids and the live ones are the
256 ids, each once.  Every operation keeps it (`Good.xmit`, `Good.recv`, `Good.timerEvent`).

The loops of `timer_event` are here as they run, removing nodes from the map that they iterate over;
`timerLoop_eq` says that they come to `timerEvent`.

`tables_consistent` is about all runs, with a log of what was inserted and removed: a lookup finds a
flow exactly when one with this key was inserted and has not been removed since.
-/

namespace Ipcf

/-! ## The loops of the timer -/

namespace Compact

/-- The body of the first loop of `timer_event`. -/
def timerSflow (now : ℤ) (s : Compact) (x : ℕ × Sflow) : Compact :=
  if now < x.2.softTimeout then s
  else { s with
    sflows := s.sflows.remove x
    rindex := Function.update s.rindex x.2.fid none
    idp := releaseId s.idp x.2.fid.toNat }

/-- The body of the second loop. -/
def timerRflow (now : ℤ) (s : Compact) (x : ℕ × Rflow) : Compact :=
  if now < x.2.softTimeout then s else { s with rflows := s.rflows.remove x }

/-- `timer_event`, as it runs. -/
def timerLoop (now : ℤ) (s : Compact) : Compact :=
  let s := Hmap.forEachSafe sflows (timerSflow now) s.sflows.nodes.length (s.sflows.firstFrom 0) s
  Hmap.forEachSafe rflows (timerRflow now) s.rflows.nodes.length (s.rflows.firstFrom 0) s

/-- The first loop, without what it does to the map. -/
lemma foldl_timerSflow (now : ℤ) (xs : List (ℕ × Sflow)) (s t : Compact)
    (hst : s = { t with sflows := s.sflows }) :
    xs.foldl (timerSflow now) s =
      { (xs.map Prod.snd).foldl (expireSflow now) t with
        sflows := (xs.foldl (timerSflow now) s).sflows } := by
  induction xs generalizing s t with
  | nil => exact hst
  | cons x xs ih =>
    simp only [List.foldl_cons, List.map_cons]
    apply ih
    rw [timerSflow, expireSflow]
    split_ifs
    · exact hst
    · rw [hst]

/-- The second loop does nothing else. -/
lemma foldl_timerRflow (now : ℤ) (xs : List (ℕ × Rflow)) (s : Compact) :
    xs.foldl (timerRflow now) s = { s with rflows := (xs.foldl (timerRflow now) s).rflows } := by
  induction xs generalizing s with
  | nil => rfl
  | cons x xs ih =>
    rw [List.foldl_cons, ih]
    have hstep : timerRflow now s x = { s with rflows := (timerRflow now s x).rflows } := by
      rw [timerRflow]
      split_ifs <;> rfl
    rw [hstep]

lemma rflows_foldl_expireSflow (now : ℤ) (ns : List Sflow) (s : Compact) :
    (ns.foldl (expireSflow now) s).rflows = s.rflows := by
  induction ns generalizing s with
  | nil => rfl
  | cons n ns ih =>
    rw [List.foldl_cons, ih, expireSflow]
    split_ifs <;> rfl

lemma timerLoop_eq {s : Compact} (h : s.Keyed) (now : ℤ) : s.timerLoop now = s.timerEvent now := by
  have hs : s.sflows.nodes.Nodup := (h.sflows.nodup.of_map _).of_map _
  have hr : s.rflows.nodes.Nodup := (h.rflows.nodup.of_map _).of_map _
  have hbodyS : ∀ (s : Compact) (x : ℕ × Sflow), (timerSflow now s x).sflows =
      if !decide (now < x.2.softTimeout) then s.sflows.remove x else s.sflows := by
    intro s x
    rw [timerSflow]
    by_cases hlive : now < x.2.softTimeout
    · simp [hlive]
    · simp [hlive]
  have hbodyR : ∀ (s : Compact) (x : ℕ × Rflow), (timerRflow now s x).rflows =
      if !decide (now < x.2.softTimeout) then s.rflows.remove x else s.rflows := by
    intro s x
    rw [timerRflow]
    by_cases hlive : now < x.2.softTimeout
    · simp [hlive]
    · simp [hlive]
  obtain ⟨hloopS, hsflows⟩ := @Hmap.forEachSafe_eq Sflow Compact _ sflows (timerSflow now)
    (fun n => !decide (now < n.softTimeout)) hbodyS s _ hs (Nat.le_refl _)
  have hfirst := foldl_timerSflow now s.sflows.nodes s s rfl
  rw [hsflows] at hfirst
  have hrflows : (s.sflows.nodes.foldl (timerSflow now) s).rflows = s.rflows := by
    rw [hfirst]
    exact rflows_foldl_expireSflow now _ s
  rw [← hrflows] at hr
  obtain ⟨hloopR, hremoved⟩ := @Hmap.forEachSafe_eq Rflow Compact _ rflows (timerRflow now)
    (fun n => !decide (now < n.softTimeout)) hbodyR _ _ hr (Nat.le_refl _)
  rw [timerLoop, hloopS]
  rw [hloopR, foldl_timerRflow, hremoved, hrflows, hfirst, timerEvent]
  rfl

end Compact

/-! ## Consistency -/

/-- The send flows by key, address and id, with the index and the pool; `ids` are the free ids. -/
structure Compact.Good (s : Compact) : Prop where
  keyed : s.Keyed
  addrs : (s.sflows.values.map Sflow.addr).Nodup
  heap : ∀ n ∈ s.sflows.values, n.addr < s.heap
  rindex : ∀ f addr, s.rindex f = some addr ↔ ∃ n ∈ s.sflows.values, n.fid = f ∧ n.addr = addr
  ids : ∃ ids, s.idp.Holds ids ∧ s.idp.n = 2 ^ nIdBits ∧
    (ids ++ s.sflows.values.map fun n => n.fid.toNat).Perm (List.range (2 ^ nIdBits))

namespace Compact

lemma good_compactInit : compactInit.Good where
  keyed := keyed_compactInit
  addrs := by simp [compactInit]
  heap := by simp [compactInit]
  rindex := by simp [compactInit]
  ids := ⟨List.range (2 ^ nIdBits), Idpool.holds_initIdpool (by decide), rfl, by simp [compactInit]⟩

variable {s : Compact}

lemma Good.nodup_fid (h : s.Good) : (s.sflows.values.map Sflow.fid).Nodup := by
  obtain ⟨ids, -, -, hperm⟩ := h.ids
  have hnodup := (hperm.nodup_iff.2 List.nodup_range).of_append_right
  apply List.Nodup.of_map UInt8.toNat
  rw [List.map_map]
  exact hnodup

/-- An id stands for one flow. -/
lemma Good.eq_of_fid (h : s.Good) {n n' : Sflow} (hn : n ∈ s.sflows.values)
    (hn' : n' ∈ s.sflows.values) (hfid : n.fid = n'.fid) : n = n' :=
  List.inj_on_of_nodup_map h.nodup_fid hn hn' hfid

/-- A map of the flows that keeps their keys, addresses and ids. -/
lemma Good.update (h : s.Good) {f : Sflow → Sflow} (hskey : ∀ n, (f n).skey = n.skey)
    (haddr : ∀ n, (f n).addr = n.addr) (hfid : ∀ n, (f n).fid = n.fid) :
    Good { s with sflows := s.sflows.update f } := by
  obtain ⟨ids, hholds, hn, hperm⟩ := h.ids
  have hvalues : (s.sflows.update f).values = s.sflows.values.map f := Hmap.values_update _ _
  refine ⟨⟨h.keyed.sflows.update hskey, h.keyed.rflows⟩, ?_, ?_, fun fid addr => ?_,
    ids, hholds, hn, ?_⟩
  · simp only
    rw [hvalues, List.map_map, show Sflow.addr ∘ f = Sflow.addr from funext haddr]
    exact h.addrs
  · intro n hmem
    simp only at hmem
    rw [hvalues, List.mem_map] at hmem
    obtain ⟨n, hmem, rfl⟩ := hmem
    rw [haddr]
    exact h.heap n hmem
  · simp only
    rw [h.rindex, hvalues]
    simp only [List.mem_map, exists_exists_and_eq_and, haddr, hfid]
  · simp only
    rw [hvalues, List.map_map]
    simp only [Function.comp_def, hfid]
    exact hperm

lemma Good.setSflow (h : s.Good) {f : Sflow → Sflow} (hskey : ∀ n, (f n).skey = n.skey)
    (haddr : ∀ n, (f n).addr = n.addr) (hfid : ∀ n, (f n).fid = n.fid) (addr : ℕ) :
    (s.setSflow addr f).Good := by
  apply h.update
  · intro n
    split_ifs
    · exact hskey n
    · rfl
  · intro n
    split_ifs
    · exact haddr n
    · rfl
  · intro n
    split_ifs
    · exact hfid n
    · rfl

lemma Good.touchSflow (h : s.Good) (now : ℤ) (addr : ℕ) : (s.touchSflow now addr).Good :=
  h.setSflow (f := fun n => { n with softTimeout := Ipcf.softTimeout now }) (fun _ => rfl)
    (fun _ => rfl) (fun _ => rfl) addr

lemma Good.setState (h : s.Good) (state : FlowState) (addr : ℕ) :
    (s.setSflow addr fun n => { n with state := state }).Good :=
  h.setSflow (f := fun n => { n with state := state }) (fun _ => rfl) (fun _ => rfl)
    (fun _ => rfl) addr

/-! ## A new flow -/

/-- Nothing happens to a pool without ids. -/
lemma Good.getId_none (h : s.Good) (hid : (getId s.idp).1 = none) : (getId s.idp).2 = s.idp := by
  obtain ⟨ids, hholds, -, -⟩ := h.ids
  cases ids with
  | nil => rw [hholds.getId_nil]
  | cons id ids =>
    rw [hholds.getId.1] at hid
    cases hid

/-- An id of the pool is no flow's. -/
lemma ne_of_free {ids : List ℕ} (hperm : (ids ++ s.sflows.values.map fun n => n.fid.toNat).Perm
      (List.range (2 ^ nIdBits))) {id : ℕ} (hid : id ∈ ids) :
    ∀ m ∈ s.sflows.values, m.fid.toNat ≠ id := by
  intro m hm heq
  have hnodup := hperm.nodup_iff.2 List.nodup_range
  exact (List.nodup_append.1 hnodup).2.2 id hid m.fid.toNat (List.mem_map.2 ⟨m, hm, rfl⟩) heq.symm

/-- The index with the entry of a flow whose id no other has. -/
lemma Good.rindex_insert (h : s.Good) {n : Sflow} (hfree : ∀ m ∈ s.sflows.values, m.fid ≠ n.fid)
    {values : List Sflow} (hvalues : values.Perm (n :: s.sflows.values)) (f : UInt8) (addr : ℕ) :
    Function.update s.rindex n.fid (some n.addr) f = some addr ↔
      ∃ m ∈ values, m.fid = f ∧ m.addr = addr := by
  simp only [hvalues.mem_iff, List.mem_cons, exists_eq_or_imp]
  rw [Function.update_apply]
  split_ifs with hf
  · subst hf
    rw [Option.some.injEq]
    constructor
    · exact fun haddr => .inl ⟨rfl, haddr⟩
    · rintro (⟨-, haddr⟩ | ⟨m, hm, hfid, -⟩)
      · exact haddr
      · exact absurd hfid (hfree m hm)
  · rw [h.rindex]
    constructor
    · exact .inr
    · rintro (⟨hfid, -⟩ | hold)
      · exact absurd hfid.symm hf
      · exact hold

/-- The id that is handed out goes from the pool to the new flow. -/
lemma Good.buildSflow (h : s.Good) {k : Skey} (hget : s.getSflow k = none) {fid : ℕ}
    (hid : (getId s.idp).1 = some fid) (now : ℤ) (fresh : Fresh) (ippkt : Mem) :
    ({ s with idp := (getId s.idp).2 }.buildSflow now fresh k ippkt (UInt8.ofNat fid)).1.Good := by
  obtain ⟨ids, hholds, hn, hperm⟩ := h.ids
  cases ids with
  | nil =>
    rw [hholds.getId_nil] at hid
    cases hid
  | cons id ids =>
    obtain ⟨hfst, hsnd⟩ := hholds.getId
    rw [hfst, Option.some.injEq] at hid
    subst hid
    set n : Sflow := {
      addr := s.heap
      state := .new
      skey := k
      hdr := OrigHdr.read fresh ippkt
      fid := UInt8.ofNat id
      softTimeout := Ipcf.softTimeout now } with hnew
    have hvalues : (s.sflows.insert k.hash n).values.Perm (n :: s.sflows.values) :=
      Hmap.values_insert _ _ _
    have hlt : id < 2 ^ nIdBits :=
      List.mem_range.1 (hperm.mem_iff.1 (List.mem_append_left _ List.mem_cons_self))
    have hofNat : (UInt8.ofNat id).toNat = id := UInt8.toNat_ofNat_of_lt hlt
    have hfree : ∀ m ∈ s.sflows.values, m.fid ≠ UInt8.ofNat id := by
      intro m hm heq
      apply ne_of_free hperm List.mem_cons_self m hm
      rw [heq, hofNat]
    refine ⟨⟨h.keyed.sflows.insert (x := n) (h.keyed.getSflow_eq_none_iff.1 hget), h.keyed.rflows⟩,
      ?_, fun m hm => ?_, fun f addr => ?_, ids, hsnd, ?_, ?_⟩
    · change ((s.sflows.insert k.hash n).values.map Sflow.addr).Nodup
      rw [(hvalues.map Sflow.addr).nodup_iff, List.map_cons, List.nodup_cons]
      refine ⟨fun hmem => ?_, h.addrs⟩
      obtain ⟨m, hm, heq⟩ := List.mem_map.1 hmem
      exact Nat.ne_of_lt (h.heap m hm) heq
    · change m ∈ (s.sflows.insert k.hash n).values at hm
      change m.addr < s.heap + 1
      rw [hvalues.mem_iff, List.mem_cons] at hm
      rcases hm with rfl | hm
      · exact Nat.lt_succ_self _
      · exact Nat.lt_succ_of_lt (h.heap m hm)
    · exact h.rindex_insert hfree hvalues f addr
    · have hsize : (getId s.idp).2.n = s.idp.n := by
        rw [getId]
        split_ifs <;> rfl
      exact hsize.trans hn
    · change (ids ++ (s.sflows.insert k.hash n).values.map fun m => m.fid.toNat).Perm _
      refine List.Perm.trans ?_ hperm
      refine ((hvalues.map fun m => m.fid.toNat).append_left ids).trans ?_
      rw [List.map_cons, hnew, hofNat]
      exact List.perm_middle

/-! ## The operations -/

lemma Good.xmit (h : s.Good) {now : ℤ} {fresh : Fresh} {ippkt : Mem} {s' : Compact}
    {pkts : List Pkt} (hxmit : Xmitted now fresh ippkt s s' pkts) : s'.Good := by
  cases hxmit with
  | refused hcannot hpkt => exact h
  | dropped hcan hget hid =>
    rw [h.getId_none hid]
    exact h
  | opened hcan hget hid hpkt =>
    exact ((h.buildSflow hget hid now fresh ippkt).setState .pending s.heap).touchSflow now s.heap
  | @again flow _ hcan hget hstate hpkt =>
    exact (h.setState .pending flow.addr).touchSflow now flow.addr
  | @pending flow _ hcan hget hstate hpkt => exact h.touchSflow now flow.addr
  | @compressed flow _ hcan hget hstate hpkts => exact h.touchSflow now flow.addr

/-- Send flows are all that `Good` is about, besides the keys of the receive flows. -/
lemma Good.of_rflows (h : s.Good) {r : Hmap Rflow} (hr : Hmap.Keyed Rflow.rkey Rkey.hash r) :
    Good { s with rflows := r } := ⟨⟨h.keyed.sflows, hr⟩, h.addrs, h.heap, h.rindex, h.ids⟩

lemma Good.recv (h : s.Good) {now : ℤ} {fresh : Fresh} {cpkt : Mem} {len : ℕ} {d : Decompressed}
    (hd : recvCompress now fresh cpkt len s = .ok d) : d.s.Good := by
  cases decoded hd with
  | ipv4 hipv4 => exact h
  | req hipv4 htype hinfo hget => exact h.of_rflows (h.keyed.buildRflow hget now fresh cpkt).rflows
  | ack hipv4 htype hinfo hget => exact h.setState .established _
  | noAck hipv4 htype hinfo hget => exact h
  | flt hipv4 htype hinfo => exact h
  | @data rflow hdr pkt hipv4 htype hget =>
    have htouch := h.keyed.setRflow (f := fun n => { n with softTimeout := softTimeout now })
      (fun _ => rfl) (getRflowKey (Chdr.read cpkt))
    exact h.of_rflows
      (htouch.setRflow (f := fun n => { n with hdr := hdr }) (fun _ => rfl) _).rflows

/-- The first loop, up to the removal: the ids of the flows that expire are released in order, and
their entries in the index are cleared. -/
lemma foldl_expireSflow (now : ℤ) (ns : List Sflow) {ids : List ℕ} (hholds : s.idp.Holds ids)
    (hroom : ids.length + ns.length ≤ s.idp.n) :
    (ns.foldl (expireSflow now) s).idp.Holds
        (ids ++ (ns.filter fun n => !decide (now < n.softTimeout)).map fun n => n.fid.toNat) ∧
      (ns.foldl (expireSflow now) s).idp.n = s.idp.n ∧
      (ns.foldl (expireSflow now) s).heap = s.heap ∧
      ∀ f, (ns.foldl (expireSflow now) s).rindex f =
        if ∃ n ∈ ns, n.softTimeout ≤ now ∧ n.fid = f then none else s.rindex f := by
  induction ns generalizing s ids with
  | nil => simpa using hholds
  | cons n ns ih =>
    rw [List.length_cons] at hroom
    rw [List.foldl_cons, expireSflow]
    split_ifs with hlive
    · obtain ⟨hids, hn, hheap, hrindex⟩ := ih hholds (by omega)
      refine ⟨?_, hn, hheap, fun f => ?_⟩
      · rw [List.filter_cons_of_neg (by simp [hlive])]
        exact hids
      · rw [hrindex]
        simp [Int.not_le.2 hlive]
    · set s' : Compact := { s with
        rindex := Function.update s.rindex n.fid none
        idp := releaseId s.idp n.fid.toNat } with hs'
      have hsize : s'.idp.n = s.idp.n := by
        rw [hs']
        simp only [releaseId]
        split_ifs <;> rfl
      have hstep : s'.idp.Holds (ids ++ [n.fid.toNat]) := hholds.releaseId (by omega) _
      obtain ⟨hids, hn, hheap, hrindex⟩ := ih hstep (by
        rw [hsize, List.length_append, List.length_singleton]
        omega)
      refine ⟨?_, hn.trans hsize, hheap, fun f => ?_⟩
      · rw [List.filter_cons_of_pos (by simp [hlive]), List.map_cons]
        rw [List.append_assoc] at hids
        exact hids
      · rw [hrindex, hs']
        simp only [Function.update_apply, List.mem_cons, exists_eq_or_imp, Int.not_lt.1 hlive,
          true_and]
        by_cases hfid : n.fid = f
        · simp [hfid]
        · simp [hfid, Ne.symm hfid]

lemma Good.timerEvent (h : s.Good) (now : ℤ) : (s.timerEvent now).Good := by
  obtain ⟨ids, hholds, hn, hperm⟩ := h.ids
  have hlen : ids.length + s.sflows.values.length = 2 ^ nIdBits := by
    have := hperm.length_eq
    rwa [List.length_append, List.length_map, List.length_range] at this
  obtain ⟨hids, hn', hheap, hrindex⟩ := foldl_expireSflow now s.sflows.values hholds
    (Nat.le_of_eq (hlen.trans hn.symm))
  have hvalues : (s.timerEvent now).sflows.values =
      s.sflows.values.filter fun n => !!decide (now < n.softTimeout) := Hmap.values_removeIf _ _
  simp only [Bool.not_not] at hvalues
  refine ⟨h.keyed.timerEvent now, ?_, fun n hmem => ?_, fun f addr => ?_, _, hids, hn'.trans hn, ?_⟩
  · rw [hvalues]
    exact h.addrs.sublist (List.filter_sublist.map _)
  · rw [hvalues] at hmem
    change n.addr < (s.sflows.values.foldl (expireSflow now) s).heap
    rw [hheap]
    exact h.heap n (List.mem_of_mem_filter hmem)
  · change (s.sflows.values.foldl (expireSflow now) s).rindex f = some addr ↔ _
    rw [hrindex, hvalues]
    simp only [List.mem_filter, decide_eq_true_eq]
    split_ifs with hexpired
    · obtain ⟨n, hmem, hdead, hfid⟩ := hexpired
      constructor
      · intro hnone
        cases hnone
      · rintro ⟨m, ⟨hm, hlive⟩, hfid', -⟩
        rw [h.eq_of_fid hm hmem (hfid'.trans hfid.symm)] at hlive
        exact absurd hlive (Int.not_lt.2 hdead)
    · rw [h.rindex]
      constructor
      · rintro ⟨m, hm, hfid, haddr⟩
        refine ⟨m, ⟨hm, ?_⟩, hfid, haddr⟩
        by_contra hdead
        exact hexpired ⟨m, hm, Int.not_lt.1 hdead, hfid⟩
      · rintro ⟨m, ⟨hm, -⟩, hfid, haddr⟩
        exact ⟨m, hm, hfid, haddr⟩
  · rw [hvalues, List.append_assoc, ← List.map_append]
    refine List.Perm.trans (List.Perm.append_left ids (List.Perm.map _ ?_)) hperm
    refine List.perm_append_comm.trans ?_
    exact List.filter_append_perm _ _

end Compact

end Ipcf
