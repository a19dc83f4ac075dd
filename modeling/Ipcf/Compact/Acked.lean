import Ipcf.Compact.Nodes
import Ipcf.Compact.Tables
import Ipcf.Framework.Fold

/-!
# What becomes of a packet

Runs of a sending node: packets from the tun device, acknowledgements, and ticks of the timer, with
a history of the flows that were made and the ids that were acknowledged.  `AckInv`: a flow in the
table is established exactly when its id has been acknowledged since it was made (`Acked`); an
acknowledgement that arrives late counts for whoever has the id then.
-/

namespace Ipcf

/-! ## History -/

/-- A flow was made, or an acknowledgement for an id arrived. -/
inductive FlowEvent
  | created (flow : Sflow)
  | acked (id : UInt8)

/-- The id of the flow has been acknowledged since the flow was made. -/
def Acked (log : List FlowEvent) (flow : Sflow) : Prop :=
  ∃ before after, log = before ++ .created flow.fixed :: after ∧ .acked flow.fid ∈ after

/-- A node, and the history of its send flows. -/
structure Sender where
  s : Compact
  log : List FlowEvent

/-- A packet from the tun device, the acknowledgement of the request `cpkt`, or a tick. -/
inductive SenderOp
  | xmit (now : ℤ) (fresh : Fresh) (ippkt : Mem)
  | ack (now : ℤ) (fresh : Fresh) (buf : Mem) (len : ℕ) (cpkt : Mem)
  | timer (now : ℤ)

namespace Sender

def init : Sender := ⟨compactInit, []⟩

/-- The flow that a packet makes. -/
def made (now : ℤ) (fresh : Fresh) (ippkt : Mem) (s : Compact) : List FlowEvent :=
  if cannotCompact ippkt = false ∧ s.getSflow (getSflowKey ippkt) = none then
    match (getId s.idp).1 with
    | some fid => [.created (newSflow now fresh ippkt s (UInt8.ofNat fid)).fixed]
    | none => []
  else []

def step (x : Sender) : SenderOp → Option Sender
  | .xmit now fresh ippkt =>
    (xmitCompress now fresh ippkt x.s).map fun r =>
      { s := r.1, log := x.log ++ made now fresh ippkt x.s }
  | .ack now fresh buf len cpkt =>
    match recvCompress now fresh (buf.overlay (buildAck cpkt)) len x.s with
    | .error _ => none
    | .ok d => some { s := d.s, log := x.log ++ [.acked (Chdr.read cpkt).id] }
  | .timer now => some { x with s := x.s.timerLoop now }

def run : List SenderOp → Sender → Option Sender
  | [], x => some x
  | op :: ops, x => (x.step op).bind (run ops)

end Sender

section

variable {log : List FlowEvent} {n flow : Sflow} {id : UInt8}

lemma Acked.created (h : Acked log n) : .created n.fixed ∈ log := by
  obtain ⟨before, after, rfl, -⟩ := h
  exact List.mem_append_right _ List.mem_cons_self

/-- A flow that is made acknowledges nothing. -/
lemma acked_created : Acked (log ++ [.created flow]) n ↔ Acked log n := by
  rw [Acked, exists_split_concat, Acked]
  simp

/-- An acknowledgement. -/
lemma acked_acked (hcreated : .created n.fixed ∈ log) :
    Acked (log ++ [.acked id]) n ↔ Acked log n ∨ n.fid = id := by
  rw [Acked, exists_split_concat, Acked]
  constructor
  · rintro (⟨hcases, -⟩ | ⟨before, after, hlog, hacked⟩)
    · cases hcases
    · rcases List.mem_append.1 hacked with hacked | hacked
      · exact .inl ⟨before, after, hlog, hacked⟩
      · exact .inr (FlowEvent.acked.inj (List.mem_singleton.1 hacked))
  · rintro (⟨before, after, hlog, hacked⟩ | rfl)
    · exact .inr ⟨before, after, hlog, List.mem_append_left _ hacked⟩
    · obtain ⟨before, after, rfl⟩ := List.append_of_mem hcreated
      exact .inr ⟨before, after, rfl, List.mem_append_right _ (List.mem_singleton_self _)⟩

end

/-! ## The invariant -/

/-- The flows in the table were made, after all others with their addresses, and are established
when they were acknowledged. -/
structure AckInv (x : Sender) : Prop where
  good : x.s.Good
  started : ∀ n ∈ x.s.sflows.values, n.state ≠ .new
  created : ∀ n ∈ x.s.sflows.values, .created n.fixed ∈ x.log
  addrs : ∀ flow, .created flow ∈ x.log → flow.addr < x.s.heap
  acked : ∀ n ∈ x.s.sflows.values, n.state = .established ↔ Acked x.log n

lemma ackInv_init : AckInv Sender.init where
  good := Compact.good_compactInit
  started := by simp [Sender.init, compactInit]
  created := by simp [Sender.init, compactInit]
  addrs := by simp [Sender.init]
  acked := by simp [Sender.init, compactInit]

section

variable {x x' : Sender}

/-- Writes that leave the fixed part of the flows alone, with more history. -/
lemma AckInv.setSflow (h : AckInv x) {f : Sflow → Sflow} (addr : ℕ) {log : List FlowEvent}
    (hfixed : ∀ n, (f n).fixed = n.fixed) (hnew : ∀ n, n.state ≠ .new → (f n).state ≠ .new)
    (hlog : ∀ flow, .created flow ∈ x.log ↔ .created flow ∈ log)
    (hacked : ∀ n ∈ x.s.sflows.values,
      (if n.addr = addr then f n else n).state = .established ↔ Acked log n) :
    AckInv ⟨x.s.setSflow addr f, log⟩ := by
  have hvalues : ∀ m, m ∈ (x.s.setSflow addr f).sflows.values →
      ∃ n ∈ x.s.sflows.values, m = (if n.addr = addr then f n else n) := by
    intro m hm
    rw [Compact.setSflow, Hmap.values_update, List.mem_map] at hm
    obtain ⟨n, hn, rfl⟩ := hm
    exact ⟨n, hn, rfl⟩
  have hsame : ∀ n : Sflow, (if n.addr = addr then f n else n).fixed = n.fixed := by
    intro n
    split_ifs
    · exact hfixed n
    · rfl
  have hparts := fun n => Sflow.eq_of_fixed (hfixed n)
  refine ⟨h.good.setSflow (fun n => (hparts n).2.1) (fun n => (hparts n).1)
    (fun n => (hparts n).2.2) addr, fun m hm => ?_, fun m hm => ?_, fun flow hflow =>
      h.addrs flow ((hlog flow).2 hflow),
    fun m hm => ?_⟩
  · obtain ⟨n, hn, rfl⟩ := hvalues m hm
    split_ifs
    · exact hnew n (h.started n hn)
    · exact h.started n hn
  · obtain ⟨n, hn, rfl⟩ := hvalues m hm
    rw [hsame]
    exact (hlog _).1 (h.created n hn)
  · obtain ⟨n, hn, rfl⟩ := hvalues m hm
    have hfid := (Sflow.eq_of_fixed (hsame n)).2.2
    rw [hacked n hn, Acked, Acked, hsame, hfid]

lemma AckInv.touchSflow (h : AckInv x) (now : ℤ) (addr : ℕ) :
    AckInv { x with s := x.s.touchSflow now addr } := by
  apply h.setSflow (f := fun n => { n with softTimeout := softTimeout now }) addr (fun _ => rfl)
    (fun _ hn => hn) (fun _ => Iff.rfl)
  intro n hn
  rw [← h.acked n hn]
  split_ifs <;> rfl

/-- An acknowledgement establishes the flow that has the id, as the index says. -/
lemma AckInv.ack (h : AckInv x) (id : UInt8) :
    AckInv ⟨match x.s.rindex id with
      | some addr => x.s.setSflow addr fun n => { n with state := .established }
      | none => x.s, x.log ++ [.acked id]⟩ := by
  have hlog : ∀ flow, .created flow ∈ x.log ↔ .created flow ∈ x.log ++ [.acked id] := by simp
  cases hget : x.s.rindex id with
  | none =>
    have hnone : ∀ n ∈ x.s.sflows.values, n.fid ≠ id := by
      rintro n hn rfl
      have := (h.good.rindex n.fid n.addr).2 ⟨n, hn, rfl, rfl⟩
      rw [hget] at this
      cases this
    refine ⟨h.good, h.started, fun n hn => (hlog _).1 (h.created n hn),
      fun flow hflow =>
      h.addrs flow ((hlog flow).2 hflow), fun n hn => ?_⟩
    rw [acked_acked (h.created n hn), ← h.acked n hn]
    simp [hnone n hn]
  | some addr =>
    obtain ⟨n', hn', hfid, haddr⟩ := (h.good.rindex id addr).1 hget
    apply h.setSflow (f := fun n => { n with state := .established }) addr (fun _ => rfl)
      (fun _ _ => by simp) hlog
    intro n hn
    rw [acked_acked (h.created n hn), ← h.acked n hn]
    -- the address stands for the flow with this id
    have hiff : n.addr = addr ↔ n.fid = id := by
      constructor
      · intro heq
        rw [List.inj_on_of_nodup_map h.good.addrs hn hn' (heq.trans haddr.symm), hfid]
      · intro heq
        rw [h.good.eq_of_fid hn hn' (heq.trans hfid.symm), haddr]
    by_cases heq : n.addr = addr
    · simp [heq, hiff.1 heq]
    · simp [heq, mt hiff.2 heq]

lemma AckInv.timerEvent (h : AckInv x) (now : ℤ) :
    AckInv { x with s := x.s.timerEvent now } := by
  obtain ⟨ids, hholds, hn, hperm⟩ := h.good.ids
  have hlen : ids.length + x.s.sflows.values.length = x.s.idp.n := by
    have := hperm.length_eq
    rw [List.length_append, List.length_map, List.length_range] at this
    rw [this, hn]
  have hheap := (Compact.foldl_expireSflow now x.s.sflows.values hholds (Nat.le_of_eq hlen)).2.2.1
  have hmem : ∀ n ∈ (x.s.timerEvent now).sflows.values, n ∈ x.s.sflows.values := by
    intro n hn
    have hvalues : (x.s.timerEvent now).sflows.values =
        x.s.sflows.values.filter fun n => !!decide (now < n.softTimeout) := Hmap.values_removeIf _ _
    rw [hvalues] at hn
    exact List.mem_of_mem_filter hn
  refine ⟨h.good.timerEvent now, fun n hn => h.started n (hmem n hn),
    fun n hn => h.created n (hmem n hn), fun flow hflow => ?_, fun n hn => h.acked n (hmem n hn)⟩
  change flow.addr < (x.s.sflows.values.foldl (Compact.expireSflow now) x.s).heap
  rw [hheap]
  exact h.addrs flow hflow

/-- A new flow, which nobody has acknowledged. -/
lemma AckInv.opened (h : AckInv x) {now : ℤ} {fresh : Fresh} {ippkt : Mem} {fid : ℕ}
    (hget : x.s.getSflow (getSflowKey ippkt) = none) (hid : (getId x.s.idp).1 = some fid) :
    AckInv {
      s := (({ x.s with idp := (getId x.s.idp).2 }.buildSflow now fresh (getSflowKey ippkt) ippkt
        (UInt8.ofNat fid)).1.setSflow x.s.heap fun n => { n with state := .pending }).touchSflow now
          x.s.heap
      log := x.log ++ [.created (newSflow now fresh ippkt x.s (UInt8.ofNat fid)).fixed] } := by
  set n₀ := newSflow now fresh ippkt x.s (UInt8.ofNat fid) with hn₀
  have haddr₀ : n₀.addr = x.s.heap := rfl
  have hvalues : ∀ m, m ∈ ((({ x.s with idp := (getId x.s.idp).2 }.buildSflow now fresh
      (getSflowKey ippkt) ippkt (UInt8.ofNat fid)).1.setSflow x.s.heap
        fun n => { n with state := .pending }).touchSflow now x.s.heap).sflows.values →
      m = { n₀ with state := .pending, softTimeout := softTimeout now } ∨
        m ∈ x.s.sflows.values := by
    intro m hm
    simp only [Compact.touchSflow, Compact.setSflow, Hmap.values_update, List.mem_map,
      exists_exists_and_eq_and] at hm
    obtain ⟨n, hn, rfl⟩ := hm
    have hcases : n = n₀ ∨ n ∈ x.s.sflows.values := Hmap.mem_values_insert.1 hn
    rcases hcases with rfl | hn
    · left
      simp [haddr₀]
    · right
      have hne := Nat.ne_of_lt (h.good.heap n hn)
      simp [hne, hn]
  have hnotin : .created n₀.fixed ∉ x.log := fun hmem => Nat.lt_irrefl _ (h.addrs _ hmem)
  refine ⟨((h.good.buildSflow hget hid now fresh ippkt).setState .pending _).touchSflow now _,
    fun m hm => ?_, fun m hm => ?_, fun flow hflow => ?_, fun m hm => ?_⟩
  · rcases hvalues m hm with rfl | hm
    · simp
    · exact h.started m hm
  · rcases hvalues m hm with rfl | hm
    · exact List.mem_append_right _ (List.mem_singleton_self _)
    · exact List.mem_append_left _ (h.created m hm)
  · change flow.addr < x.s.heap + 1
    rcases List.mem_append.1 hflow with hflow | hflow
    · exact Nat.lt_succ_of_lt (h.addrs flow hflow)
    · cases List.mem_singleton.1 hflow
      exact Nat.lt_succ_self _
  · rw [acked_created]
    rcases hvalues m hm with rfl | hm
    · simp only [reduceCtorEq, false_iff]
      exact fun hacked => hnotin hacked.created
    · exact h.acked m hm

lemma AckInv.step (h : AckInv x) {op : SenderOp} (hstep : x.step op = some x') : AckInv x' := by
  cases op with
  | xmit now fresh ippkt =>
    obtain ⟨⟨s', pkts⟩, hxmit, rfl⟩ := Option.map_eq_some_iff.1 hstep
    cases xmitted hxmit with
    | refused hcannot hpkt =>
      rw [Sender.made, if_neg (by simp [hcannot]), List.append_nil]
      exact h
    | dropped hcan hget hid =>
      rw [Sender.made, if_pos ⟨hcan, hget⟩, hid, h.good.getId_none hid]
      simp only [List.append_nil]
      exact h
    | opened hcan hget hid hpkt =>
      rw [Sender.made, if_pos ⟨hcan, hget⟩, hid]
      exact h.opened hget hid
    | again hcan hget hstate hpkt =>
      exact absurd hstate (h.started _ (h.good.keyed.getSflow_eq_some_iff.1 hget).1)
    | @pending flow _ hcan hget hstate hpkt =>
      rw [Sender.made, if_neg (by simp [hget]), List.append_nil]
      exact h.touchSflow now flow.addr
    | @compressed flow _ hcan hget hstate hpkts =>
      rw [Sender.made, if_neg (by simp [hget]), List.append_nil]
      exact h.touchSflow now flow.addr
  | ack now fresh buf len cpkt =>
    rw [Sender.step, recvCompress_buildAck] at hstep
    have hack := h.ack (Chdr.read cpkt).id
    cases hget : x.s.rindex (Chdr.read cpkt).id with
    | none =>
      simp only [hget] at hstep hack
      rw [← Option.some.inj hstep]
      exact hack
    | some addr =>
      simp only [hget] at hstep hack
      rw [← Option.some.inj hstep]
      exact hack
  | timer now =>
    rw [← Option.some.inj hstep, Compact.timerLoop_eq h.good.keyed]
    exact h.timerEvent now

lemma AckInv.run (h : AckInv x) {ops : List SenderOp} (hrun : Sender.run ops x = some x') :
    AckInv x' := by
  induction ops generalizing x with
  | nil =>
    rw [← Option.some.inj hrun]
    exact h
  | cons op ops ih =>
    obtain ⟨y, hstep, hrest⟩ := Option.bind_eq_some_iff.1 hrun
    exact ih (h.step hstep) hrest

end

end Ipcf
