import Ipcf.Compact.Runs

/-!
# When flows expire

A flow should expire when it has been idle for `SOFT_TIMEOUT_INTERVAL`.  The time at which it was
made or touched last is kept beside the state (`Stamped`); what the flow itself keeps is the end of
the interval as an `int`, which is the end of the interval only up to 2^31 milliseconds, and from
then on a time that has passed (`softTimeout_of_le`).

So the timer removes just the idle flows if and only if the interval of every flow ends before 2^31,
or has ended (`expires_iff`).
-/

namespace Ipcf

/-! ## The timeout as it is stored -/

/-- Before 2^31 the timeout is the end of the interval. -/
lemma softTimeout_of_lt {t : ℤ} (ht : 0 ≤ t) (hlt : t + softTimeoutInterval < 2 ^ 31) :
    softTimeout t = t + softTimeoutInterval := by
  rw [softTimeout, toInt32]
  simp only [softTimeoutInterval] at *
  exact Int.bmod_eq_of_le (by omega) (by omega)

/-- From 2^31 on the timeout has passed when it is set. -/
lemma softTimeout_of_le {t : ℤ} (hle : 2 ^ 31 ≤ t + softTimeoutInterval) : softTimeout t ≤ t := by
  have hlt : softTimeout t < ((2 ^ 32 : ℕ) + 1) / 2 := Int.bmod_lt (by decide)
  have hwrap : softTimeout t + (2 ^ 32 : ℕ) * (t + softTimeoutInterval).bdiv (2 ^ 32) =
      t + softTimeoutInterval := Int.bmod_add_bdiv _ _
  simp only [softTimeoutInterval] at *
  omega

/-- The test of the timer is right about a flow that was touched at `t` if and only if its interval
ends before 2^31 or has ended. -/
lemma expired_iff {t now : ℤ} (ht : 0 ≤ t) (hnow : t ≤ now) :
    (softTimeout t ≤ now ↔ t + softTimeoutInterval ≤ now) ↔
      t + softTimeoutInterval < 2 ^ 31 ∨ t + softTimeoutInterval ≤ now := by
  by_cases hlt : t + softTimeoutInterval < 2 ^ 31
  · rw [softTimeout_of_lt ht hlt]
    exact iff_of_true Iff.rfl (.inl hlt)
  · have hpassed := softTimeout_of_le (Int.not_lt.1 hlt)
    simp only [hlt, false_or, iff_true_left (Int.le_trans hpassed hnow)]

/-! ## Runs with the time of the last use -/

/-- The time at which the operation is called. -/
def CompactOp.now : CompactOp → ℤ
  | .xmit now _ _ => now
  | .recv now _ _ _ => now
  | .timer now => now

/-- The state, and when the flow of each key was made or touched last. -/
structure Stamped where
  s : Compact
  slast : Skey → ℤ
  rlast : Rkey → ℤ

namespace Stamped

def init : Stamped := ⟨compactInit, fun _ => 0, fun _ => 0⟩

/-- `xmit_compress` makes or touches the flow of the packet. -/
def touchesSflow (ippkt : Mem) (s : Compact) : Bool :=
  !cannotCompact ippkt && ((s.getSflow (getSflowKey ippkt)).isSome || (getId s.idp).1.isSome)

/-- `recv_compress` makes the flow of a request, or touches the flow of a packet with data. -/
def touchesRflow (cpkt : Mem) : Bool :=
  !isIpv4 cpkt && ((Chdr.read cpkt).t != ctypeFrmCtl || (Chdr.read cpkt).i == ctypeCtlReq)

def step (x : Stamped) : CompactOp → Option Stamped
  | .xmit now fresh ippkt =>
    (xmitCompress now fresh ippkt x.s).map fun r =>
      { x with
        s := r.1
        slast :=
          if touchesSflow ippkt x.s then Function.update x.slast (getSflowKey ippkt) now
          else x.slast }
  | .recv now fresh cpkt len =>
    match recvCompress now fresh cpkt len x.s with
    | .error _ => none
    | .ok d => some {
        x with
        s := d.s
        rlast :=
          if touchesRflow cpkt then Function.update x.rlast (getRflowKey (Chdr.read cpkt)) now
          else x.rlast }
  | .timer now => some { x with s := x.s.timerLoop now }

def run : List CompactOp → Stamped → Option Stamped
  | [], x => some x
  | op :: ops, x => (x.step op).bind (run ops)

end Stamped

/-! ## The timeouts are those of the last use -/

/-- Every node keeps the timeout of the last use of its key, which was at a time with `P`. -/
def Timeouts {α κ : Type*} (P : ℤ → Prop) (key : α → κ) (timeout : α → ℤ) (last : κ → ℤ)
    (ns : List α) : Prop :=
  ∀ n ∈ ns, timeout n = softTimeout (last (key n)) ∧ P (last (key n))

section

variable {α κ : Type*} {P : ℤ → Prop} {key : α → κ} {timeout : α → ℤ} {last : κ → ℤ}
  {ns ns' : List α}

lemma Timeouts.subset (h : Timeouts P key timeout last ns) (hns : ∀ n ∈ ns', n ∈ ns) :
    Timeouts P key timeout last ns' := fun n hn => h n (hns n hn)

/-- Changes that leave the key and the timeout alone. -/
lemma Timeouts.map (h : Timeouts P key timeout last ns)
    (hns : ∀ n ∈ ns', ∃ m ∈ ns, key n = key m ∧ timeout n = timeout m) :
    Timeouts P key timeout last ns' := by
  intro n hn
  obtain ⟨m, hm, hkey, htimeout⟩ := hns n hn
  rw [htimeout, hkey]
  exact h m hm

/-- The node of one key is made or touched; the other nodes stay as they are. -/
lemma Timeouts.touch [DecidableEq κ] (h : Timeouts P key timeout last ns) {k : κ} {now : ℤ}
    (hnow : P now)
    (hns : ∀ n ∈ ns', key n = k ∧ timeout n = softTimeout now ∨
      key n ≠ k ∧ ∃ m ∈ ns, key n = key m ∧ timeout n = timeout m) :
    Timeouts P key timeout (Function.update last k now) ns' := by
  intro n hn
  rcases hns n hn with ⟨hkey, htimeout⟩ | ⟨hkey, m, hm, hkey', htimeout⟩
  · rw [htimeout, hkey, Function.update_self]
    exact ⟨rfl, hnow⟩
  · rw [Function.update_of_ne hkey, htimeout, hkey']
    exact h m hm

end

/-- The timeouts of both tables. -/
structure StampedInv (P : ℤ → Prop) (x : Stamped) : Prop where
  good : x.s.Good
  sflows : Timeouts P Sflow.skey Sflow.softTimeout x.slast x.s.sflows.values
  rflows : Timeouts P Rflow.rkey Rflow.softTimeout x.rlast x.s.rflows.values

lemma stampedInv_init (P : ℤ → Prop) : StampedInv P Stamped.init where
  good := Compact.good_compactInit
  sflows := by
    intro n hn
    simp [Stamped.init, compactInit] at hn
  rflows := by
    intro n hn
    simp [Stamped.init, compactInit] at hn

section

variable {s : Compact} {P : ℤ → Prop} {now : ℤ} {x x' : Stamped}

/-- A write to a send flow that leaves its key and timeout alone. -/
lemma mem_setSflow_state {addr : ℕ} {state : FlowState} {n : Sflow}
    (hn : n ∈ (s.setSflow addr fun n => { n with state := state }).sflows.values) :
    ∃ m ∈ s.sflows.values, n.skey = m.skey ∧ n.softTimeout = m.softTimeout := by
  rw [Compact.setSflow, Hmap.values_update, List.mem_map] at hn
  obtain ⟨m, hm, rfl⟩ := hn
  refine ⟨m, hm, ?_⟩
  split_ifs <;> exact ⟨rfl, rfl⟩

lemma mem_setSflow_self {flow : Sflow} (hflow : flow ∈ s.sflows.values) (state : FlowState) :
    { flow with state := state } ∈
      (s.setSflow flow.addr fun n => { n with state := state }).sflows.values := by
  rw [Compact.setSflow, Hmap.values_update, List.mem_map]
  exact ⟨flow, hflow, if_pos rfl⟩

/-- `touch_sflow` on the flow of a key: no other flow is touched. -/
lemma mem_touchSflow (h : s.Good) {flow n : Sflow} (hflow : flow ∈ s.sflows.values)
    (hn : n ∈ (s.touchSflow now flow.addr).sflows.values) :
    n.skey = flow.skey ∧ n.softTimeout = softTimeout now ∨
      n.skey ≠ flow.skey ∧ n ∈ s.sflows.values := by
  rw [Compact.touchSflow, Compact.setSflow, Hmap.values_update, List.mem_map] at hn
  obtain ⟨m, hm, rfl⟩ := hn
  split_ifs with haddr
  · rw [List.inj_on_of_nodup_map h.addrs hm hflow haddr]
    exact .inl ⟨rfl, rfl⟩
  · refine .inr ⟨fun hkey => haddr ?_, hm⟩
    rw [List.inj_on_of_nodup_map h.keyed.sflows.nodup hm hflow hkey]

/-- `touch_rflow` and a change of the headers. -/
lemma mem_touchRflow {k : Rkey} {hdr : OrigHdr} {n : Rflow}
    (hn : n ∈ ((s.touchRflow now k).setRflow k fun n => { n with hdr := hdr }).rflows.values) :
    n.rkey = k ∧ n.softTimeout = softTimeout now ∨ n.rkey ≠ k ∧ n ∈ s.rflows.values := by
  simp only [Compact.touchRflow, Compact.setRflow, Hmap.values_update, List.mem_map] at hn
  obtain ⟨m, ⟨m', hm', rfl⟩, rfl⟩ := hn
  by_cases hkey : m'.rkey = k
  · left
    simp [hkey]
  · right
    simp [hkey, hm']

/-- The flow of the packet is touched, after a change of its state. -/
lemma Timeouts.touchSflow {last : Skey → ℤ} {ns : List Sflow}
    (h : Timeouts P Sflow.skey Sflow.softTimeout last ns) (hnow : P now) (hgood : s.Good)
    (flow : Sflow) (hflow : flow ∈ s.sflows.values)
    (hold : ∀ n ∈ s.sflows.values, n.skey ≠ flow.skey →
      ∃ m ∈ ns, n.skey = m.skey ∧ n.softTimeout = m.softTimeout) :
    Timeouts P Sflow.skey Sflow.softTimeout (Function.update last flow.skey now)
      (s.touchSflow now flow.addr).sflows.values := by
  refine h.touch hnow fun n hn => ?_
  rcases mem_touchSflow hgood hflow hn with hself | ⟨hne, hn⟩
  · exact .inl hself
  · exact .inr ⟨hne, hold n hn hne⟩

lemma StampedInv.xmit (h : StampedInv P x) (hnow : P now) {fresh : Fresh} {ippkt : Mem}
    {s' : Compact} {pkts : List Pkt} (hxmit : xmitCompress now fresh ippkt x.s = some (s', pkts)) :
    StampedInv P { x with
      s := s'
      slast :=
        if Stamped.touchesSflow ippkt x.s then Function.update x.slast (getSflowKey ippkt) now
        else x.slast } := by
  have hcases := xmitted hxmit
  have hrflows : s'.rflows = x.s.rflows := by
    cases hcases <;> rfl
  refine ⟨h.good.xmit hcases, ?_, by rw [hrflows]; exact h.rflows⟩
  have hfound : ∀ flow, x.s.getSflow (getSflowKey ippkt) = some flow →
      flow ∈ x.s.sflows.values ∧ flow.skey = getSflowKey ippkt :=
    fun flow hget => h.good.keyed.getSflow_eq_some_iff.1 hget
  cases hcases with
  | refused hcannot hpkt =>
    simp only [Stamped.touchesSflow, hcannot]
    exact h.sflows
  | dropped hcan hget hid =>
    simp only [Stamped.touchesSflow, hcan, hget, hid]
    exact h.sflows
  | @opened fid _ hcan hget hid hpkt =>
    rw [if_pos (by simp [Stamped.touchesSflow, hcan, hid])]
    set flow := newSflow now fresh ippkt x.s (UInt8.ofNat fid) with hflow
    have hgood := h.good.buildSflow hget hid now fresh ippkt
    have hvalues : ∀ n, n ∈ ({ x.s with idp := (getId x.s.idp).2 }.buildSflow now fresh
        (getSflowKey ippkt) ippkt (UInt8.ofNat fid)).1.sflows.values ↔
        n = flow ∨ n ∈ x.s.sflows.values :=
      fun n => Hmap.mem_values_insert
    refine h.sflows.touchSflow hnow (hgood.setState .pending x.s.heap)
      { flow with state := .pending }
      (mem_setSflow_self ((hvalues flow).2 (.inl rfl)) .pending) fun n hn hne => ?_
    obtain ⟨m, hm, hkey, htimeout⟩ := mem_setSflow_state hn
    rcases (hvalues m).1 hm with rfl | hm
    · exact absurd hkey hne
    · exact ⟨m, hm, hkey, htimeout⟩
  | @again flow _ hcan hget hstate hpkt =>
    obtain ⟨hflow, hkey⟩ := hfound flow hget
    rw [if_pos (by simp [Stamped.touchesSflow, hcan, hget]), ← hkey]
    exact h.sflows.touchSflow hnow (h.good.setState .pending flow.addr)
      { flow with state := .pending } (mem_setSflow_self hflow .pending)
      fun n hn _ => mem_setSflow_state hn
  | @pending flow _ hcan hget hstate hpkt =>
    obtain ⟨hflow, hkey⟩ := hfound flow hget
    rw [if_pos (by simp [Stamped.touchesSflow, hcan, hget]), ← hkey]
    exact h.sflows.touchSflow hnow h.good _ hflow fun n hn _ => ⟨n, hn, rfl, rfl⟩
  | @compressed flow _ hcan hget hstate hpkts =>
    obtain ⟨hflow, hkey⟩ := hfound flow hget
    rw [if_pos (by simp [Stamped.touchesSflow, hcan, hget]), ← hkey]
    exact h.sflows.touchSflow hnow h.good _ hflow fun n hn _ => ⟨n, hn, rfl, rfl⟩

lemma StampedInv.recv (h : StampedInv P x) (hnow : P now) {fresh : Fresh} {cpkt : Mem} {len : ℕ}
    {d : Decompressed} (hd : recvCompress now fresh cpkt len x.s = .ok d) :
    StampedInv P { x with
      s := d.s
      rlast :=
        if Stamped.touchesRflow cpkt then
          Function.update x.rlast (getRflowKey (Chdr.read cpkt)) now
        else x.rlast } := by
  have hgood := h.good.recv hd
  have hother : (Chdr.read cpkt).t = ctypeFrmCtl → (Chdr.read cpkt).i ≠ ctypeCtlReq →
      ¬ Stamped.touchesRflow cpkt = true := by
    intro htype hinfo
    simp [Stamped.touchesRflow, htype, hinfo]
  cases decoded hd with
  | ipv4 hipv4 =>
    rw [if_neg (by simp [Stamped.touchesRflow, hipv4])]
    exact h
  | req hipv4 htype hinfo hget =>
    rw [if_pos (by simp [Stamped.touchesRflow, hipv4, hinfo])]
    refine ⟨hgood, h.sflows, h.rflows.touch hnow fun n hn => ?_⟩
    have hvalues : n = Compact.newRflow now fresh (getRflowKey (Chdr.read cpkt)) cpkt ∨
        n ∈ x.s.rflows.values := Hmap.mem_values_insert.1 hn
    rcases hvalues with rfl | hold
    · exact .inl ⟨rfl, rfl⟩
    · exact .inr ⟨h.good.keyed.getRflow_eq_none_iff.1 hget n hold, n, hold, rfl, rfl⟩
  | @ack addr hipv4 htype hinfo hget =>
    rw [if_neg (hother htype (by rw [hinfo]; decide))]
    exact ⟨hgood, h.sflows.map fun n hn => mem_setSflow_state hn, h.rflows⟩
  | noAck hipv4 htype hinfo hget =>
    rw [if_neg (hother htype (by rw [hinfo]; decide))]
    exact h
  | flt hipv4 htype hinfo =>
    rw [if_neg (hother htype (by rw [hinfo]; decide))]
    exact h
  | @data rflow hdr pkt hipv4 htype hget =>
    rw [if_pos (by simp [Stamped.touchesRflow, hipv4, htype])]
    refine ⟨hgood, h.sflows, h.rflows.touch hnow fun n hn => ?_⟩
    rcases mem_touchRflow hn with hself | ⟨hne, hn⟩
    · exact .inl hself
    · exact .inr ⟨hne, n, hn, rfl, rfl⟩

lemma StampedInv.step (h : StampedInv P x) {op : CompactOp} (hnow : P op.now)
    (hstep : x.step op = some x') : StampedInv P x' := by
  cases op with
  | xmit now fresh ippkt =>
    obtain ⟨⟨s', pkts⟩, hxmit, rfl⟩ := Option.map_eq_some_iff.1 hstep
    exact h.xmit hnow hxmit
  | recv now fresh cpkt len =>
    rw [Stamped.step] at hstep
    cases hd : recvCompress now fresh cpkt len x.s with
    | error f =>
      simp only [hd] at hstep
      cases hstep
    | ok d =>
      simp only [hd] at hstep
      rw [← Option.some.inj hstep]
      exact h.recv hnow hd
  | timer now =>
    rw [← Option.some.inj hstep, Compact.timerLoop_eq h.good.keyed]
    refine ⟨h.good.timerEvent now, h.sflows.subset fun n hn => ?_, h.rflows.subset fun n hn => ?_⟩
    · exact List.mem_of_mem_filter (Hmap.values_removeIf x.s.sflows _ ▸ hn)
    · exact List.mem_of_mem_filter (Hmap.values_removeIf x.s.rflows _ ▸ hn)

lemma StampedInv.run (h : StampedInv P x) {ops : List CompactOp} (hnow : ∀ op ∈ ops, P op.now)
    (hrun : Stamped.run ops x = some x') : StampedInv P x' := by
  induction ops generalizing x with
  | nil =>
    rw [← Option.some.inj hrun]
    exact h
  | cons op ops ih =>
    obtain ⟨y, hstep, hrest⟩ := Option.bind_eq_some_iff.1 hrun
    exact ih (h.step (hnow op (by simp)) hstep) (fun op' hop' => hnow op' (by simp [hop'])) hrest

end

/-! ## Expiry -/

lemma Compact.Keyed.getSflow_timerEvent {s : Compact} (h : s.Keyed) (now : ℤ) (k : Skey) :
    (s.timerEvent now).getSflow k =
      (s.getSflow k).filter fun n => decide (now < n.softTimeout) := by
  have hfilter : (s.timerEvent now).getSflow k =
      (s.getSflow k).filter fun n => !!decide (now < n.softTimeout) :=
    h.sflows.lookup_removeIf _ k
  rw [hfilter]
  simp only [Bool.not_not]

/-- **Expiry.**  In every run with a clock that does not go backwards, at every call of
`timer_event`, and for every send flow and every receive flow: the flow is removed exactly when
`SOFT_TIMEOUT_INTERVAL` has passed since it was made or touched last, if and only if this interval
ends before 2^31 milliseconds or has ended. -/
theorem expires_iff {ops : List CompactOp} {now : ℤ} {x : Stamped}
    (hclock : (ops.map CompactOp.now ++ [now]).Pairwise (· ≤ ·)) (hpos : ∀ op ∈ ops, 0 ≤ op.now)
    (hrun : Stamped.run ops Stamped.init = some x) :
    (∀ k flow, x.s.getSflow k = some flow →
      (((x.s.timerLoop now).getSflow k = none ↔ x.slast k + softTimeoutInterval ≤ now) ↔
        x.slast k + softTimeoutInterval < 2 ^ 31 ∨ x.slast k + softTimeoutInterval ≤ now)) ∧
    ∀ k flow, x.s.getRflow k = some flow →
      (((x.s.timerLoop now).getRflow k = none ↔ x.rlast k + softTimeoutInterval ≤ now) ↔
        x.rlast k + softTimeoutInterval < 2 ^ 31 ∨ x.rlast k + softTimeoutInterval ≤ now) := by
  have hpast : ∀ op ∈ ops, op.now ≤ now := fun op hop =>
    (List.pairwise_append.1 hclock).2.2 op.now (List.mem_map_of_mem hop) now (by simp)
  have hinv := (stampedInv_init fun t => 0 ≤ t ∧ t ≤ now).run
    (fun op hop => ⟨hpos op hop, hpast op hop⟩) hrun
  have hkeyed := hinv.good.keyed
  rw [Compact.timerLoop_eq hkeyed]
  refine ⟨fun k flow hget => ?_, fun k flow hget => ?_⟩
  · obtain ⟨hmem, rfl⟩ := hkeyed.getSflow_eq_some_iff.1 hget
    obtain ⟨htimeout, ht, hle⟩ := hinv.sflows flow hmem
    rw [hkeyed.getSflow_timerEvent, hget, ← expired_iff ht hle, ← htimeout]
    simp [Option.filter_eq_none_iff]
  · obtain ⟨hmem, rfl⟩ := hkeyed.getRflow_eq_some_iff.1 hget
    obtain ⟨htimeout, ht, hle⟩ := hinv.rflows flow hmem
    rw [hkeyed.getRflow_timerEvent, hget, ← expired_iff ht hle, ← htimeout]
    simp [Option.filter_eq_none_iff]

/-- The key of the flow of the packet in the tests. -/
def udpKey : Skey := getSflowKey (Mem.overlay (fun _ => 0) udpPacket)

/-- A flow that is made at time 0, and the timer at 20 seconds. -/
theorem expires_iff_udp : ∃ x flow,
    Stamped.run [.xmit 0 default (Mem.overlay (fun _ => 0) udpPacket)] Stamped.init = some x ∧
      x.s.getSflow udpKey = some flow ∧
      ((x.s.timerLoop 20000).getSflow udpKey = none ↔
        x.slast udpKey + softTimeoutInterval ≤ 20000) := by
  have hany : (Stamped.run [.xmit 0 default (Mem.overlay (fun _ => 0) udpPacket)]
      Stamped.init).any (fun x => (x.s.getSflow udpKey).isSome && x.slast udpKey == 0) = true := by
    decide +kernel
  obtain ⟨x, hrun, hx⟩ := (Option.any_eq_true _ _).1 hany
  rw [Bool.and_eq_true, beq_iff_eq] at hx
  obtain ⟨flow, hget⟩ := Option.isSome_iff_exists.1 hx.1
  refine ⟨x, flow, hrun, hget, ?_⟩
  refine ((expires_iff ?_ ?_ hrun).1 udpKey flow hget).2 (.inl ?_)
  · simp [CompactOp.now]
  · simp [CompactOp.now]
  · rw [hx.2]
    decide

/-- A flow that is made 2^31 milliseconds less ten seconds after the start is removed a
millisecond later. -/
theorem expires_at_once : ∃ x flow,
    Stamped.run [.xmit (2 ^ 31 - 10000) default (Mem.overlay (fun _ => 0) udpPacket)]
        Stamped.init = some x ∧
      x.s.getSflow udpKey = some flow ∧ x.slast udpKey = 2 ^ 31 - 10000 ∧
      (x.s.timerLoop (2 ^ 31 - 9999)).getSflow udpKey = none ∧
      ¬ x.slast udpKey + softTimeoutInterval ≤ 2 ^ 31 - 9999 := by
  have hany : (Stamped.run [.xmit (2 ^ 31 - 10000) default (Mem.overlay (fun _ => 0) udpPacket)]
      Stamped.init).any (fun x => (x.s.getSflow udpKey).isSome &&
        x.slast udpKey == 2 ^ 31 - 10000 &&
        ((x.s.timerLoop (2 ^ 31 - 9999)).getSflow udpKey).isNone) = true := by
    decide +kernel
  obtain ⟨x, hrun, hx⟩ := (Option.any_eq_true _ _).1 hany
  simp only [Bool.and_eq_true, beq_iff_eq, Option.isNone_iff_eq_none] at hx
  obtain ⟨⟨hsome, hlast⟩, hnone⟩ := hx
  obtain ⟨flow, hget⟩ := Option.isSome_iff_exists.1 hsome
  refine ⟨x, flow, hrun, hget, hlast, hnone, ?_⟩
  rw [hlast]
  decide

end Ipcf
