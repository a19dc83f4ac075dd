import Ipcf.Compact.Tables
import Ipcf.Framework.Fold

/-!
# Runs of a node

Any sequence of the operations of `compact.c`, with a log of the keys that were inserted into the
two tables and removed from them.  `tables_consistent`: after every run the tables, the index and
the pool are consistent, and a lookup finds a flow exactly for the keys that are `Live` in the log.
-/

namespace Ipcf

/-! ## A log -/

/-- A node with this key was inserted, or removed. -/
inductive Change (κ : Type*)
  | inserted (k : κ)
  | removed (k : κ)

section

variable {κ : Type*}

/-- The key was inserted, and has not been removed since. -/
def Live (log : List (Change κ)) (k : κ) : Prop :=
  ∃ before after, log = before ++ .inserted k :: after ∧ .removed k ∉ after

variable {log : List (Change κ)} {j k : κ}

lemma not_live_nil : ¬ Live [] k := by
  rintro ⟨before, after, hlog, -⟩
  cases before <;> cases hlog

/-- One more change at the end. -/
lemma live_concat (c : Change κ) :
    Live (log ++ [c]) k ↔ c = .inserted k ∨ Live log k ∧ c ≠ .removed k := by
  rw [Live, exists_split_concat, Live]
  refine or_congr ?_ ?_
  · simp
  · constructor
    · rintro ⟨before, after, hlog, hkept⟩
      rw [List.mem_append, not_or, List.mem_singleton] at hkept
      exact ⟨⟨before, after, hlog, hkept.1⟩, fun hc => hkept.2 hc.symm⟩
    · rintro ⟨⟨before, after, hlog, hkept⟩, hc⟩
      refine ⟨before, after, hlog, ?_⟩
      rw [List.mem_append, not_or, List.mem_singleton]
      exact ⟨hkept, fun h => hc h.symm⟩

lemma live_inserted : Live (log ++ [.inserted j]) k ↔ j = k ∨ Live log k := by
  rw [live_concat]
  simp

lemma live_removed (js : List κ) :
    Live (log ++ js.map .removed) k ↔ Live log k ∧ k ∉ js := by
  induction js generalizing log with
  | nil => simp
  | cons j js ih =>
    have hstep : Live (log ++ [.removed j]) k ↔ Live log k ∧ k ≠ j := by
      rw [live_concat]
      simp [eq_comm]
    rw [List.map_cons, List.append_cons, ih, hstep, List.mem_cons, not_or, and_assoc]

end

/-! ## Runs -/

/-- The state, and the changes of the two tables so far. -/
structure Logged where
  s : Compact
  slog : List (Change Skey)
  rlog : List (Change Rkey)

/-- A call of one of the three operations. -/
inductive CompactOp
  | xmit (now : ℤ) (fresh : Fresh) (ippkt : Mem)
  | recv (now : ℤ) (fresh : Fresh) (cpkt : Mem) (len : ℕ)
  | timer (now : ℤ)

namespace Logged

def init : Logged := ⟨compactInit, [], []⟩

/-- What `xmit_compress` inserts: the key of a packet that makes a flow. -/
def created (ippkt : Mem) (s : Compact) : List (Change Skey) :=
  if cannotCompact ippkt = false ∧ s.getSflow (getSflowKey ippkt) = none ∧
      (getId s.idp).1 ≠ none then [.inserted (getSflowKey ippkt)] else []

/-- What `recv_compress` inserts: the key of a request. -/
def requested (cpkt : Mem) : List (Change Rkey) :=
  if isIpv4 cpkt = false ∧ (Chdr.read cpkt).t = ctypeFrmCtl ∧ (Chdr.read cpkt).i = ctypeCtlReq then
    [.inserted (getRflowKey (Chdr.read cpkt))] else []

def step (x : Logged) : CompactOp → Option Logged
  | .xmit now fresh ippkt =>
    (xmitCompress now fresh ippkt x.s).map fun r =>
      { x with s := r.1, slog := x.slog ++ created ippkt x.s }
  | .recv now fresh cpkt len =>
    match recvCompress now fresh cpkt len x.s with
    | .error _ => none
    | .ok d => some { x with s := d.s, rlog := x.rlog ++ requested cpkt }
  | .timer now => some {
      s := x.s.timerLoop now
      slog := x.slog ++
        ((x.s.sflows.values.filter fun n => !decide (now < n.softTimeout)).map Sflow.skey).map
          .removed
      rlog := x.rlog ++
        ((x.s.rflows.values.filter fun n => !decide (now < n.softTimeout)).map Rflow.rkey).map
          .removed }

def run : List CompactOp → Logged → Option Logged
  | [], x => some x
  | op :: ops, x => (x.step op).bind (run ops)

end Logged

/-- The tables, the index and the pool fit together. -/
structure Compact.Consistent (s : Compact) : Prop where
  skeys : (s.sflows.values.map Sflow.skey).Nodup
  fids : (s.sflows.values.map Sflow.fid).Nodup
  rindex : ∀ f addr, s.rindex f = some addr ↔ ∃ n ∈ s.sflows.values, n.fid = f ∧ n.addr = addr
  available_nodup : s.idp.available.Nodup
  available : ∀ id, id ∈ s.idp.available ↔
    id < 2 ^ nIdBits ∧ ∀ n ∈ s.sflows.values, n.fid.toNat ≠ id
  rkeys : (s.rflows.values.map Rflow.rkey).Nodup

lemma Compact.Good.consistent {s : Compact} (h : s.Good) : s.Consistent := by
  obtain ⟨ids, hholds, hn, hperm⟩ := h.ids
  have hnodup := hperm.nodup_iff.2 List.nodup_range
  have hparts := List.nodup_append.1 hnodup
  refine ⟨h.keyed.sflows.nodup, h.nodup_fid, h.rindex, ?_, fun id => ?_, h.keyed.rflows.nodup⟩
  · rw [hholds.available_eq]
    exact hparts.1
  · rw [hholds.available_eq, ← List.mem_range, ← hperm.mem_iff, List.mem_append]
    constructor
    · intro hid
      refine ⟨.inl hid, fun n hmem heq => ?_⟩
      exact hparts.2.2 id hid _ (List.mem_map.2 ⟨n, hmem, rfl⟩) heq.symm
    · rintro ⟨hid | hid, hfree⟩
      · exact hid
      · obtain ⟨n, hmem, heq⟩ := List.mem_map.1 hid
        exact absurd heq (hfree n hmem)

/-! ## The invariant -/

/-- The nodes in the tables are those that are live in the logs. -/
structure LoggedInv (x : Logged) : Prop where
  good : x.s.Good
  slog : ∀ k, Live x.slog k ↔ ∃ n ∈ x.s.sflows.values, n.skey = k
  rlog : ∀ k, Live x.rlog k ↔ ∃ n ∈ x.s.rflows.values, n.rkey = k

lemma loggedInv_init : LoggedInv Logged.init where
  good := Compact.good_compactInit
  slog k := by simp [Logged.init, compactInit, not_live_nil]
  rlog k := by simp [Logged.init, compactInit, not_live_nil]

section

variable {x x' : Logged}

/-- The keys in a table after the nodes that pass the test were removed. -/
lemma live_removeIf {α κ : Type*} {key : α → κ} {log : List (Change κ)} {m : Hmap α}
    (hnodup : (m.values.map key).Nodup) (hlive : ∀ k, Live log k ↔ ∃ n ∈ m.values, key n = k)
    (test : α → Bool) (k : κ) :
    Live (log ++ ((m.values.filter test).map key).map .removed) k ↔
      ∃ n ∈ (m.removeIf test).values, key n = k := by
  rw [live_removed, hlive, Hmap.values_removeIf]
  simp only [List.mem_map, List.mem_filter, not_exists, not_and, Bool.not_eq_true']
  constructor
  · rintro ⟨⟨n, hn, hkey⟩, hkept⟩
    refine ⟨n, ⟨hn, ?_⟩, hkey⟩
    by_contra htest
    rw [Bool.not_eq_false] at htest
    exact hkept n ⟨hn, htest⟩ hkey
  · rintro ⟨n, ⟨hn, htest⟩, hkey⟩
    refine ⟨⟨n, hn, hkey⟩, fun m' hm' hkey' => ?_⟩
    rw [List.inj_on_of_nodup_map hnodup hm'.1 hn (hkey'.trans hkey.symm), htest] at hm'
    exact Bool.false_ne_true hm'.2

/-- The keys in a table after writes that leave them alone. -/
lemma exists_key_update {α κ : Type*} {key : α → κ} (m : Hmap α) {f : α → α}
    (hf : ∀ n, key (f n) = key n) (k : κ) :
    (∃ n ∈ (m.update f).values, key n = k) ↔ ∃ n ∈ m.values, key n = k := by
  rw [Hmap.values_update]
  simp only [List.mem_map, exists_exists_and_eq_and, hf]

lemma exists_skey_setSflow (s : Compact) {f : Sflow → Sflow} (hf : ∀ n, (f n).skey = n.skey)
    (addr : ℕ) (k : Skey) :
    (∃ n ∈ (s.setSflow addr f).sflows.values, n.skey = k) ↔ ∃ n ∈ s.sflows.values, n.skey = k := by
  apply exists_key_update
  intro n
  split_ifs
  · exact hf n
  · rfl

lemma exists_rkey_setRflow (s : Compact) {f : Rflow → Rflow} (hf : ∀ n, (f n).rkey = n.rkey)
    (j k : Rkey) :
    (∃ n ∈ (s.setRflow j f).rflows.values, n.rkey = k) ↔ ∃ n ∈ s.rflows.values, n.rkey = k := by
  apply exists_key_update
  intro n
  split_ifs
  · exact hf n
  · rfl

lemma Logged.created_of_some {ippkt : Mem} {s : Compact} {flow : Sflow}
    (hget : s.getSflow (getSflowKey ippkt) = some flow) : Logged.created ippkt s = [] := by
  rw [Logged.created, if_neg (by simp [hget])]

lemma Logged.requested_of_ne {cpkt : Mem} (hinfo : (Chdr.read cpkt).i ≠ ctypeCtlReq) :
    Logged.requested cpkt = [] := by
  rw [Logged.requested, if_neg (by simp [hinfo])]

lemma LoggedInv.xmit (h : LoggedInv x) {now : ℤ} {fresh : Fresh} {ippkt : Mem} {s' : Compact}
    {pkts : List Pkt} (hxmit : xmitCompress now fresh ippkt x.s = some (s', pkts)) :
    LoggedInv { x with s := s', slog := x.slog ++ Logged.created ippkt x.s } := by
  have hcases := xmitted hxmit
  have htouch : ∀ (s : Compact) (addr : ℕ) k,
      (∃ n ∈ (s.touchSflow now addr).sflows.values, n.skey = k) ↔
        ∃ n ∈ s.sflows.values, n.skey = k :=
    fun s => exists_skey_setSflow s fun _ => rfl
  have hpending : ∀ (s : Compact) (addr : ℕ) k,
      (∃ n ∈ (s.setSflow addr fun n => { n with state := .pending }).sflows.values, n.skey = k) ↔
        ∃ n ∈ s.sflows.values, n.skey = k :=
    fun s => exists_skey_setSflow s fun _ => rfl
  refine ⟨h.good.xmit hcases, fun k => ?_, fun k => ?_⟩
  · cases hcases with
    | refused hcannot hpkt =>
      rw [Logged.created, if_neg (by simp [hcannot]), List.append_nil]
      exact h.slog k
    | dropped hcan hget hid =>
      rw [Logged.created, if_neg (by simp [hid]), List.append_nil]
      exact h.slog k
    | @opened fid _ hcan hget hid hpkt =>
      have hvalues : ∀ n, n ∈ ({ x.s with idp := (getId x.s.idp).2 }.buildSflow now fresh
          (getSflowKey ippkt) ippkt (UInt8.ofNat fid)).1.sflows.values ↔
          n = newSflow now fresh ippkt x.s (UInt8.ofNat fid) ∨ n ∈ x.s.sflows.values :=
        fun n => Hmap.mem_values_insert
      rw [Logged.created, if_pos ⟨hcan, hget, by simp [hid]⟩, live_inserted, h.slog, htouch,
        hpending]
      simp only [hvalues, exists_eq_or_imp]
      rfl
    | again hcan hget hstate hpkt =>
      rw [Logged.created_of_some hget, List.append_nil, h.slog, htouch, hpending]
    | pending hcan hget hstate hpkt =>
      rw [Logged.created_of_some hget, List.append_nil, h.slog, htouch]
    | compressed hcan hget hstate hpkts =>
      rw [Logged.created_of_some hget, List.append_nil, h.slog, htouch]
  · have hrflows : s'.rflows = x.s.rflows := by
      cases hcases <;> rfl
    simp only [hrflows]
    exact h.rlog k

lemma LoggedInv.recv (h : LoggedInv x) {now : ℤ} {fresh : Fresh} {cpkt : Mem} {len : ℕ}
    {d : Decompressed} (hd : recvCompress now fresh cpkt len x.s = .ok d) :
    LoggedInv { x with s := d.s, rlog := x.rlog ++ Logged.requested cpkt } := by
  have hgood := h.good.recv hd
  cases decoded hd with
  | ipv4 hipv4 =>
    rw [Logged.requested, if_neg (by simp [hipv4]), List.append_nil]
    exact h
  | req hipv4 htype hinfo hget =>
    refine ⟨hgood, h.slog, fun k => ?_⟩
    have hvalues : ∀ n, n ∈ (x.s.buildRflow now fresh (getRflowKey (Chdr.read cpkt))
        cpkt).rflows.values ↔
        n = Compact.newRflow now fresh (getRflowKey (Chdr.read cpkt)) cpkt ∨
          n ∈ x.s.rflows.values := fun n => Hmap.mem_values_insert
    rw [Logged.requested, if_pos ⟨hipv4, htype, hinfo⟩, live_inserted, h.rlog]
    simp only [hvalues, exists_eq_or_imp]
    rfl
  | @ack addr hipv4 htype hinfo hget =>
    rw [Logged.requested_of_ne (by rw [hinfo]; decide), List.append_nil]
    exact ⟨hgood, fun k => (h.slog k).trans (exists_skey_setSflow x.s
      (f := fun n => { n with state := .established }) (fun _ => rfl) addr k).symm, h.rlog⟩
  | noAck hipv4 htype hinfo hget =>
    rw [Logged.requested_of_ne (by rw [hinfo]; decide), List.append_nil]
    exact h
  | flt hipv4 htype hinfo =>
    rw [Logged.requested_of_ne (by rw [hinfo]; decide), List.append_nil]
    exact h
  | @data rflow hdr pkt hipv4 htype hget =>
    rw [Logged.requested, if_neg (by simp [htype]), List.append_nil]
    set key := getRflowKey (Chdr.read cpkt)
    have htouch := exists_rkey_setRflow x.s
      (f := fun n => { n with softTimeout := softTimeout now })
      (fun _ => rfl) key
    have hhdr := exists_rkey_setRflow (x.s.touchRflow now key) (f := fun n => { n with hdr := hdr })
      (fun _ => rfl) key
    exact ⟨hgood, h.slog, fun k => (h.rlog k).trans ((hhdr k).trans (htouch k)).symm⟩

lemma LoggedInv.step (h : LoggedInv x) {op : CompactOp} (hstep : x.step op = some x') :
    LoggedInv x' := by
  cases op with
  | xmit now fresh ippkt =>
    obtain ⟨⟨s', pkts⟩, hxmit, rfl⟩ := Option.map_eq_some_iff.1 hstep
    exact h.xmit hxmit
  | recv now fresh cpkt len =>
    rw [Logged.step] at hstep
    cases hd : recvCompress now fresh cpkt len x.s with
    | error f =>
      simp only [hd] at hstep
      cases hstep
    | ok d =>
      simp only [hd] at hstep
      rw [← Option.some.inj hstep]
      exact h.recv hd
  | timer now =>
    rw [← Option.some.inj hstep, Compact.timerLoop_eq h.good.keyed]
    exact ⟨h.good.timerEvent now, live_removeIf h.good.keyed.sflows.nodup h.slog _,
      live_removeIf h.good.keyed.rflows.nodup h.rlog _⟩

lemma LoggedInv.run (h : LoggedInv x) {ops : List CompactOp} (hrun : Logged.run ops x = some x') :
    LoggedInv x' := by
  induction ops generalizing x with
  | nil =>
    rw [← Option.some.inj hrun]
    exact h
  | cons op ops ih =>
    obtain ⟨y, hstep, hrest⟩ := Option.bind_eq_some_iff.1 hrun
    exact ih (h.step hstep) hrest

/-- **The tables.**  After any run: no two send flows have one key or one id; the index points to
the flow of an id exactly when there is one; the free ids are those of no flow, each once; no two
receive flows have one key; and a lookup finds a flow, with the key it was asked for, exactly when
one was inserted and not removed since. -/
theorem tables_consistent {ops : List CompactOp} (hrun : Logged.run ops Logged.init = some x) :
    x.s.Consistent ∧
    (∀ k, (∃ n, x.s.getSflow k = some n) ↔ Live x.slog k) ∧
    (∀ k n, x.s.getSflow k = some n ↔ n ∈ x.s.sflows.values ∧ n.skey = k) ∧
    (∀ k, (∃ n, x.s.getRflow k = some n) ↔ Live x.rlog k) ∧
    ∀ k n, x.s.getRflow k = some n ↔ n ∈ x.s.rflows.values ∧ n.rkey = k := by
  have hinv := loggedInv_init.run hrun
  have hkeyed := hinv.good.keyed
  refine ⟨hinv.good.consistent, fun k => ?_, fun k n => hkeyed.getSflow_eq_some_iff, fun k => ?_,
    fun k n => hkeyed.getRflow_eq_some_iff⟩
  · simp only [hkeyed.getSflow_eq_some_iff]
    exact (hinv.slog k).symm
  · simp only [hkeyed.getRflow_eq_some_iff]
    exact (hinv.rlog k).symm

end

/-- A flow that is made, acknowledged and used, and expires. -/
theorem tables_consistent_udp : ∃ x, Logged.run [
      .xmit 0 default (Mem.overlay (fun _ => 0) udpPacket),
      .recv 10 default (Mem.overlay (fun _ => 0) (buildAck (Mem.overlay (fun _ => 0) [0, 1, 0]))) 3,
      .xmit 20 default (Mem.overlay (fun _ => 0) udpPacket),
      .timer 20000] Logged.init = some x ∧ x.s.Consistent := by
  have hsome : (Logged.run [
      .xmit 0 default (Mem.overlay (fun _ => 0) udpPacket),
      .recv 10 default (Mem.overlay (fun _ => 0) (buildAck (Mem.overlay (fun _ => 0) [0, 1, 0]))) 3,
      .xmit 20 default (Mem.overlay (fun _ => 0) udpPacket),
      .timer 20000] Logged.init).isSome = true := by decide +kernel
  obtain ⟨x, hrun⟩ := Option.isSome_iff_exists.1 hsome
  exact ⟨x, hrun, (tables_consistent hrun).1⟩

end Ipcf
