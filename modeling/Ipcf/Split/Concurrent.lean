import Ipcf.Split.Queue

/-!
# Concurrent calls of `upper_send`

Any number of calls of `upper_send` to one mac, with their critical sections interleaved in any
order: the lookup of `get_sse`, the replacement in `create_sse`, the release of the session that was
replaced, and the push of the packet, with `try_lower_send` behind it.  Sessions live at addresses
that are not used again, and a call that pushes onto a session that is gone has crashed.

The lookup and the replacement are two critical sections.  When the lookup of a second call comes
between those of the first, both calls make a session, and the one that is replaced goes away with
what has been pushed onto it.  `concurrent_sends_iff`: this is the only way in which a packet is
lost.
-/

namespace Ipcf

namespace Concurrent

/-- A call of `upper_send`; the mac it sends to is the same for all calls. -/
structure Call where
  smac : UInt8
  msg : Bytes

/-- A session, and for each packet of its queue the call that pushed it, if it was one of them. -/
structure Session where
  se : Sse
  owners : List (Option ℕ)
  length_eq : owners.length = se.pktList.length

/-- Where a call stands: before the lookup; with no session found; with a session of its own in the
table, and the one it has replaced still to be freed; with a session to push onto; and at its
end. -/
inductive Pc
  | lookup
  | create
  | free (old se : ℕ)
  | push (se : ℕ)
  | returned (ret : ℤ)
  | crashed
  deriving DecidableEq

/-- The table of sessions, the memory, and where the calls stand. -/
structure State where
  sse : UInt8 → Option ℕ
  heap : ℕ → Option Session
  next : ℕ
  lowerSendList : List Bytes
  pc : ℕ → Pc

/-- The call that goes on with its next critical section, the time, and the arrays that it finds. -/
structure Turn where
  call : ℕ
  now : ℤ
  stack : Stack

def State.goto (x : State) (i : ℕ) (pc : Pc) : State := { x with pc := Function.update x.pc i pc }

/-! ## A session -/

/-- Nothing is taken from the queue. -/
lemma upperSendSse_pktList_le (now : ℤ) (stack : Stack) (smac dmac : UInt8) (msg : Bytes)
    (se : Sse) :
    se.pktList.length ≤ (upperSendSse now stack smac dmac msg se).1.1.pktList.length := by
  unfold upperSendSse
  simp only
  split
  · exact Nat.le_refl _
  · rw [tryLowerSend_pktList, List.length_append]
    exact Nat.le_add_right _ _

/-- The session of `create_sse`. -/
def newSession (now : ℤ) : Session := ⟨createSse now, [], rfl⟩

/-- The call `i` of `upper_send` from the lookup on: the session, the queued frames, and the return
value. -/
def Session.send (i : ℕ) (now : ℤ) (stack : Stack) (smac dmac : UInt8) (msg : Bytes) (s : Session) :
    Session × List Bytes × ℤ :=
  let r := upperSendSse now stack smac dmac msg s.se
  ({ se := r.1.1
     owners := s.owners ++ List.replicate (r.1.1.pktList.length - s.se.pktList.length) (some i)
     length_eq := by
       have hle : s.se.pktList.length ≤ r.1.1.pktList.length :=
         upperSendSse_pktList_le now stack smac dmac msg s.se
       rw [List.length_append, List.length_replicate, s.length_eq]
       omega },
    r.1.2, r.2)

/-- `get_sse` puts the idle timer back. -/
def Session.touch (now : ℤ) (s : Session) : Session :=
  ⟨{ s.se with idleTimeout := now + idleTimeout }, s.owners, s.length_eq⟩

/-! ## One critical section -/

def step (calls : List Call) (dmac : UInt8) (x : State) (t : Turn) : Option State :=
  match calls[t.call]? with
  | none => none
  | some c =>
    match x.pc t.call with
    | .lookup =>
      match x.sse dmac with
      | some a =>
        some ({ x with
          heap := Function.update x.heap a ((x.heap a).map (Session.touch t.now)) }.goto t.call
            (.push a))
      | none => some (x.goto t.call .create)
    | .create =>
      let x' := { x with
        sse := Function.update x.sse dmac (some x.next)
        heap := Function.update x.heap x.next (some (newSession t.now))
        next := x.next + 1 }
      match x.sse dmac with
      | some old => some (x'.goto t.call (.free old x.next))
      | none => some (x'.goto t.call (.push x.next))
    | .free old a =>
      some ({ x with heap := Function.update x.heap old none }.goto t.call (.push a))
    | .push a =>
      match x.heap a with
      | none => some (x.goto t.call .crashed)
      | some s =>
        let r := s.send t.call t.now t.stack c.smac dmac c.msg
        some ({ x with
          heap := Function.update x.heap a (some r.1)
          lowerSendList := x.lowerSendList ++ r.2.1 }.goto t.call (.returned r.2.2))
    | .returned _ => none
    | .crashed => none

/-- The state after the turns, if every turn is that of a call that has not come to its end. -/
def run (calls : List Call) (dmac : UInt8) : (turns : List Turn) → State → Option State
  | [], x => some x
  | t :: turns, x => (step calls dmac x t).bind (run calls dmac turns)

/-- A table before the calls: its sessions are in memory, and no packet in them is of a call. -/
structure Table where
  sse : UInt8 → Option ℕ
  heap : ℕ → Option Session
  next : ℕ
  fresh : ∀ a, next ≤ a → heap a = none
  live : ∀ k a, sse k = some a → heap a ≠ none
  unowned : ∀ a s, heap a = some s → ∀ o ∈ s.owners, o = none

/-- The calls are made; one without a message returns at once. -/
def Table.enter (table : Table) (calls : List Call) : State where
  sse := table.sse
  heap := table.heap
  next := table.next
  lowerSendList := []
  pc i :=
    match calls[i]? with
    | some c => if c.msg = [] then .returned (-1) else .lookup
    | none => .returned (-1)

/-- Every call has come to its end. -/
def Finished (calls : List Call) (x : State) : Prop :=
  ∀ i < calls.length, x.pc i = .crashed ∨ ∃ r, x.pc i = .returned r

/-- The packet of the call `i`, which returned `r`, is in the queue of the session. -/
def InQueue (c : Call) (dmac : UInt8) (i : ℕ) (r : ℤ) (s : Session) : Prop :=
  ∃ pkt p, (some i, pkt) ∈ s.owners.zip s.se.pktList ∧ pkt.Carries c.smac dmac p ∧
    p.payload = c.msg.take r.toNat

/-- No call has pushed onto a session that was freed, and the packet of each call that returned a
length is in the queue of the session in the table. -/
structure Lossless (calls : List Call) (dmac : UInt8) (x : State) : Prop where
  alive : ∀ i, x.pc i ≠ .crashed
  queued : ∀ i c r, calls[i]? = some c → x.pc i = .returned r → 0 < r →
    ∃ a s, x.sse dmac = some a ∧ x.heap a = some s ∧ InQueue c dmac i r s

/-! ## What a turn can do -/

inductive Stepped (calls : List Call) (dmac : UInt8) (x : State) (t : Turn) : State → Prop
  | found {a : ℕ} (pc : x.pc t.call = .lookup) (entry : x.sse dmac = some a) :
      Stepped calls dmac x t ({ x with
        heap := Function.update x.heap a ((x.heap a).map (Session.touch t.now)) }.goto t.call
          (.push a))
  | missed (pc : x.pc t.call = .lookup) (entry : x.sse dmac = none) :
      Stepped calls dmac x t (x.goto t.call .create)
  | created {pc' : Pc} (pc : x.pc t.call = .create)
      (next : (∃ old, x.sse dmac = some old ∧ pc' = .free old x.next) ∨
        (x.sse dmac = none ∧ pc' = .push x.next)) :
      Stepped calls dmac x t ({ x with
        sse := Function.update x.sse dmac (some x.next)
        heap := Function.update x.heap x.next (some (newSession t.now))
        next := x.next + 1 }.goto t.call pc')
  | freed {old a : ℕ} (pc : x.pc t.call = .free old a) :
      Stepped calls dmac x t
        ({ x with heap := Function.update x.heap old none }.goto t.call (.push a))
  | pushed {a : ℕ} {s : Session} {c : Call} (pc : x.pc t.call = .push a)
      (session : x.heap a = some s)
      (call : calls[t.call]? = some c) :
      Stepped calls dmac x t ({ x with
        heap := Function.update x.heap a (some (s.send t.call t.now t.stack c.smac dmac c.msg).1)
        lowerSendList := x.lowerSendList ++
          (s.send t.call t.now t.stack c.smac dmac c.msg).2.1 }.goto t.call
            (.returned (s.send t.call t.now t.stack c.smac dmac c.msg).2.2))
  | dangled {a : ℕ} (pc : x.pc t.call = .push a) (session : x.heap a = none) :
      Stepped calls dmac x t (x.goto t.call .crashed)

section

variable {calls : List Call} {dmac : UInt8} {x x' : State} {t : Turn}

lemma stepped (h : step calls dmac x t = some x') : Stepped calls dmac x t x' := by
  rw [step] at h
  cases hcall : calls[t.call]? with
  | none =>
    rw [hcall] at h
    cases h
  | some c =>
    simp only [hcall] at h
    cases hpc : x.pc t.call with
    | lookup =>
      simp only [hpc] at h
      cases hentry : x.sse dmac with
      | none =>
        simp only [hentry] at h
        obtain rfl := Option.some.inj h
        exact .missed hpc hentry
      | some a =>
        simp only [hentry] at h
        obtain rfl := Option.some.inj h
        exact .found hpc hentry
    | create =>
      simp only [hpc] at h
      cases hentry : x.sse dmac with
      | none =>
        simp only [hentry] at h
        obtain rfl := Option.some.inj h
        exact .created hpc (.inr ⟨hentry, rfl⟩)
      | some old =>
        simp only [hentry] at h
        obtain rfl := Option.some.inj h
        exact .created hpc (.inl ⟨old, hentry, rfl⟩)
    | free old a =>
      simp only [hpc] at h
      obtain rfl := Option.some.inj h
      exact .freed hpc
    | push a =>
      simp only [hpc] at h
      cases hheap : x.heap a with
      | none =>
        simp only [hheap] at h
        obtain rfl := Option.some.inj h
        exact .dangled hpc hheap
      | some s =>
        simp only [hheap] at h
        obtain rfl := Option.some.inj h
        exact .pushed hpc hheap hcall
    | returned r =>
      simp only [hpc] at h
      cases h
    | crashed =>
      simp only [hpc] at h
      cases h

/-! From a known place there is one way on. -/

lemma Stepped.of_lookup (h : Stepped calls dmac x t x') (hpc : x.pc t.call = .lookup)
    (hentry : x.sse dmac = none) : x' = x.goto t.call .create := by
  cases h with
  | found _ hfound => cases hentry.symm.trans hfound
  | missed => rfl
  | created hbad => cases hpc.symm.trans hbad
  | freed hbad => cases hpc.symm.trans hbad
  | pushed hbad => cases hpc.symm.trans hbad
  | dangled hbad => cases hpc.symm.trans hbad

lemma Stepped.of_create (h : Stepped calls dmac x t x') (hpc : x.pc t.call = .create) :
    ∃ pc', ((∃ old, x.sse dmac = some old ∧ pc' = .free old x.next) ∨
        (x.sse dmac = none ∧ pc' = .push x.next)) ∧
      x' = { x with
        sse := Function.update x.sse dmac (some x.next)
        heap := Function.update x.heap x.next (some (newSession t.now))
        next := x.next + 1 }.goto t.call pc' := by
  cases h with
  | created _ hnext => exact ⟨_, hnext, rfl⟩
  | found hbad => cases hpc.symm.trans hbad
  | missed hbad => cases hpc.symm.trans hbad
  | freed hbad => cases hpc.symm.trans hbad
  | pushed hbad => cases hpc.symm.trans hbad
  | dangled hbad => cases hpc.symm.trans hbad

/-- A call that has come to its end has no turn. -/
lemma Stepped.pc_ne_end (h : Stepped calls dmac x t x') :
    (∀ r, x.pc t.call ≠ .returned r) ∧ x.pc t.call ≠ .crashed := by
  cases h with
  | found hpc => simp [hpc]
  | missed hpc => simp [hpc]
  | created hpc => simp [hpc]
  | freed hpc => simp [hpc]
  | pushed hpc => simp [hpc]
  | dangled hpc => simp [hpc]

end

/-- A property of every run that every turn keeps. -/
lemma run_induction {calls : List Call} {dmac : UInt8} {Inv : State → Prop}
    (hkeep : ∀ x x' t, Stepped calls dmac x t x' → Inv x → Inv x') {turns : List Turn}
    {x x' : State} (hrun : run calls dmac turns x = some x') (hx : Inv x) : Inv x' := by
  induction turns generalizing x with
  | nil =>
    rw [← Option.some.inj hrun]
    exact hx
  | cons t turns ih =>
    obtain ⟨y, hstep, hrest⟩ := Option.bind_eq_some_iff.1 hrun
    exact ih hrest (hkeep x y t (stepped hstep) hx)

/-! ## One call to the queue -/

/-- A push adds the packet of the call, if its message is not empty. -/
lemma Session.send_cases (i : ℕ) (now : ℤ) (stack : Stack) (smac dmac : UInt8) (msg : Bytes)
    (s : Session) :
    (msg = [] ∧ (s.send i now stack smac dmac msg).2.2 = -1) ∨
      (∃ pkt p, (s.send i now stack smac dmac msg).1.owners = s.owners ++ [some i] ∧
        (s.send i now stack smac dmac msg).1.se.pktList = s.se.pktList ++ [pkt] ∧
        (s.send i now stack smac dmac msg).2.2 = (p.payload.length : ℤ) ∧
        p.payload = msg.take p.payload.length ∧ pkt.Carries smac dmac p) := by
  by_cases hmsg : msg = []
  · left
    refine ⟨hmsg, ?_⟩
    rw [hmsg]
    rfl
  · right
    obtain ⟨p, pkt, hret, -, htake, hcarries⟩ := upperSendSse_spec now stack smac dmac hmsg s.se
    have hlist : (upperSendSse now stack smac dmac msg s.se).1.1.pktList =
        s.se.pktList ++ [pkt] := by
      rw [hret, tryLowerSend_pktList]
    refine ⟨pkt, p, ?_, hlist, congrArg Prod.snd hret, htake, hcarries⟩
    change s.owners ++ List.replicate _ (some i) = _
    rw [hlist, List.length_append, Nat.add_sub_cancel_left]
    rfl

/-- What a push adds to the owners is the call. -/
lemma Session.mem_owners_send {i : ℕ} {now : ℤ} {stack : Stack} {smac dmac : UInt8} {msg : Bytes}
    {s : Session} {o : Option ℕ} (h : o ∈ (s.send i now stack smac dmac msg).1.owners) :
    o ∈ s.owners ∨ o = some i := by
  rcases List.mem_append.1 h with h | h
  · exact .inl h
  · exact .inr (List.eq_of_mem_replicate h)

/-- A packet stays in the queue. -/
lemma InQueue.send {c : Call} {dmac : UInt8} {i : ℕ} {r : ℤ} {s : Session}
    (h : InQueue c dmac i r s) (j : ℕ) (now : ℤ) (stack : Stack) (smac : UInt8) (msg : Bytes) :
    InQueue c dmac i r (s.send j now stack smac dmac msg).1 := by
  obtain ⟨pkt, p, hmem, hcarries, hpayload⟩ := h
  refine ⟨pkt, p, ?_, hcarries, hpayload⟩
  obtain ⟨pkts, hpkts⟩ : ∃ pkts,
      (s.send j now stack smac dmac msg).1.se.pktList = s.se.pktList ++ pkts := by
    rcases s.send_cases j now stack smac dmac msg with ⟨hmsg, -⟩ | ⟨pkt, -, -, hlist, -⟩
    · refine ⟨[], ?_⟩
      rw [List.append_nil, hmsg]
      rfl
    · exact ⟨[pkt], hlist⟩
  change (some i, pkt) ∈ (s.owners ++ List.replicate _ (some j)).zip _
  rw [hpkts, List.zip_append s.length_eq]
  exact List.mem_append_left _ hmem

/-- The packet of the call that pushes. -/
lemma inQueue_send {c : Call} {dmac : UInt8} {i : ℕ} {now : ℤ} {stack : Stack} {s : Session}
    (hpos : 0 < (s.send i now stack c.smac dmac c.msg).2.2) :
    InQueue c dmac i (s.send i now stack c.smac dmac c.msg).2.2
      (s.send i now stack c.smac dmac c.msg).1 := by
  rcases s.send_cases i now stack c.smac dmac c.msg with
    ⟨-, hret⟩ | ⟨pkt, p, howners, hlist, hret, htake, hcarries⟩
  · omega
  · refine ⟨pkt, p, ?_, hcarries, ?_⟩
    · rw [howners, hlist, List.zip_append s.length_eq]
      exact List.mem_append_right _ (List.mem_singleton_self _)
    · rw [hret, Int.toNat_natCast]
      exact htake

/-! ## With a session in the table -/

/-- The session at `a` is in the table, and no call makes another. -/
structure Settled (calls : List Call) (dmac : UInt8) (a : ℕ) (x : State) : Prop where
  entry : x.sse dmac = some a
  session : x.heap a ≠ none
  pcs : ∀ i, x.pc i = .lookup ∨ x.pc i = .push a ∨ ∃ r, x.pc i = .returned r
  queued : ∀ i c r, calls[i]? = some c → x.pc i = .returned r → 0 < r →
    ∃ s, x.heap a = some s ∧ InQueue c dmac i r s

section

variable {calls : List Call} {dmac : UInt8} {a : ℕ} {x x' : State} {t : Turn}

lemma Settled.pc_ne_create (h : Settled calls dmac a x) (i : ℕ) : x.pc i ≠ .create := by
  intro hpc
  rcases h.pcs i with hi | hi | ⟨r, hi⟩
  · cases hi.symm.trans hpc
  · cases hi.symm.trans hpc
  · cases hi.symm.trans hpc

lemma Settled.pc_ne_free (h : Settled calls dmac a x) (i old b : ℕ) : x.pc i ≠ .free old b := by
  intro hpc
  rcases h.pcs i with hi | hi | ⟨r, hi⟩
  · cases hi.symm.trans hpc
  · cases hi.symm.trans hpc
  · cases hi.symm.trans hpc

lemma Settled.eq_of_push (h : Settled calls dmac a x) {i b : ℕ} (hpc : x.pc i = .push b) :
    b = a := by
  rcases h.pcs i with hi | hi | ⟨r, hi⟩
  · cases hi.symm.trans hpc
  · exact Pc.push.inj (hpc.symm.trans hi)
  · cases hi.symm.trans hpc

lemma Settled.step (h : Settled calls dmac a x) (hstep : Stepped calls dmac x t x') :
    Settled calls dmac a x' := by
  cases hstep with
  | @found b hpc hentry =>
    obtain rfl : b = a := Option.some.inj (hentry.symm.trans h.entry)
    obtain ⟨s, hs⟩ := Option.ne_none_iff_exists'.1 h.session
    refine ⟨h.entry, ?_, fun i => ?_, fun i c r hc hi hr => ?_⟩
    · simp only [State.goto, Function.update_self, hs, Option.map_some]
      exact Option.some_ne_none _
    · simp only [State.goto, Function.update_apply]
      split_ifs
      · exact .inr (.inl rfl)
      · exact h.pcs i
    · simp only [State.goto, Function.update_apply] at hi
      split_ifs at hi
      obtain ⟨s', hs', hqueue⟩ := h.queued i c r hc hi hr
      refine ⟨s'.touch t.now, ?_, hqueue⟩
      simp only [State.goto, Function.update_self, hs', Option.map_some]
  | missed hpc hentry => cases hentry.symm.trans h.entry
  | created hpc => exact absurd hpc (h.pc_ne_create _)
  | freed hpc => exact absurd hpc (h.pc_ne_free _ _ _)
  | @pushed b s c hpc hsession hcall =>
    obtain rfl : b = a := h.eq_of_push hpc
    refine ⟨h.entry, ?_, fun i => ?_, fun i c' r hc hi hr => ?_⟩
    · simp only [State.goto, Function.update_self]
      exact Option.some_ne_none _
    · simp only [State.goto, Function.update_apply]
      split_ifs
      · exact .inr (.inr ⟨_, rfl⟩)
      · exact h.pcs i
    · simp only [State.goto, Function.update_apply] at hi
      refine ⟨_, Function.update_self _ _ _, ?_⟩
      split_ifs at hi with hit
      · obtain rfl := Pc.returned.inj hi
        rw [hit] at hc ⊢
        obtain rfl := Option.some.inj (hcall.symm.trans hc)
        exact inQueue_send hr
      · obtain ⟨s', hs', hqueue⟩ := h.queued i c' r hc hi hr
        obtain rfl := Option.some.inj (hsession.symm.trans hs')
        exact hqueue.send _ _ _ _ _
  | @dangled b hpc hsession =>
    obtain rfl : b = a := h.eq_of_push hpc
    exact absurd hsession h.session

lemma Settled.lossless (h : Settled calls dmac a x) : Lossless calls dmac x where
  alive i hi := by
    rcases h.pcs i with hpc | hpc | ⟨r, hpc⟩
    · cases hpc.symm.trans hi
    · cases hpc.symm.trans hi
    · cases hpc.symm.trans hi
  queued i c r hc hi hr := by
    obtain ⟨s, hs, hqueue⟩ := h.queued i c r hc hi hr
    exact ⟨a, s, h.entry, hs, hqueue⟩

end

/-! ## With two calls that make a session -/

/-- No packet is of the call. -/
def Untagged (x : State) (i : ℕ) : Prop := ∀ b s, x.heap b = some s → some i ∉ s.owners

/-- The call has found no session and is about to make one. -/
structure Waits (calls : List Call) (x : State) (i : ℕ) : Prop where
  call : ∃ c, calls[i]? = some c ∧ c.msg ≠ []
  pc : x.pc i = .create
  untagged : Untagged x i

/-- The call has made the session at `a`, and its packet is nowhere else. -/
structure Owns (calls : List Call) (x : State) (i a : ℕ) : Prop where
  call : ∃ c, calls[i]? = some c ∧ c.msg ≠ []
  lt : a < x.next
  only : ∀ b s, x.heap b = some s → some i ∈ s.owners → b = a
  pc : x.pc i = .push a ∨ (∃ old, x.pc i = .free old a) ∨ x.pc i = .crashed ∨
    ∃ r, x.pc i = .returned r ∧ 0 < r

/-- Two calls make a session: neither has made it, or one has, or the session in the table is not
that of one of them. -/
inductive Raced (calls : List Call) (dmac : UInt8) (x : State) : Prop
  | both {i j : ℕ} (ne : i ≠ j) (first : Waits calls x i) (second : Waits calls x j)
  | one {i j a : ℕ} (ne : i ≠ j) (owns : Owns calls x i a) (second : Waits calls x j)
  | lost {i a b : ℕ} (owns : Owns calls x i a) (entry : x.sse dmac = some b) (ne : b ≠ a)

section

variable {calls : List Call} {dmac : UInt8} {x x' : State} {t : Turn} {i a : ℕ}

/-- A packet that is there after a turn was there before, or is of the call that has pushed. -/
lemma mem_owners_of_stepped (hstep : Stepped calls dmac x t x') {b : ℕ} {s' : Session}
    (hs' : x'.heap b = some s') (hmem : some i ∈ s'.owners) :
    (∃ s, x.heap b = some s ∧ some i ∈ s.owners) ∨ (x.pc t.call = .push b ∧ t.call = i) := by
  cases hstep with
  | @found a hpc hentry =>
    simp only [State.goto, Function.update_apply] at hs'
    split_ifs at hs' with hb
    · obtain ⟨s, hs, rfl⟩ := Option.map_eq_some_iff.1 hs'
      exact .inl ⟨s, hb ▸ hs, hmem⟩
    · exact .inl ⟨s', hs', hmem⟩
  | missed => exact .inl ⟨s', hs', hmem⟩
  | created =>
    simp only [State.goto, Function.update_apply] at hs'
    split_ifs at hs' with hb
    · obtain rfl := Option.some.inj hs'
      cases hmem
    · exact .inl ⟨s', hs', hmem⟩
  | freed =>
    simp only [State.goto, Function.update_apply] at hs'
    split_ifs at hs' with hb
    exact .inl ⟨s', hs', hmem⟩
  | @pushed a s c hpc hsession hcall =>
    simp only [State.goto, Function.update_apply] at hs'
    split_ifs at hs' with hb
    · obtain rfl := Option.some.inj hs'
      rcases Session.mem_owners_send hmem with hold | hnew
      · exact .inl ⟨s, hb ▸ hsession, hold⟩
      · exact .inr ⟨hb ▸ hpc, (Option.some.inj hnew).symm⟩
    · exact .inl ⟨s', hs', hmem⟩
  | dangled => exact .inl ⟨s', hs', hmem⟩

/-- A turn of another call leaves a call where it stands. -/
lemma pc_of_stepped (hstep : Stepped calls dmac x t x') (hi : i ≠ t.call) : x'.pc i = x.pc i := by
  cases hstep <;> exact Function.update_of_ne hi _ _

lemma next_le_of_stepped (hstep : Stepped calls dmac x t x') : x.next ≤ x'.next := by
  cases hstep with
  | created => exact Nat.le_succ _
  | _ => exact Nat.le_refl _

lemma Untagged.step (h : Untagged x i) (hstep : Stepped calls dmac x t x')
    (hpc : ∀ b, x.pc i ≠ .push b) : Untagged x' i := by
  intro b s' hs' hmem
  rcases mem_owners_of_stepped hstep hs' hmem with ⟨s, hs, hold⟩ | ⟨hpush, rfl⟩
  · exact h b s hs hold
  · exact hpc b hpush

/-- A call that waits goes on waiting while others have their turns. -/
lemma Waits.step (h : Waits calls x i) (hstep : Stepped calls dmac x t x') (hi : i ≠ t.call) :
    Waits calls x' i :=
  ⟨h.call, by rw [pc_of_stepped hstep hi, h.pc],
    h.untagged.step hstep fun b hb => by cases h.pc.symm.trans hb⟩

/-- And makes its session in its turn. -/
lemma Waits.owns (h : Waits calls x t.call) (hstep : Stepped calls dmac x t x') :
    Owns calls x' t.call x.next ∧ x'.sse dmac = some x.next := by
  have huntagged := h.untagged.step hstep fun b hb => by cases h.pc.symm.trans hb
  obtain ⟨pc', hnext, rfl⟩ := hstep.of_create h.pc
  refine ⟨⟨h.call, Nat.lt_succ_self _, fun b s hs hmem => absurd hmem (huntagged b s hs), ?_⟩,
    Function.update_self _ _ _⟩
  simp only [State.goto, Function.update_self]
  rcases hnext with ⟨old, -, rfl⟩ | ⟨-, rfl⟩
  · exact .inr (.inl ⟨old, rfl⟩)
  · exact .inl rfl

/-- A call that has made a session stays with it. -/
lemma Owns.step (h : Owns calls x i a) (hstep : Stepped calls dmac x t x') : Owns calls x' i a := by
  have honly : ∀ b s, x'.heap b = some s → some i ∈ s.owners → b = a := by
    intro b s' hs' hmem
    rcases mem_owners_of_stepped hstep hs' hmem with ⟨s, hs, hold⟩ | ⟨hpush, rfl⟩
    · exact h.only b s hs hold
    · rcases h.pc with hpc | ⟨old, hpc⟩ | hpc | ⟨r, hpc, -⟩
      · exact (Pc.push.inj (hpc.symm.trans hpush)).symm
      · cases hpc.symm.trans hpush
      · cases hpc.symm.trans hpush
      · cases hpc.symm.trans hpush
  refine ⟨h.call, Nat.lt_of_lt_of_le h.lt (next_le_of_stepped hstep), honly, ?_⟩
  by_cases hi : i = t.call
  · subst hi
    cases hstep with
    | found hpc =>
      rcases h.pc with hi | ⟨old, hi⟩ | hi | ⟨r, hi, -⟩ <;> cases hi.symm.trans hpc
    | missed hpc =>
      rcases h.pc with hi | ⟨old, hi⟩ | hi | ⟨r, hi, -⟩ <;> cases hi.symm.trans hpc
    | created hpc =>
      rcases h.pc with hi | ⟨old, hi⟩ | hi | ⟨r, hi, -⟩ <;> cases hi.symm.trans hpc
    | @freed old b hpc =>
      simp only [State.goto, Function.update_self]
      rcases h.pc with hi | ⟨old', hi⟩ | hi | ⟨r, hi, -⟩
      · cases hi.symm.trans hpc
      · exact .inl (by rw [(Pc.free.inj (hpc.symm.trans hi)).2])
      · cases hi.symm.trans hpc
      · cases hi.symm.trans hpc
    | @pushed b s c hpc hsession hcall =>
      obtain ⟨c', hc', hmsg⟩ := h.call
      obtain rfl := Option.some.inj (hcall.symm.trans hc')
      simp only [State.goto, Function.update_self]
      refine .inr (.inr (.inr ⟨_, rfl, ?_⟩))
      rcases s.send_cases t.call t.now t.stack c.smac dmac c.msg with
        ⟨hnil, -⟩ | ⟨pkt, p, -, -, hret, -, -⟩
      · exact absurd hnil hmsg
      · have hpos : 0 < p.payload.length := List.length_pos_iff.2 p.payload_ne
        omega
    | dangled hpc => exact .inr (.inr (.inl (Function.update_self _ _ _)))
  · rw [pc_of_stepped hstep hi]
    exact h.pc

/-- The table changes to a new session only. -/
lemma sse_of_stepped (hstep : Stepped calls dmac x t x') :
    x'.sse dmac = x.sse dmac ∨ x'.sse dmac = some x.next := by
  cases hstep with
  | created => exact .inr (Function.update_self _ _ _)
  | _ => exact .inl rfl

lemma Raced.step (h : Raced calls dmac x) (hstep : Stepped calls dmac x t x') :
    Raced calls dmac x' := by
  cases h with
  | @both i j hne hfirst hsecond =>
    by_cases hi : i = t.call
    · subst hi
      exact .one hne (hfirst.owns hstep).1 (hsecond.step hstep (Ne.symm hne))
    · by_cases hj : j = t.call
      · subst hj
        exact .one (Ne.symm hne) (hsecond.owns hstep).1 (hfirst.step hstep hi)
      · exact .both hne (hfirst.step hstep hi) (hsecond.step hstep hj)
  | @one i j a hne howns hsecond =>
    by_cases hj : j = t.call
    · subst hj
      have hlt := howns.lt
      exact .lost (howns.step hstep) (hsecond.owns hstep).2 (by omega)
    · exact .one hne (howns.step hstep) (hsecond.step hstep hj)
  | @lost i a b howns hentry hne =>
    rcases sse_of_stepped hstep with hsame | hnew
    · exact .lost (howns.step hstep) (hsame.trans hentry) hne
    · have hlt := howns.lt
      exact .lost (howns.step hstep) hnew (by omega)

lemma Finished.pc (h : Finished calls x) {c : Call} (hc : calls[i]? = some c) :
    x.pc i = .crashed ∨ ∃ r, x.pc i = .returned r :=
  h i (List.getElem?_eq_some_iff.1 hc).1

lemma Waits.not_finished (h : Waits calls x i) : ¬ Finished calls x := by
  intro hdone
  obtain ⟨c, hc, -⟩ := h.call
  rcases hdone.pc hc with hpc | ⟨r, hpc⟩
  · cases hpc.symm.trans h.pc
  · cases hpc.symm.trans h.pc

/-- At the end the packet of a call is lost. -/
lemma Raced.not_lossless (h : Raced calls dmac x) (hdone : Finished calls x) :
    ¬ Lossless calls dmac x := by
  cases h with
  | both _ hfirst _ => exact absurd hdone hfirst.not_finished
  | one _ _ hsecond => exact absurd hdone hsecond.not_finished
  | @lost i a b howns hentry hne =>
    intro hlossless
    obtain ⟨c, hc, -⟩ := howns.call
    rcases hdone.pc hc with hpc | ⟨r, hpc⟩
    · exact hlossless.alive i hpc
    · have hr : 0 < r := by
        rcases howns.pc with hi | ⟨old, hi⟩ | hi | ⟨r', hi, hr⟩
        · cases hi.symm.trans hpc
        · cases hi.symm.trans hpc
        · cases hi.symm.trans hpc
        · exact Pc.returned.inj (hi.symm.trans hpc) ▸ hr
      obtain ⟨a', s, hsse, hs, pkt, p, hmem, -, -⟩ := hlossless.queued i c r hc hpc hr
      obtain rfl : b = a' := Option.some.inj (hentry.symm.trans hsse)
      exact hne (howns.only b s hs (List.of_mem_zip hmem).1)

end

/-! ## All runs -/

section

variable {calls : List Call} {dmac : UInt8} {table : Table} {turns : List Turn} {x : State}

lemma enter_pc_cases (table : Table) (calls : List Call) (i : ℕ) :
    ((table.enter calls).pc i = .lookup ∧ ∃ c, calls[i]? = some c ∧ c.msg ≠ []) ∨
      (table.enter calls).pc i = .returned (-1) := by
  simp only [Table.enter]
  cases hc : calls[i]? with
  | none => exact .inr rfl
  | some c =>
    by_cases hmsg : c.msg = []
    · exact .inr (if_pos hmsg)
    · exact .inl ⟨if_neg hmsg, c, rfl, hmsg⟩

/-- A call that has returned before any turn has had no message. -/
lemma returned_enter {i : ℕ} {r : ℤ} (hi : (table.enter calls).pc i = .returned r) : ¬ 0 < r := by
  rcases enter_pc_cases table calls i with ⟨hpc, -⟩ | hpc
  · cases hpc.symm.trans hi
  · have := Pc.returned.inj (hpc.symm.trans hi)
    omega

lemma settled_enter {a : ℕ} (hentry : table.sse dmac = some a) :
    Settled calls dmac a (table.enter calls) where
  entry := hentry
  session := table.live dmac a hentry
  pcs i := by
    rcases enter_pc_cases table calls i with ⟨hpc, -⟩ | hpc
    · exact .inl hpc
    · exact .inr (.inr ⟨_, hpc⟩)
  queued i c r _ hi hr := absurd hr (returned_enter hi)

lemma lossless_enter : Lossless calls dmac (table.enter calls) where
  alive i hi := by
    rcases enter_pc_cases table calls i with ⟨hpc, -⟩ | hpc
    · cases hpc.symm.trans hi
    · cases hpc.symm.trans hi
  queued i c r _ hi hr := absurd hr (returned_enter hi)

lemma untagged_enter (table : Table) (calls : List Call) (i : ℕ) :
    Untagged (table.enter calls) i := by
  intro b s hs hmem
  cases table.unowned b s hs _ hmem

/-- Without a session in the table the first turn is a lookup that finds none. -/
lemma first_turn (hentry : table.sse dmac = none) {t : Turn} {x₁ : State}
    (hstep : Stepped calls dmac (table.enter calls) t x₁) :
    x₁ = (table.enter calls).goto t.call .create ∧ Waits calls x₁ t.call := by
  rcases enter_pc_cases table calls t.call with ⟨hpc, hcall⟩ | hret
  · obtain rfl := hstep.of_lookup hpc hentry
    exact ⟨rfl, hcall, Function.update_self _ _ _, untagged_enter table calls _⟩
  · exact absurd hret (hstep.pc_ne_end.1 _)

/-- If the call goes on at once, its session is in the table before any other call looks. -/
lemma settled_second_turn (hentry : table.sse dmac = none) {i : ℕ} {t : Turn} (ht : t.call = i)
    {x₂ : State} (hstep : Stepped calls dmac ((table.enter calls).goto i .create) t x₂) :
    Settled calls dmac table.next x₂ := by
  subst ht
  obtain ⟨pc', hnext, rfl⟩ := hstep.of_create (Function.update_self _ _ _)
  have hpush : pc' = .push table.next := by
    rcases hnext with ⟨old, hold, -⟩ | ⟨-, hpush⟩
    · cases hentry.symm.trans hold
    · exact hpush
  refine ⟨Function.update_self _ _ _, ?_, fun i => ?_, fun i c r hc hi hr => ?_⟩
  · change Function.update table.heap table.next _ table.next ≠ none
    rw [Function.update_self]
    exact Option.some_ne_none _
  · simp only [State.goto, Function.update_apply]
    split_ifs with hi
    · exact .inr (.inl hpush)
    · rcases enter_pc_cases table calls i with ⟨hpc, -⟩ | hpc
      · exact .inl hpc
      · exact .inr (.inr ⟨_, hpc⟩)
  · simp only [State.goto, Function.update_apply] at hi
    split_ifs at hi with hit
    · rw [hpush] at hi
      cases hi
    · exact absurd hr (returned_enter hi)

/-- If another call has the second turn, it finds no session either. -/
lemma raced_second_turn (hentry : table.sse dmac = none) {i : ℕ}
    (hwaits : Waits calls ((table.enter calls).goto i .create) i) {t : Turn} (ht : i ≠ t.call)
    {x₂ : State} (hstep : Stepped calls dmac ((table.enter calls).goto i .create) t x₂) :
    Raced calls dmac x₂ := by
  have hfirst := hwaits.step hstep ht
  have hpc : ((table.enter calls).goto i .create).pc t.call = (table.enter calls).pc t.call :=
    Function.update_of_ne (Ne.symm ht) _ _
  have huntagged : Untagged ((table.enter calls).goto i .create) t.call :=
    untagged_enter table calls _
  rcases enter_pc_cases table calls t.call with ⟨hlookup, hcall⟩ | hret
  · rw [hlookup] at hpc
    have huntagged' := huntagged.step hstep fun b hb => by cases hpc.symm.trans hb
    obtain rfl := hstep.of_lookup hpc hentry
    exact .both ht hfirst ⟨hcall, Function.update_self _ _ _, huntagged'⟩
  · rw [hret] at hpc
    exact absurd hpc (hstep.pc_ne_end.1 _)

/-- **Concurrent calls.**  When all calls have come to their end, no packet has been lost if and
only if there was a session in the table at the start, or the call that had the first turn also had
the second: it put its session into the table before another call looked. -/
theorem concurrent_sends_iff (hrun : run calls dmac turns (table.enter calls) = some x)
    (hdone : Finished calls x) :
    Lossless calls dmac x ↔
      table.sse dmac ≠ none ∨ turns[0]?.map Turn.call = turns[1]?.map Turn.call := by
  cases hentry : table.sse dmac with
  | some a =>
    have hsettled := run_induction (fun x x' t hstep hx => Settled.step hx hstep) hrun
      (settled_enter hentry)
    exact ⟨fun _ => .inl (Option.some_ne_none _), fun _ => hsettled.lossless⟩
  | none =>
    match turns, hrun with
    | [], hrun =>
      obtain rfl := Option.some.inj hrun
      exact ⟨fun _ => .inr rfl, fun _ => lossless_enter⟩
    | [t], hrun =>
      obtain ⟨x₁, hstep, hrest⟩ := Option.bind_eq_some_iff.1 hrun
      obtain ⟨-, hwaits⟩ := first_turn hentry (stepped hstep)
      obtain rfl := Option.some.inj hrest
      exact absurd hdone hwaits.not_finished
    | t₁ :: t₂ :: turns, hrun =>
      obtain ⟨x₁, hstep₁, hrest₁⟩ := Option.bind_eq_some_iff.1 hrun
      obtain ⟨x₂, hstep₂, hrest₂⟩ := Option.bind_eq_some_iff.1 hrest₁
      obtain ⟨rfl, hwaits⟩ := first_turn hentry (stepped hstep₁)
      by_cases hsame : t₁.call = t₂.call
      · have hsettled := run_induction (fun x x' t hstep hx => Settled.step hx hstep) hrest₂
          (settled_second_turn hentry hsame.symm (stepped hstep₂))
        exact ⟨fun _ => .inr (by simp [hsame]), fun _ => hsettled.lossless⟩
      · have hraced := run_induction (fun x x' t hstep hx => Raced.step hx hstep) hrest₂
          (raced_second_turn hentry hwaits hsame (stepped hstep₂))
        refine ⟨fun hlossless => absurd hlossless (hraced.not_lossless hdone), ?_⟩
        rintro (hne | heq)
        · exact absurd rfl hne
        · exact absurd (Option.some.inj heq) hsame

end

/-- No sessions. -/
def emptyTable : Table where
  sse := fun _ => none
  heap := fun _ => none
  next := 0
  fresh _ _ := rfl
  live _ _ h := by cases h
  unowned _ _ h := by cases h

/-- The turns of the calls, in this order. -/
def turnsOf (order : List ℕ) : List Turn := order.map fun i => ⟨i, 0, default⟩

/-- Both calls look before either makes its session: both return, and the packet of the first is
gone. -/
theorem concurrent_sends_lost :
    ¬ ∀ (calls : List Call) (dmac : UInt8) (table : Table) (turns : List Turn) (x : State),
      run calls dmac turns (table.enter calls) = some x → Finished calls x →
        Lossless calls dmac x := by
  intro hall
  have hend : (run [⟨1, [7]⟩, ⟨1, [8]⟩] 2 (turnsOf [0, 1, 0, 0, 1, 1, 1])
      (emptyTable.enter [⟨1, [7]⟩, ⟨1, [8]⟩])).map
        (fun x => (x.pc 0, x.pc 1, x.sse 2, (x.heap 1).map Session.owners)) =
      some (.returned 1, .returned 1, some 1, some [some 1]) := by decide +kernel
  obtain ⟨x, hrun, hx⟩ := Option.map_eq_some_iff.1 hend
  obtain ⟨hfirst, hsecond, hentry, howners⟩ : x.pc 0 = .returned 1 ∧ x.pc 1 = .returned 1 ∧
      x.sse 2 = some 1 ∧ (x.heap 1).map Session.owners = some [some 1] := by
    simpa only [Prod.mk.injEq] using hx
  have hdone : Finished [⟨1, [7]⟩, ⟨1, [8]⟩] x := by
    intro i hi
    match i, hi with
    | 0, _ => exact .inr ⟨1, hfirst⟩
    | 1, _ => exact .inr ⟨1, hsecond⟩
  obtain ⟨a, s, ha, hs, pkt, p, hmem, -, -⟩ :=
    (hall _ _ _ _ _ hrun hdone).queued 0 _ 1 rfl hfirst (by decide)
  obtain rfl : 1 = a := Option.some.inj (hentry.symm.trans ha)
  rw [hs] at howners
  have hmem' := (List.of_mem_zip hmem).1
  rw [Option.some.inj howners] at hmem'
  simp at hmem'

/-- The first call makes its session before the second looks, and pushes after it: both packets are
in the queue. -/
theorem concurrent_sends_iff_two :
    ∃ x, run [⟨1, [7]⟩, ⟨1, [8]⟩] 2 (turnsOf [0, 0, 1, 1, 0])
        (emptyTable.enter [⟨1, [7]⟩, ⟨1, [8]⟩]) = some x ∧
      x.pc 0 = .returned 1 ∧ x.pc 1 = .returned 1 ∧ Lossless [⟨1, [7]⟩, ⟨1, [8]⟩] 2 x := by
  have hend : (run [⟨1, [7]⟩, ⟨1, [8]⟩] 2 (turnsOf [0, 0, 1, 1, 0])
      (emptyTable.enter [⟨1, [7]⟩, ⟨1, [8]⟩])).map (fun x => (x.pc 0, x.pc 1)) =
        some (.returned 1, .returned 1) := by decide +kernel
  obtain ⟨x, hrun, hx⟩ := Option.map_eq_some_iff.1 hend
  obtain ⟨hfirst, hsecond⟩ := Prod.mk.inj hx
  have hdone : Finished [⟨1, [7]⟩, ⟨1, [8]⟩] x := by
    intro i hi
    match i, hi with
    | 0, _ => exact .inr ⟨1, hfirst⟩
    | 1, _ => exact .inr ⟨1, hsecond⟩
  exact ⟨x, hrun, hfirst, hsecond, (concurrent_sends_iff hrun hdone).2 (.inr rfl)⟩

end Concurrent

end Ipcf
