import Ipcf.Lib.LockOrder

/-!
# The locks of the program

What each function of `split.c` and `compact.c` does with locks, in the order in which it does it.
What depends on data is a parameter: which session is found, which one is replaced, which have
expired, whether a frame is sent.  A session has a lock of its own, which is destroyed when the
session is freed.  `sse_lock` and `rse_lock` are never given to `_lock_init`: they are global, and
zero is what it would leave.

No function takes a lock that comes before one that it holds: first `sse_lock` or `rse_lock`, then
the lock of a session, then that of a queue.  So the threads of the program never wait for each
other in a circle (`calls_complete`).  But the table is looked up in one critical section and the
lock of the session is taken behind it, and nothing keeps the session from being freed in between:
a call can be left with a lock that was destroyed (`calls_complete_dangling`).
-/

namespace Ipcf

open LightLock

/-- The locks; `session` stands for a session that is or was in a table, and for no other. -/
inductive LockName
  | sseLock
  | rseLock
  | sse (session : ℕ)
  | rse (session : ℕ)
  | upperRecvLock
  | lowerSendLock
  | sflowLock
  | rflowLock
  deriving DecidableEq

namespace LockName

/-- The order in which locks are taken. -/
def rank : LockName → ℕ
  | sseLock => 0
  | rseLock => 0
  | sse _ => 1
  | rse _ => 1
  | upperRecvLock => 2
  | lowerSendLock => 2
  | sflowLock => 0
  | rflowLock => 0

end LockName

/-- The operations of a call. -/
abbrev Locks := List (LockOp LockName)

namespace Locks

/-! ## `split.c` -/

/-- `get_sse` -/
def getSse : Locks := critical .sseLock []

/-- A new session is put into a table, and the one that it replaces is freed under the lock. -/
def create (table : LockName) (session : ℕ → LockName) : (replaces : Option ℕ) → Locks
  | none => critical table []
  | some old => critical table [] ++ critical table [.destroy (session old)]

/-- `create_sse` -/
def createSse (replaces : Option ℕ) : Locks := create .sseLock .sse replaces

/-- `get_rse` -/
def getRse : Locks := critical .rseLock []

/-- `create_rse` -/
def createRse (replaces : Option ℕ) : Locks := create .rseLock .rse replaces

/-- `put_upper_recv_list` -/
def putUpperRecvList : Locks := critical .upperRecvLock []

/-- `put_lower_send_list` -/
def putLowerSendList : Locks := critical .lowerSendLock []

/-- `try_lower_send` -/
def tryLowerSend (sends : Bool) : Locks := if sends then putLowerSendList else []

/-- `send_ack` -/
def sendAck (sends : Bool) : Locks := if sends then putLowerSendList else []

/-- `send_patch` -/
def sendPatch (sends : Bool) : Locks := if sends then putLowerSendList else []

/-- `send_ack_req` -/
def sendAckReq : Locks := putLowerSendList

/-- What comes of the slices of a frame: nothing, an acknowledgement, or one with the message. -/
inductive Outcome
  | nothing
  | ack (sends : Bool)
  | submit (sends : Bool)

def Outcome.locks : Outcome → Locks
  | nothing => []
  | ack sends => sendAck sends
  | submit sends => sendAck sends ++ putUpperRecvList

/-- `proc_data` of a frame that is accepted; `creates` is given where there is no session. -/
def procData (creates : Option (Option ℕ)) (session : ℕ) (outcome : Outcome) : Locks :=
  let create := match creates with
    | none => []
    | some replaces => createRse replaces
  getRse ++ create ++ critical (.rse session) outcome.locks

/-- `proc_ack_req` -/
def procAckReq : Option (ℕ × Bool) → Locks
  | none => getRse
  | some (session, sends) => getRse ++ critical (.rse session) (sendAck sends)

/-- `proc_patch` -/
def procPatch : Option (ℕ × Outcome) → Locks
  | none => getRse
  | some (session, outcome) => getRse ++ critical (.rse session) outcome.locks

/-- `proc_ack_all` -/
def procAckAll : Option (ℕ × Bool) → Locks
  | none => getSse
  | some (session, sends) => getSse ++ critical (.sse session) (tryLowerSend sends)

/-- `proc_ack_part` -/
def procAckPart : Option (ℕ × Bool) → Locks
  | none => getSse
  | some (session, sends) => getSse ++ critical (.sse session) (sendPatch sends)

/-- `proc_sse_ack_timeout`, which asks for an acknowledgement, or has a packet sent, or not. -/
def procSseAckTimeout (session : ℕ) (asks sends : Bool) : Locks :=
  critical (.sse session) (if asks then sendAckReq else tryLowerSend sends)

/-- What `proc_timer` does with a session of `sse`: what comes of its acknowledgement timer if that
has run out, and whether the session has expired. -/
structure SseTimer where
  session : ℕ
  due : Option (Bool × Bool)
  expired : Bool

def SseTimer.locks (t : SseTimer) : Locks :=
  let timeout := match t.due with
    | none => []
    | some (asks, sends) => procSseAckTimeout t.session asks sends
  timeout ++ if t.expired then [.destroy (.sse t.session)] else []

/-- `proc_timer`: the sessions of `sse`, and those of `rse` that have expired. -/
def procTimer (sses : List SseTimer) (rses : List ℕ) : Locks :=
  critical .sseLock (sses.flatMap SseTimer.locks) ++
    critical .rseLock (rses.flatMap fun session => [.destroy (.rse session)])

/-- `upper_send` of a message that is not empty: the frame is sent behind the critical section of
the session; `none` if no slice fits. -/
def upperSend (creates : Option (Option ℕ)) (session : ℕ) (sends : Option Bool) : Locks :=
  let create := match creates with
    | none => []
    | some replaces => createSse replaces
  let push := match sends with
    | none => []
    | some sends => critical (.sse session) [] ++ tryLowerSend sends
  getSse ++ create ++ push

/-- `upper_recv` -/
def upperRecv : Locks := critical .upperRecvLock []

/-- `lower_fetch` -/
def lowerFetch : Locks := critical .lowerSendLock []

/-- `get_urq_num` -/
def getUrqNum : Locks := critical .upperRecvLock []

/-- `get_lsq_num` -/
def getLsqNum : Locks := critical .lowerSendLock []

/-! ## `compact.c` -/

/-- `get_sflow_by_hash`: both ways out give the lock back. -/
def getSflowByHash : Locks := critical .sflowLock []

/-- `build_sflow_by_hash` -/
def buildSflowByHash : Locks := critical .sflowLock []

/-- `get_rflow_by_hash` -/
def getRflowByHash : Locks := critical .rflowLock []

/-- `build_rflow_by_hash` -/
def buildRflowByHash : Locks := critical .rflowLock []

/-- `xmit_compress` of a packet that can be compacted. -/
def xmitCompress (builds : Bool) : Locks :=
  getSflowByHash ++ if builds then buildSflowByHash else []

/-- `recv_compress` of anything but a plain packet. -/
def recvCompress (builds : Bool) : Locks :=
  getRflowByHash ++ if builds then buildRflowByHash else []

/-- `timer_event` -/
def timerEvent : Locks := critical .sflowLock [] ++ critical .rflowLock []

/-! ## The calls -/

/-- What a thread may do with locks in one call of a function of `split.h` or `compact.h`.  A call
of `lower_put` is the processing of its frame, if it is accepted. -/
inductive Calls : Locks → Prop
  | nothing : Calls []
  | upperSend (creates : Option (Option ℕ)) (session : ℕ) (sends : Option Bool) :
    Calls (upperSend creates session sends)
  | procData (creates : Option (Option ℕ)) (session : ℕ) (outcome : Outcome) :
    Calls (procData creates session outcome)
  | procAckReq (found : Option (ℕ × Bool)) : Calls (procAckReq found)
  | procPatch (found : Option (ℕ × Outcome)) : Calls (procPatch found)
  | procAckAll (found : Option (ℕ × Bool)) : Calls (procAckAll found)
  | procAckPart (found : Option (ℕ × Bool)) : Calls (procAckPart found)
  | procTimer (sses : List SseTimer) (rses : List ℕ) : Calls (procTimer sses rses)
  | upperRecv : Calls upperRecv
  | lowerFetch : Calls lowerFetch
  | getUrqNum : Calls getUrqNum
  | getLsqNum : Calls getLsqNum
  | xmitCompress (builds : Bool) : Calls (xmitCompress builds)
  | recvCompress (builds : Bool) : Calls (recvCompress builds)
  | timerEvent : Calls timerEvent

section

variable {held : List LockName}

/-- A critical section without others in it. -/
lemma neutral_section {l : LockName} (hl : ∀ k ∈ held, k.rank < l.rank) :
    Neutral LockName.rank held (critical l []) := neutral_nil.critical hl

lemma neutral_when {ops : Locks} (c : Bool) (h : Neutral LockName.rank held ops) :
    Neutral LockName.rank held (if c then ops else []) := neutral_ite h neutral_nil

lemma neutral_create (table : LockName) (session : ℕ → LockName) (replaces : Option ℕ) :
    Neutral LockName.rank [] (create table session replaces) := by
  cases replaces with
  | none => exact neutral_section (by simp)
  | some old =>
    exact (neutral_section (by simp)).append ((neutral_destroy _).critical (by simp))

lemma neutral_outcome (session : ℕ) (outcome : Outcome) :
    Neutral LockName.rank [.rse session] outcome.locks := by
  have hsend : Neutral LockName.rank [.rse session] putLowerSendList :=
    neutral_section (by simp [LockName.rank])
  cases outcome with
  | nothing => exact neutral_nil
  | ack sends => exact neutral_when sends hsend
  | submit sends =>
    exact (neutral_when sends hsend).append (neutral_section (by simp [LockName.rank]))

lemma neutral_timer (t : SseTimer) : Neutral LockName.rank [.sseLock] t.locks := by
  obtain ⟨session, due, expired⟩ := t
  refine Neutral.append ?_ (neutral_when expired (neutral_destroy _))
  cases due with
  | none => exact neutral_nil
  | some d =>
    -- `sse_lock` is held while the session's lock is taken
    refine Neutral.critical ?_ (by simp [LockName.rank])
    have hsend : Neutral LockName.rank [.sse session, .sseLock] putLowerSendList :=
      neutral_section (by simp [LockName.rank])
    exact neutral_ite hsend (neutral_when d.2 hsend)

/-- **The order of the locks.** -/
lemma neutral_calls {ops : Locks} (h : Calls ops) : Neutral LockName.rank [] ops := by
  have hsection : ∀ l, Neutral LockName.rank [] (critical l []) :=
    fun l => neutral_section (by simp)
  have hcritical : ∀ l ops, Neutral LockName.rank [l] ops →
      Neutral LockName.rank [] (critical l ops) := fun l ops h => h.critical (by simp)
  have hsse : ∀ session, Neutral LockName.rank [.sse session] putLowerSendList :=
    fun session => neutral_section (by simp [LockName.rank])
  have hrse : ∀ session, Neutral LockName.rank [.rse session] putLowerSendList :=
    fun session => neutral_section (by simp [LockName.rank])
  cases h with
  | nothing => exact neutral_nil
  | upperSend creates session sends =>
    refine ((hsection _).append ?_).append ?_
    · cases creates with
      | none => exact neutral_nil
      | some replaces => exact neutral_create _ _ replaces
    · cases sends with
      | none => exact neutral_nil
      | some sends => exact (hsection _).append (neutral_when sends (hsection _))
  | procData creates session outcome =>
    refine ((hsection _).append ?_).append (hcritical _ _ (neutral_outcome session outcome))
    cases creates with
    | none => exact neutral_nil
    | some replaces => exact neutral_create _ _ replaces
  | procAckReq found =>
    cases found with
    | none => exact hsection _
    | some f => exact (hsection _).append (hcritical _ _ (neutral_when f.2 (hrse f.1)))
  | procPatch found =>
    cases found with
    | none => exact hsection _
    | some f => exact (hsection _).append (hcritical _ _ (neutral_outcome f.1 f.2))
  | procAckAll found =>
    cases found with
    | none => exact hsection _
    | some f => exact (hsection _).append (hcritical _ _ (neutral_when f.2 (hsse f.1)))
  | procAckPart found =>
    cases found with
    | none => exact hsection _
    | some f => exact (hsection _).append (hcritical _ _ (neutral_when f.2 (hsse f.1)))
  | procTimer sses rses =>
    exact (hcritical _ _ (neutral_flatMap fun t _ => neutral_timer t)).append
      (hcritical _ _ (neutral_flatMap fun session _ => neutral_destroy _))
  | upperRecv => exact hsection _
  | lowerFetch => exact hsection _
  | getUrqNum => exact hsection _
  | getLsqNum => exact hsection _
  | xmitCompress builds => exact (hsection _).append (neutral_when builds (hsection _))
  | recvCompress builds => exact (hsection _).append (neutral_when builds (hsection _))
  | timerEvent => exact (hsection _).append (hsection _)

end

end Locks

/-- **The threads never block each other.**  In every state that any number of threads can reach,
each doing calls of the program in any order and interleaved in any way at the atomic steps of the
locks, all calls that were begun can come to their end, whichever thread goes on first: some thread
always can, and there are only so many steps left, unless a session was freed whose lock a call
still needs. -/
theorem calls_complete {ι : Type*} [Fintype ι] [DecidableEq ι] (hcard : Fintype.card ι < 2 ^ 32)
    (s : System ι LockName) (h : SystemReach (fun _ => {ops | Locks.Calls ops}) s) : s.Completes :=
  System.completes_reach (fun _ _ hops => Locks.neutral_calls hops) hcard h

/-- A thread that waits for the lock of a session, while another one, which holds it, has `sse_lock`
too. -/
theorem calls_complete_waiting : ∃ s : System (Fin 2) LockName,
    ((s.thread 1).phase = .waiting ∧ (s.thread 0).held = [.sse 3, .sseLock]) ∧ s.Completes := by
  have hreach : SystemReach (fun _ : Fin 2 => {ops | Locks.Calls ops})
      ((System.init.begin 0 (Locks.procTimer [⟨3, some (true, false), true⟩] [5])).begin 1
        (Locks.procAckAll (some (3, true)))) :=
    .tail (.tail .refl (.begin 0 _ rfl (.procTimer _ _))) (.begin 1 _ rfl (.procAckAll _))
  have hmoves := hreach.moves [1, 1, 0, 0, 1] rfl
  exact ⟨_, ⟨rfl, rfl⟩, calls_complete (by decide) _ hmoves⟩

/-- The exception happens: one thread has looked a session up, another one frees it and comes to its
end, and the first is left with a lock that was destroyed. -/
theorem calls_complete_dangling : ∃ s : System (Fin 2) LockName,
    SystemReach (fun _ => {ops | Locks.Calls ops}) s ∧ s.Dangling ∧ ¬ s.Idle ∧
      ∀ i, s.move i = none := by
  have hreach : SystemReach (fun _ : Fin 2 => {ops | Locks.Calls ops})
      ((System.init.begin 0 (Locks.procTimer [⟨3, none, true⟩] [])).begin 1
        (Locks.procAckAll (some (3, true)))) :=
    .tail (.tail .refl (.begin 0 _ rfl (.procTimer _ _))) (.begin 1 _ rfl (.procAckAll _))
  have hmoves := hreach.moves [1, 1, 0, 0, 0, 0, 0] rfl
  refine ⟨_, hmoves, ⟨1, .lock (.sse 3), List.mem_cons_self, rfl⟩, fun hidle => ?_,
    Fin.forall_fin_two.2 ⟨rfl, rfl⟩⟩
  cases hidle 1

end Ipcf
