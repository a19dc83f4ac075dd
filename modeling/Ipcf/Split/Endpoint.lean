import Ipcf.Split.Receive
import Ipcf.Split.Send
import Mathlib.Logic.Function.Basic

/-!
# One endpoint

The global state of `split.c` and its entry points: `split_init`, `upper_send`, `upper_recv`,
`lower_fetch`, `lower_put` and `proc_timer`.  What the code reads from its surroundings is an
argument: the clock (`ts_msec()`, taken once for each call) and the contents of the
uninitialised local arrays.

`lower_put` is two things in one: a test of the bytes, which does not look at the state, and the
action of the handler that accepts them.  The tests of each handler are a definition of their
own (`procDataCheck` and so on), and `accept` collects them, so that a run can be described by
the frames it accepts; `lowerPut_eq` is the decomposition.
-/

namespace Ipcf

/-- The state of an endpoint.  `accesses` is no part of the program: it records what the receive
path has touched in the arrays of its sessions. -/
structure Split where
  sse : UInt8 → Option Sse
  rse : UInt8 → Option Rse
  upperRecvList : List Bytes
  lowerSendList : List Bytes
  accesses : List Access

/-- `split_init` -/
def splitInit : Split where
  sse _ := none
  rse _ := none
  upperRecvList := []
  lowerSendList := []
  accesses := []

/-! ## Sessions -/

/-- `get_sse`: a session that is looked up is kept for another idle period. -/
def getSse (now : ℤ) (k : UInt8) (s : Split) : Option Sse :=
  (s.sse k).map fun se => { se with idleTimeout := now + idleTimeout }

/-- `get_rse` -/
def getRse (now : ℤ) (k : UInt8) (s : Split) : Option Rse :=
  (s.rse k).map fun se => { se with idleTimeout := now + idleTimeout }

/-- The session of `k` becomes `r.1`, and `r.2` is queued for sending. -/
def Split.sent (s : Split) (k : UInt8) (r : Sse × List Bytes) : Split :=
  { s with
    sse := Function.update s.sse k (some r.1)
    lowerSendList := s.lowerSendList ++ r.2 }

/-- The session of `k` becomes `r.se`, with what went with it. -/
def Split.received (s : Split) (k : UInt8) (r : Received) : Split :=
  { s with
    rse := Function.update s.rse k (some r.se)
    lowerSendList := s.lowerSendList ++ r.queued
    upperRecvList := s.upperRecvList ++ r.submitted
    accesses := s.accesses ++ r.accesses }

/-! ## The handlers of the five frame types

`data` is what follows the frame header. -/

/-- The tests of `proc_data`. -/
def procDataCheck (data : Bytes) : Option (MsgHdr × Bytes) :=
  match MsgHdr.read data with
  | none => none
  | some (mh, data) =>
    if mh.len ≠ mh.len2 then none else if !mh.csumOk [] then none else some (mh, data)

def procData (now : ℤ) (stack : Stack) (fh : FrmHdr) (data : Bytes) (s : Split) : Split :=
  match procDataCheck data with
  | none => s
  | some (mh, data) =>
    let se := (getRse now fh.src s).getD (resetRse now)
    s.received fh.src (procDataRse stack fh mh data se)

/-- The tests of `proc_ack_req` and of `proc_ack_all`. -/
def procAckCheck (data : Bytes) : Option MsgHdr :=
  match MsgHdr.read data with
  | none => none
  | some (mh, _) => if !mh.csumOk [] then none else some mh

def procAckReq (now : ℤ) (stack : Stack) (fh : FrmHdr) (data : Bytes) (s : Split) : Split :=
  match procAckCheck data with
  | none => s
  | some mh =>
    match getRse now fh.src s with
    | none => s
    | some se => s.received fh.src (procAckReqRse stack fh mh se)

/-- The tests of `proc_patch`. -/
def procPatchCheck (data : Bytes) : Option (MsgHdr × Bytes) :=
  match MsgHdr.read data with
  | none => none
  | some (mh, data) =>
    if data.length < sliceLen then none else if !mh.csumOk [] then none else some (mh, data)

def procPatch (now : ℤ) (stack : Stack) (fh : FrmHdr) (data : Bytes) (s : Split) : Split :=
  match procPatchCheck data with
  | none => s
  | some (mh, data) =>
    match getRse now fh.src s with
    | none => s
    | some se => s.received fh.src (procPatchRse stack fh mh data se)

def procAckAll (now : ℤ) (fh : FrmHdr) (data : Bytes) (s : Split) : Split :=
  match procAckCheck data with
  | none => s
  | some mh =>
    match getSse now fh.src s with
    | none => s
    | some se => s.sent fh.src (procAckAllSse now fh mh se)

/-- The tests of `proc_ack_part`.  The checksum covers the requested sequence numbers too. -/
def procAckPartCheck (data : Bytes) : Option (MsgHdr × Bytes) :=
  match MsgHdr.read data with
  | none => none
  | some (mh, data) =>
    if data.length < 1 then none
    else if mh.len.toNat ≠ data.length then none
    else if !mh.csumOk data then none
    else some (mh, data)

def procAckPart (now : ℤ) (stack : Stack) (fh : FrmHdr) (data : Bytes) (s : Split) : Split :=
  match procAckPartCheck data with
  | none => s
  | some (mh, data) =>
    match getSse now fh.src s with
    | none => s
    | some se => s.sent fh.src (procAckPartSse now stack fh mh data se)

/-! ## The entry points -/

/-- `lower_put`: the state and the return value.  `de_frame` takes the length as a `u16`, and what
it returns is not looked at. -/
def lowerPut (now : ℤ) (stack : Stack) (raw : Bytes) (s : Split) : Split × ℤ :=
  let buf := (deFrame (raw.take (raw.length % 65536)) linkMtu).buf
  match FrmHdr.read buf with
  | none => (s, -1)
  | some (fh, data) =>
    if !fh.csumOk then (s, -1)
    else if fh.type = frameTypeData then (procData now stack fh data s, raw.length)
    else if fh.type = frameTypeAckr then (procAckReq now stack fh data s, raw.length)
    else if fh.type = frameTypePatch then (procPatch now stack fh data s, raw.length)
    else if fh.type = frameTypeAcka then (procAckAll now fh data s, raw.length)
    else if fh.type = frameTypeAckp then (procAckPart now stack fh data s, raw.length)
    else (s, -1)

/-- `upper_send`: the state and the return value. -/
def upperSend (now : ℤ) (stack : Stack) (smac dmac : UInt8) (msg : Bytes) (s : Split) :
    Split × ℤ :=
  if msg.length ≤ 0 then (s, -1)
  else
    let r := upperSendSse now stack smac dmac msg ((getSse now dmac s).getD (createSse now))
    (s.sent dmac r.1, r.2)

/-- `upper_recv` with a buffer of `len` bytes: the state, the bytes copied out, and the return
value, which is the number of bytes that had no room. -/
def upperRecv (len : ℕ) (s : Split) : Split × Bytes × ℤ :=
  match s.upperRecvList with
  | [] => (s, [], -1)
  | r :: rs => ({ s with upperRecvList := rs }, r.take len, r.length - (r.take len).length)

/-- `lower_fetch` with a buffer of `len` bytes: the state, the bytes copied out, and the return
value; a frame that has no room is lost. -/
def lowerFetch (len : ℕ) (s : Split) : Split × Bytes × ℤ :=
  match s.lowerSendList with
  | [] => (s, [], 0)
  | f :: fs =>
    if f.length ≤ len then ({ s with lowerSendList := fs }, f, 0)
    else ({ s with lowerSendList := fs }, [], -1)

/-- One iteration of the first loop of `proc_timer`. -/
def procTimerSse (now : ℤ) (stack : UInt8 → Stack) (s : Split) (i : UInt8) : Split :=
  match s.sse i with
  | none => s
  | some se =>
    let r := if se.ackTimeout > 0 ∧ now ≥ se.ackTimeout then procSseAckTimeout now (stack i) se
      else (se, [])
    { s with
      sse := Function.update s.sse i (if now ≥ r.1.idleTimeout then none else some r.1)
      lowerSendList := s.lowerSendList ++ r.2 }

/-- One iteration of the second loop of `proc_timer`. -/
def procTimerRse (now : ℤ) (s : Split) (i : UInt8) : Split :=
  match s.rse i with
  | none => s
  | some se =>
    { s with rse := Function.update s.rse i (if now ≥ se.idleTimeout then none else some se) }

/-- The keys of the session tables, in the order of the loops of `proc_timer`. -/
def macs : List UInt8 := (List.range 256).map UInt8.ofNat

/-- `proc_timer`; every acknowledgement timeout has local arrays of its own. -/
def procTimer (now : ℤ) (stack : UInt8 → Stack) (s : Split) : Split :=
  macs.foldl (procTimerRse now) (macs.foldl (procTimerSse now stack) s)

end Ipcf
