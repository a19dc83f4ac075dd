import Ipcf.Split.Bitmap
import Ipcf.Split.Slice

/-!
# Receive sessions

`rse_t` and what `split.c` does to one receive session: `cp_slice_to_rse`, `patch_rse`,
`send_ack`, and the parts of `proc_data` and `proc_patch` behind the session lookup.  A function
returns the session it leaves, the frames it queues on `lower_send_list`, the messages it
appends to `upper_recv_list`, and the accesses it makes to the two arrays of the session.

The accesses are a record of what the C code touches, in order; they change nothing.  A copy that
leaves `data`, or a word outside `bitmap`, is undefined behaviour in C; here such a copy writes
the part that lies inside and such a word reads as zero, and the record shows the overrun.
-/

namespace Ipcf

/-- An access to the arrays of a receive session: a copy of `len` bytes to offset `off` of
`data`, a word of `bitmap`, or the first `len` bytes of `data` as a message. -/
inductive Access
  | copy (off len : ℕ)
  | word (i : ℕ)
  | msg (len : ℕ)
  deriving DecidableEq, Repr

/-- `rse_t` -/
structure Rse where
  idleTimeout : ℤ
  bitmap : Bitmap bitmap32Size
  seqExp : UInt8
  nSlices : UInt8
  msglen : UInt16
  dCsum : UInt32
  data : Buffer UInt8 linkMtu
  completed : Bool
  nak : Bool

/-- What an operation does to a receive session and, besides, to the endpoint. -/
structure Received where
  se : Rse
  queued : List Bytes
  submitted : List Bytes
  accesses : List Access

/-- `reset_rse`, which leaves no field as it was. -/
def resetRse (now : ℤ) : Rse where
  idleTimeout := now + idleTimeout
  bitmap := Buffer.fill _ 0
  seqExp := 0xff
  nSlices := 0
  msglen := 0
  dCsum := 0xffffffff
  data := Buffer.fill _ 0
  completed := false
  nak := false

/-! ## Storing slices -/

/-- The number of bytes `cp_slice_to_rse` copies for slice `seq`: the last slice may be short. -/
def sliceLenAt (nSlices : UInt8) (msglen : UInt16) (seq : UInt8) : ℕ :=
  if seq.toNat + 1 = nSlices.toNat ∧ msglen.toNat % sliceDataLen ≠ 0 then
    msglen.toNat % sliceDataLen
  else sliceDataLen

/-- `cp_slice_to_rse`.  A slice with sequence number `n_slices` passes the range check. -/
def cpSliceToRse (se : Rse) (s : Bytes) : Rse × List Access :=
  if !sliceCsumOk s then (se, [])
  else if sliceSeq s > se.nSlices then (se, [])
  else
    let off := sliceDataLen * (sliceSeq s).toNat
    let len := sliceLenAt se.nSlices se.msglen (sliceSeq s)
    ({ se with
        data := se.data.write off ((sliceData s).take len)
        bitmap := setBit se.bitmap (sliceSeq s) },
      [.copy off len, .word ((sliceSeq s).toNat / 32)])

/-- `patch_rse`: store the first `n` slices of `data`. -/
def patchRse (se : Rse) (data : Bytes) : (n : ℕ) → Rse × List Access
  | 0 => (se, [])
  | n + 1 =>
    let first := cpSliceToRse se (data.take sliceLen)
    let rest := patchRse first.1 (data.drop sliceLen) n
    (rest.1, first.2 ++ rest.2)

/-! ## Acknowledging -/

/-- The loop of `send_ack` that collects the missing slices from `k` on, with the words it reads;
a missing slice is below `n`, so `k` grows in each of the `fuel` iterations and 256 are enough. -/
def missingLoop {w : ℕ} (map : Bitmap w) (n : UInt8) : (fuel : ℕ) → (k : UInt8) →
    List UInt8 × List ℕ
  | 0, _ => ([], [])
  | fuel + 1, k =>
    let result := findFirstZeroRun map k n
    if result.1 < 0 then ([], result.2)
    else
      let k := UInt8.ofNat result.1.toNat
      let rest := missingLoop map n fuel (k + 1)
      (k :: rest.1, result.2 ++ rest.2)

def missing {w : ℕ} (map : Bitmap w) (n : UInt8) : List UInt8 × List ℕ := missingLoop map n 256 0

/-- `send_ack`: the frames it queues, and its accesses. -/
def sendAck (stack : Stack) (dst src : UInt8) (se : Rse) :
    List Bytes × List Access :=
  if se.nak then ([], [])
  else
    let test := testAllBitsSetRun se.bitmap se.nSlices
    if test.1 then
      (putEscaped stack.escaped (ackFrame dst src frameTypeAcka 0 se.seqExp []), test.2.map .word)
    else
      let lost := missing se.bitmap se.nSlices
      let accesses := (test.2 ++ lost.2).map .word
      -- no slice is missing below `n_slices`: `k` is still zero, and nothing is sent
      if lost.1 = [] then ([], accesses)
      else (putEscaped stack.escaped (ackFrame dst src frameTypeAckp 0 se.seqExp lost.1), accesses)

/-! ## Receiving data -/

/-- The end of `proc_data` and `proc_patch` once every bit is set: submit the message, or ask for
all of it again when its checksum is wrong. -/
def finishRse (stack : Stack) (fh : FrmHdr) (se : Rse) : Received :=
  if csum32 (se.data.read 0 se.msglen.toNat) ≠ se.dCsum then
    { se := { se with nak := true }, queued := [], submitted := [],
      accesses := [.msg se.msglen.toNat] }
  else
    let ack := sendAck stack fh.src fh.dst se
    { se := { se with completed := true }
      queued := ack.1
      submitted := [dataNode se.data.cells se.msglen.toNat]
      accesses := .msg se.msglen.toNat :: ack.2 ++ [.msg se.msglen.toNat] }

/-- `proc_data` from the session lookup on; `data` is what follows the message header.  The range
check of `n_slices` has an empty body at this debug level: it drops nothing. -/
def procDataRse (stack : Stack) (fh : FrmHdr) (mh : MsgHdr) (data : Bytes)
    (se : Rse) : Received :=
  let nPossible := UInt8.ofNat (data.length / sliceLen)
  let nSlices := UInt8.ofNat ((mh.len.toNat + sliceDataLen - 1) / sliceDataLen)
  let se := { se with
    bitmap := Buffer.fill _ 0
    seqExp := mh.seq
    msglen := mh.len
    dCsum := mh.dCsum
    nSlices := nSlices
    completed := false
    nak := false }
  let patched := patchRse se data nPossible.toNat
  let test := testAllBitsSetRun patched.1.bitmap nSlices
  let accesses := patched.2 ++ test.2.map .word
  if test.1 then
    let done := finishRse stack fh patched.1
    { done with accesses := accesses ++ done.accesses }
  else
    let ack := sendAck stack fh.src fh.dst patched.1
    { se := patched.1, queued := ack.1, submitted := [], accesses := accesses ++ ack.2 }

/-- `proc_ack_req` from the session lookup on. -/
def procAckReqRse (stack : Stack) (fh : FrmHdr) (mh : MsgHdr) (se : Rse) :
    Received :=
  if se.seqExp = mh.seq then
    let ack := sendAck stack fh.src fh.dst se
    { se := se, queued := ack.1, submitted := [], accesses := ack.2 }
  else { se := se, queued := [], submitted := [], accesses := [] }

/-- `proc_patch` from the session lookup on; `data` is what follows the message header. -/
def procPatchRse (stack : Stack) (fh : FrmHdr) (mh : MsgHdr) (data : Bytes)
    (se : Rse) : Received :=
  let nPossible := UInt8.ofNat (data.length / sliceLen)
  let nSlices := if nPossible.toNat > mh.len.toNat then mh.len.toUInt8 else nPossible
  if se.seqExp ≠ mh.seq then { se := se, queued := [], submitted := [], accesses := [] }
  else if !se.completed then
    let patched := patchRse se data nSlices.toNat
    let test := testAllBitsSetRun patched.1.bitmap patched.1.nSlices
    let accesses := patched.2 ++ test.2.map .word
    if test.1 then
      let done := finishRse stack fh patched.1
      { done with accesses := accesses ++ done.accesses }
    else { se := patched.1, queued := [], submitted := [], accesses := accesses }
  else { se := se, queued := [], submitted := [], accesses := [] }

end Ipcf
