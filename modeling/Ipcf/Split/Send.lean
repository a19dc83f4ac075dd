import Ipcf.Split.Slice

/-!
# Send sessions

`sse_t` and what `split.c` does to one send session: `upper_send`, `try_lower_send`,
`send_patch`, `send_ack_req`, `proc_sse_ack_timeout`, and the parts of `proc_ack_all` and
`proc_ack_part` behind the session lookup.  A function returns the session it leaves and the
frames it queues on `lower_send_list`.

A packet of the queue is a `SendNode`: the two headers, the slices as `fill_slices` left them
(those that the encoding loop of `upper_send` has cut off are still there, but `n_slices` no
longer counts them), and the escaped form of the headers, which is what goes out first.
-/

namespace Ipcf

/-- `send_node_t`; `fh`, `mh` and `slices` are the contents of `frm`. -/
structure SendNode where
  nSlices : UInt8
  fh : FrmHdr
  mh : MsgHdr
  slices : List Bytes
  escLen : UInt16
  escaped : Buffer UInt8 linkMtu

/-- `sse_t` -/
structure Sse where
  idleTimeout : ℤ
  ackTimeout : ℤ
  dataRetry : ℕ
  ackRetry : ℕ
  isWaiting : Bool
  seq : UInt8
  pktList : List SendNode

/-- The session `create_sse` makes. -/
def createSse (now : ℤ) : Sse where
  idleTimeout := now + idleTimeout
  ackTimeout := -1
  dataRetry := 0
  ackRetry := 0
  isWaiting := false
  seq := 0
  pktList := []

/-- `try_lower_send` -/
def tryLowerSend (now : ℤ) (se : Sse) : Sse × List Bytes :=
  match se.pktList with
  | [] => (se, [])
  | pkt :: _ =>
    if se.isWaiting then (se, [])
    else ({ se with ackTimeout := now + ackTimeout, isWaiting := true },
      [dataNode pkt.escaped.cells pkt.escLen.toNat])

/-! ## Queueing a message -/

/-- The headers of a packet whose first `msglen` bytes of `msg` go out in `nSlices` slices. -/
def dataHdrs (smac dmac seq : UInt8) (msg : Bytes) (msglen nSlices : ℕ) : FrmHdr × MsgHdr :=
  (frmHdr smac dmac frameTypeData 0 (sliceLen * nSlices + frmMsgHdrLen),
    msgHdr (csum32 (msg.take msglen)) msglen seq [])

/-- The encoding loop of `upper_send`: cut slices off until the whole frame, escaped, fits, then
escape the headers alone.  The result is the length that is left and the packet, or nothing when
no slice is left.  An iteration that fails cuts at least one slice, so `nSlices` of them are
enough for `fuel`. -/
def encodeLoop (smac dmac seq : UInt8) (msg : Bytes) (slices : List Bytes) :
    (fuel msglen nSlices : ℕ) → (escaped : Buffer UInt8 linkMtu) → Option (ℕ × SendNode)
  | 0, _, _, _ => none
  | fuel + 1, msglen, nSlices, escaped =>
    let (fh, mh) := dataHdrs smac dmac seq msg msglen nSlices
    let result := enFrame (fh.bytes ++ mh.bytes ++ (slices.take nSlices).flatten) linkMtu
    let escaped := escaped.write 0 result.frm
    if result.ret > 0 then
      let header := enFrame (fh.bytes ++ mh.bytes) linkMtu
      some (msglen, {
        nSlices := UInt8.ofNat nSlices
        fh := fh
        mh := mh
        slices := slices
        escLen := UInt16.ofInt header.ret
        escaped := escaped.write 0 header.frm })
    else
      let cutSlice := (fh.len.toNat - result.dataLen + sliceDataLen) / sliceDataLen
      if nSlices ≤ cutSlice then none
      else encodeLoop smac dmac seq msg slices fuel (sliceDataLen * (nSlices - cutSlice))
        (nSlices - cutSlice) escaped

/-- `upper_send` from the session lookup on: the session, the queued frames and the return
value.  The sequence number is taken before the packet is encoded. -/
def upperSendSse (now : ℤ) (stack : Stack) (smac dmac : UInt8) (msg : Bytes) (se : Sse) :
    (Sse × List Bytes) × ℤ :=
  let slices := fillSlices linkDataMax msg
  match encodeLoop smac dmac se.seq msg slices.1 slices.1.length slices.2 slices.1.length
      stack.escaped with
  | none => (({ se with seq := se.seq + 1 }, []), -1)
  | some (msglen, snode) =>
    (tryLowerSend now { se with seq := se.seq + 1, pktList := se.pktList ++ [snode] }, msglen)

/-! ## Answering the receiver -/

/-- The loop of `send_patch` at the `i`-th requested slice, with `len` slices copied so far.  A
request that is out of range is not counted, but its place in the frame is left as it is. -/
def patchLoop (snode : SendNode) : (data : Bytes) → (i : ℕ) → (tmp : Buffer UInt8 linkMtu) →
    (len : ℕ) → Buffer UInt8 linkMtu × ℕ
  | [], _, tmp, len => (tmp, len)
  | k :: data, i, tmp, len =>
    if frmMsgHdrLen + sliceLen * i < linkMtu - sliceLen then
      if k < snode.nSlices then
        patchLoop snode data (i + 1)
          (tmp.write (frmMsgHdrLen + sliceLen * i) (snode.slices.getD k.toNat [])) (len + 1)
      else patchLoop snode data (i + 1) tmp len
    else (tmp, len)

/-- The frame `send_patch` hands to `en_frame`; `none` when no requested slice exists. -/
def patchFrame (tmp : Buffer UInt8 linkMtu) (snode : SendNode) (data : Bytes) : Option Bytes :=
  let copied := patchLoop snode data 0 tmp 0
  if copied.2 = 0 then none
  else
    let fh := frmHdr snode.fh.src snode.fh.dst frameTypePatch 0
      (frmMsgHdrLen + sliceLen * copied.2)
    let mh := msgHdr 0xffffffff copied.2 snode.mh.seq []
    some ((copied.1.write 0 (fh.bytes ++ mh.bytes)).read 0 fh.len.toNat)

/-- `send_patch` -/
def sendPatch (stack : Stack) (snode : SendNode) (data : Bytes) : List Bytes :=
  match patchFrame stack.buf snode data with
  | none => []
  | some frm => putEscaped stack.escaped frm

/-- `send_ack_req`; the field `reserved` is the only one that is not assigned, and is the byte
that stands in its place in `buf`. -/
def sendAckReq (stack : Stack) (dst src : UInt8) (se : Sse) : List Bytes :=
  putEscaped stack.escaped
    (ackFrame dst src frameTypeAckr (stack.buf.get 3 0) (se.seq - 1) [])

/-- `proc_ack_all` from the session lookup on. -/
def procAckAllSse (now : ℤ) (fh : FrmHdr) (mh : MsgHdr) (se : Sse) : Sse × List Bytes :=
  match se.pktList with
  | [] => (se, [])
  | pkt :: pkts =>
    if pkt.fh.src ≠ fh.dst ∨ pkt.fh.dst ≠ fh.src then (se, [])
    else if pkt.mh.seq = mh.seq then
      tryLowerSend now { se with
        pktList := pkts
        isWaiting := false
        ackTimeout := -1
        dataRetry := 0
        ackRetry := 0 }
    else (se, [])

/-- `proc_ack_part` from the session lookup on; `data` is what follows the message header. -/
def procAckPartSse (now : ℤ) (stack : Stack) (fh : FrmHdr) (mh : MsgHdr) (data : Bytes)
    (se : Sse) : Sse × List Bytes :=
  match se.pktList with
  | [] => (se, [])
  | pkt :: _ =>
    if pkt.fh.src ≠ fh.dst ∨ pkt.fh.dst ≠ fh.src then (se, [])
    else if pkt.mh.seq ≠ mh.seq then (se, [])
    else ({ se with ackTimeout := now + ackTimeout, ackRetry := 0 }, sendPatch stack pkt data)

/-! ## The acknowledgement timer -/

/-- `proc_sse_ack_timeout`.  The front of the queue is taken unguarded: on an empty queue the
C code reads a list head as a packet, and the model does nothing. -/
def procSseAckTimeout (now : ℤ) (stack : Stack) (se : Sse) : Sse × List Bytes :=
  match se.pktList with
  | [] => (se, [])
  | pkt :: pkts =>
    let se := { se with idleTimeout := now + idleTimeout }
    if se.ackRetry + 1 ≤ maxRetryTimes then
      ({ se with ackRetry := se.ackRetry + 1 }, sendAckReq stack pkt.fh.dst pkt.fh.src se)
    else if se.dataRetry + 1 > maxRetryTimes then
      tryLowerSend now { se with
        pktList := pkts
        isWaiting := false
        ackTimeout := -1
        dataRetry := 0
        ackRetry := 0 }
    else
      tryLowerSend now { se with dataRetry := se.dataRetry + 1, isWaiting := false, ackRetry := 0 }

end Ipcf
