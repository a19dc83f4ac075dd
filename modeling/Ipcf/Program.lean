import Ipcf.Compact.Agreement
import Ipcf.Compact.Checksum
import Ipcf.Compact.PktList
import Ipcf.Pipeline
import Ipcf.Split.Duplex

/-!
# Two programs

The program of `test.c`, as its five threads run it: `recv_tun` compresses what it reads from the
tun device and hands the packets to `upper_send`, one after the other; `recv_split` and `recv_udp`
move frames; `recv_unsplit` decompresses messages, writes to the tun device and sends
acknowledgements back; and the main thread runs the two timers.  Any of them may go on at any time;
a call is one step.  A `Program` is two of these, and the network between them.

Runs are limited as `Duplex` is, to 256 calls of `upper_send` by each program and to send sessions
that are kept, and to packets of IP version 4 from the tun device, at least as long as a header
(`Node.Permitted`).  A thread goes no further where the program ends: at an assertion, at a copy out
of a `pkt_t`, and in `recv_tun` where its loop comes back to a RAW packet that it has freed
(`PktLoop.stuck_twice`).

The result is where the packets come from that a program writes to its tun device (`Origin`).
Either one was sent as it is: then it has the length of a packet that the other program has read,
and begins like it, as far as `upper_send` accepted it.  Or it was rebuilt: then its IP header is
that of a packet that the other program has read, apart from the length, the id, the fragment field
and the checksum.  No loss, repetition or delay in the network makes a program write a packet of a
flow that the other has not seen.
-/

namespace Ipcf

open Relation

/-! ## One program -/

/-- The state of a program: `compact.c`, `split.c`, how far `recv_tun` has come with its packets,
the message that `recv_unsplit` has in its buffer, with its length, and the packet that it has to
send back; and the packets that were read from the tun device and written to it. -/
structure Node where
  compact : Compact
  side : Side
  loop : PktLoop
  msg : Option (Mem × ℕ)
  sendBack : Option Bytes
  read : List Mem
  written : List Bytes

/-- What a thread does next; `links` is what the pointers of the packets contain at first. -/
inductive NodeOp
  | recvTun (now : ℤ) (fresh : Fresh) (links : Links) (ippkt : Mem)
  | sendPkt (now : ℤ) (stack : Stack)
  | recvSplit
  | recvUdp (now : ℤ) (stack : Stack) (raw : Bytes)
  | recvUnsplit (buf : Mem)
  | decompress (now : ℤ) (fresh : Fresh)
  | sendBack (now : ℤ) (stack : Stack)
  | timerEvent (now : ℤ)
  | procTimer (now : ℤ) (stack : UInt8 → Stack)

namespace Node

def init : Node where
  compact := compactInit
  side := Side.init
  loop := PktLoop.init
  msg := none
  sendBack := none
  read := []
  written := []

/-- A call into `split.c`, with the addresses that `test.c` uses. -/
def call (op : SideOp) (x : Node) : Node × List Bytes :=
  let r := x.side.step 2 1 2 op
  ({ x with side := r.1 }, r.2)

/-- The next step of a thread, and what goes to the socket.  There is no step where the thread is
not there yet, and where the program ends. -/
def step (x : Node) : NodeOp → Option (Node × List Bytes)
  | .recvTun now fresh links ippkt =>
    if x.loop.cur = 0 then
      (xmitCompress now fresh ippkt x.compact).bind fun r =>
        (PktList.xmitList now fresh ippkt x.compact links).map fun l =>
          ({ x with compact := r.1, loop := .start l, read := x.read ++ [ippkt] }, [])
    else none
  | .sendPkt now stack =>
    match x.loop.pkt with
    | none => none
    | some pkt => some ({ x with loop := x.loop.advance }.call (.upperSend now stack pkt.data))
  | .recvSplit => some (x.call (.lowerFetch maxBufSize))
  | .recvUdp now stack raw => some (x.call (.lowerPut now stack raw))
  | .recvUnsplit buf =>
    if x.msg = none ∧ x.sendBack = none then
      let msg := (upperRecv maxBufSize x.side.split).2.1
      some ({ x with msg := if msg = [] then none else some (buf.overlay msg, msg.length) }.call
        (.upperRecv maxBufSize))
    else none
  | .decompress now fresh =>
    match x.msg with
    | none => none
    | some (cpkt, len) =>
      match recvCompress now fresh cpkt len x.compact with
      | .error _ => none
      | .ok d => some ({ x with
          compact := d.s
          msg := none
          sendBack := d.sendBack
          written := x.written ++ d.ippkt.toList }, [])
  | .sendBack now stack =>
    match x.sendBack with
    | none => none
    | some data => some ({ x with sendBack := none }.call (.upperSend now stack data))
  | .timerEvent now => some ({ x with compact := x.compact.timerEvent now }, [])
  | .procTimer now stack => some (x.call (.procTimer now stack))

/-- The call into `split.c` that a step makes. -/
def sideOp (x : Node) : NodeOp → Option SideOp
  | .recvTun _ _ _ _ | .decompress _ _ | .timerEvent _ => none
  | .sendPkt now stack => x.loop.pkt.map fun pkt => .upperSend now stack pkt.data
  | .recvSplit => some (.lowerFetch maxBufSize)
  | .recvUdp now stack raw => some (.lowerPut now stack raw)
  | .recvUnsplit _ => some (.upperRecv maxBufSize)
  | .sendBack now stack => x.sendBack.map fun data => .upperSend now stack data
  | .procTimer now stack => some (.procTimer now stack)

/-- The tun device hands out packets of IP version 4 that are at least as long as a header. -/
def FromTun : NodeOp → Prop
  | .recvTun _ _ _ ippkt =>
    (IpHdr.read ippkt).version = 4 ∧ IpHdr.len ≤ (IpHdr.read ippkt).totLen.toNat
  | _ => True

/-- And the calls into `split.c` are permitted. -/
def Permitted (arriving : List Bytes) (x : Node) (op : NodeOp) : Prop :=
  FromTun op ∧ ∀ sop ∈ x.sideOp op, x.side.Permitted 1 arriving sop

instance : DecidablePred FromTun
  | .recvTun _ _ _ _ => inferInstanceAs (Decidable (_ ∧ _))
  | .sendPkt _ _ | .recvSplit | .recvUdp _ _ _ | .recvUnsplit _ | .decompress _ _ | .sendBack _ _
  | .timerEvent _ | .procTimer _ _ => inferInstanceAs (Decidable True)

instance (arriving : List Bytes) (x : Node) (op : NodeOp) : Decidable (x.Permitted arriving op) :=
  inferInstanceAs (Decidable (_ ∧ ∀ sop ∈ x.sideOp op, x.side.Permitted 1 arriving sop))

end Node

/-- Two programs, and the frames on their way to each. -/
structure Program where
  a : Node
  b : Node
  toB : List Bytes
  toA : List Bytes

namespace Program

def init : Program := ⟨Node.init, Node.init, [], []⟩

/-- A thread of the first program goes on, if it may. -/
def stepA (op : NodeOp) (n : Program) : Option Program :=
  if n.a.Permitted n.toA op then
    (n.a.step op).map fun r => { n with a := r.1, toB := n.toB ++ r.2 }
  else none

def stepB (op : NodeOp) (n : Program) : Option Program :=
  if n.b.Permitted n.toB op then
    (n.b.step op).map fun r => { n with b := r.1, toA := n.toA ++ r.2 }
  else none

end Program

section

variable {x x' : Node} {out : List Bytes}

end

section

variable {n n' : Program} {op : NodeOp}

end

/-- All fields but the length, the id, the fragment field and the checksum are the same. -/
def SameFlow (h h' : IpHdr) : Prop :=
  { h with totLen := h'.totLen, id := h'.id, fragOff := h'.fragOff, check := h'.check } = h'

/-- Where a packet comes from that was written: it was sent as it is, and `r` bytes of it were
accepted; or it was rebuilt, from the headers of a packet of its flow. -/
inductive Origin (read : List Mem) (w : Bytes) : Prop
  | untouched {ippkt : Mem} (h : ippkt ∈ read) (r : ℕ)
      (length : w.length = (IpHdr.read ippkt).totLen.toNat) (front : w.take r = ippkt.read 0 r)
      (enough : r = w.length ∨ sliceDataLen ≤ r)
  | rebuilt {ippkt : Mem} (h : ippkt ∈ read)
      (same : ∀ m : Mem, SameFlow (IpHdr.read (m.overlay w)) (IpHdr.read ippkt))

/-- A packet that a program hands to `upper_send`. -/
inductive Emitted (read : List Mem) : Bytes → Prop
  | plain {ippkt : Mem} (h : ippkt ∈ read) (version : (IpHdr.read ippkt).version = 4)
      (min : IpHdr.len ≤ (IpHdr.read ippkt).totLen.toNat)
      (max : (IpHdr.read ippkt).totLen.toNat ≤ maxDataLength) :
      Emitted read (ippkt.read 0 (IpHdr.read ippkt).totLen.toNat)
  | ctl {ippkt : Mem} (h : ippkt ∈ read) {flow : Sflow} (ip : flow.hdr.ip = IpHdr.read ippkt) :
      Emitted read (buildCtl flow).data
  | cpkt {fresh : Fresh} {flow : Sflow} {ippkt : Mem} {pkts : List Pkt} {pkt : Pkt}
      (h : buildCpkt fresh flow ippkt = some pkts) (mem : pkt ∈ pkts) : Emitted read pkt.data
  | ack (cpkt : Mem) : Emitted read (buildAck cpkt)

/-- The message is the accepted part of such a packet: all of it, or at least one slice. -/
def Fetched (read : List Mem) (msg : Bytes) : Prop :=
  ∃ data r, Emitted read data ∧ msg = data.take r ∧ (data.length ≤ r ∨ sliceDataLen ≤ r)

section

variable {read read' : List Mem}

lemma Emitted.mono (hread : read ⊆ read') {data : Bytes} (h : Emitted read data) :
    Emitted read' data := by
  cases h with
  | plain h version min max => exact .plain (hread h) version min max
  | ctl h ip => exact .ctl (hread h) ip
  | cpkt h mem => exact .cpkt h mem
  | ack cpkt => exact .ack cpkt

lemma Fetched.mono (hread : read ⊆ read') {msg : Bytes} (h : Fetched read msg) :
    Fetched read' msg := by
  obtain ⟨data, r, hdata, hmsg, hr⟩ := h
  exact ⟨data, r, hdata.mono hread, hmsg, hr⟩

lemma Origin.mono (hread : read ⊆ read') {w : Bytes} (h : Origin read w) : Origin read' w := by
  cases h with
  | untouched h r length front enough => exact .untouched (hread h) r length front enough
  | rebuilt h same => exact .rebuilt (hread h) same

/-- In a buffer the front of a message is the front of the packet. -/
lemma overlay_take_apply (buf : Mem) {data : Bytes} {k r i : ℕ} (hr : data.length ≤ r ∨ k ≤ r)
    (hi : i < k) : buf.overlay (data.take r) i = buf.overlay data i := by
  by_cases hdata : i < data.length
  · have htake : i < (data.take r).length := by
      rw [List.length_take]
      omega
    rw [Mem.overlay_apply htake, Mem.overlay_apply hdata, List.getElem_take]
  · have htake : (data.take r).length ≤ i := by
      rw [List.length_take]
      omega
    rw [Mem.overlay_apply_of_ge htake, Mem.overlay_apply_of_ge (Nat.le_of_not_lt hdata)]

lemma IpHdr.read_congr {m m' : Mem} (h : ∀ i < IpHdr.len, m i = m' i) :
    IpHdr.read m = IpHdr.read m' := by
  simp only [IpHdr.read, Mem.be16, Mem.le32, Nat.reduceAdd]
  rw [h 0 (by decide), h 1 (by decide), h 2 (by decide), h 3 (by decide), h 4 (by decide),
    h 5 (by decide), h 6 (by decide), h 7 (by decide), h 8 (by decide), h 9 (by decide),
    h 10 (by decide), h 11 (by decide), h 12 (by decide), h 13 (by decide), h 14 (by decide),
    h 15 (by decide), h 16 (by decide), h 17 (by decide), h 18 (by decide), h 19 (by decide)]

lemma Chdr.read_congr {m m' : Mem} (h : ∀ i < Chdr.len, m i = m' i) :
    Chdr.read m = Chdr.read m' := by
  simp only [Chdr.read]
  rw [h 0 (by decide), h 1 (by decide), h 2 (by decide)]

/-- Only a request makes a receive flow, and it carries the IP header of a packet that was read. -/
lemma Emitted.req {data : Bytes} (h : Emitted read data) {m : Mem}
    (htype : (Chdr.read (m.overlay data)).t = ctypeFrmCtl)
    (hinfo : (Chdr.read (m.overlay data)).i = ctypeCtlReq) :
    ∃ ippkt ∈ read, IpHdr.read ((m.overlay data).drop Chdr.len) = IpHdr.read ippkt := by
  cases h with
  | @plain ippkt h version min max =>
    have hfirst : (m.overlay (ippkt.read 0 (IpHdr.read ippkt).totLen.toNat)) 0 = ippkt 0 :=
      Mem.overlay_read_apply (Nat.lt_of_lt_of_le (by decide) min)
    have hbits : ∀ c < 256, UInt8.ofNat c >>> 4 = 4 → UInt8.ofNat c >>> 6 ≠ ctypeFrmCtl := by
      decide +kernel
    rw [Chdr.read, hfirst] at htype
    refine absurd htype ?_
    have hc := hbits (ippkt 0).toNat (ippkt 0).toNat_lt
    rw [UInt8.ofNat_toNat] at hc
    exact hc version
  | @ctl ippkt h flow ip =>
    refine ⟨ippkt, h, ?_⟩
    rw [← ip, drop_buildCtl]
    exact IpHdr.read_overlay _ _ _
  | cpkt h mem =>
    have hzero := (chdr_buildCpkt h mem m).2 htype
    rw [hinfo] at hzero
    exact absurd hzero (by decide)
  | ack cpkt =>
    have hack : (Chdr.read (m.overlay (buildAck cpkt))).i = ctypeCtlAck := by
      change (ctypeFrmCtl <<< 6 ||| ctypeCtlAck &&& 0x3f) &&& 0x3f = ctypeCtlAck
      decide
    rw [hack] at hinfo
    exact absurd hinfo (by decide)

/-- Only a plain packet is taken for an IP packet. -/
lemma Emitted.ipv4 {data : Bytes} (h : Emitted read data) {m : Mem}
    (hipv4 : isIpv4 (m.overlay data) = true) :
    ∃ ippkt ∈ read, data = ippkt.read 0 (IpHdr.read ippkt).totLen.toNat ∧
      IpHdr.len ≤ (IpHdr.read ippkt).totLen.toNat ∧
      (IpHdr.read ippkt).totLen.toNat ≤ maxDataLength := by
  cases h with
  | plain h version min max => exact ⟨_, h, rfl, min, max⟩
  | ctl h ip =>
    rw [neverIpv4_buildCtl] at hipv4
    cases hipv4
  | cpkt h mem =>
    rw [neverIpv4_buildCpkt h mem] at hipv4
    cases hipv4
  | ack cpkt =>
    rw [neverIpv4_buildAck] at hipv4
    cases hipv4

/-- What comes out of a message that is taken for an IP packet. -/
lemma Fetched.untouched {msg : Bytes} (h : Fetched read msg) {buf : Mem}
    (hipv4 : isIpv4 (buf.overlay msg) = true) :
    Origin read (recvUntouchedIp (buf.overlay msg)) := by
  obtain ⟨data, r, hdata, rfl, hr⟩ := h
  have hagree : ∀ i < IpHdr.len, buf.overlay (data.take r) i = buf.overlay data i := fun i hi =>
    overlay_take_apply buf hr (Nat.lt_of_lt_of_le hi (by decide))
  obtain ⟨ippkt, hmem, rfl, hmin, hmax⟩ := hdata.ipv4 ((isIpv4_congr hagree).symm.trans hipv4)
  set tot := (IpHdr.read ippkt).totLen.toNat with htot
  have hread : IpHdr.read (buf.overlay ((ippkt.read 0 tot).take r)) = IpHdr.read ippkt := by
    apply IpHdr.read_congr
    intro i hi
    rw [hagree i hi, Mem.overlay_read_apply (Nat.lt_of_lt_of_le hi hmin)]
  rw [recvUntouchedIp, hread]
  simp only [← htot, if_pos hmax]
  refine .untouched hmem (min r tot) (by rw [Mem.length_read]) ?_ ?_
  · rw [Mem.take_read _ _ (Nat.min_le_right r tot), List.take_eq_take_min, Mem.length_read,
      Mem.take_read _ _ (Nat.min_le_right r tot)]
    apply Mem.read_congr
    intro i hi
    rw [Nat.zero_add]
    exact Mem.overlay_read_apply hi
  · rw [Mem.length_read] at hr ⊢
    omega

/-! ## Receiving -/

/-- The header is that of a packet that was read. -/
def Known (read : List Mem) (ip : IpHdr) : Prop := ∃ ippkt ∈ read, SameFlow ip (IpHdr.read ippkt)

/-- A packet that is rebuilt begins with the header of the flow. -/
lemma Known.recvFrame {rflow : Rflow} (h : Known read rflow.hdr.ip) {cpkt : Mem} {len : UInt16}
    {r : Rflow × Bytes} (hframe : recvFrame cpkt len rflow = some r) :
    Known read r.1.hdr.ip ∧ Origin read r.2 := by
  obtain ⟨rflow', w⟩ := r
  obtain ⟨ippkt, hmem, hsame⟩ := h
  obtain ⟨rfl, htake⟩ := recvFrame_header hframe
  refine ⟨⟨ippkt, hmem, ?_⟩, .rebuilt hmem fun m => ?_⟩
  · simp only [flowAfter]
    split_ifs
    · exact hsame
    · exact hsame
  · have hw : w = (bareHdr cpkt len rflow).withCsum.bytes ++ w.drop IpHdr.len := by
      rw [← htake, List.take_append_drop]
    rw [hw, IpHdr.read_overlay, bareHdr, frameIp]
    split_ifs
    · exact hsame
    · exact hsame

section

variable {s : Compact}

lemma mem_of_getRflow {k : Rkey} {rflow : Rflow} (h : s.getRflow k = some rflow) :
    rflow ∈ s.rflows.values := by
  have hspec := Hmap.findWithHash_spec s.rflows k.hash fun n => n.rkey == k
  rw [show s.rflows.findWithHash k.hash (fun n => n.rkey == k) = some rflow from h] at hspec
  exact List.mem_map.2 ⟨_, hspec.1, rfl⟩

/-- A write through a pointer to a receive flow. -/
lemma known_setRflow (h : ∀ rflow ∈ s.rflows.values, Known read rflow.hdr.ip) {f : Rflow → Rflow}
    (hf : ∀ n, Known read n.hdr.ip → Known read (f n).hdr.ip) (k : Rkey) :
    ∀ rflow ∈ (s.setRflow k f).rflows.values, Known read rflow.hdr.ip := by
  intro rflow hrflow
  rw [Compact.setRflow, Hmap.values_update, List.mem_map] at hrflow
  obtain ⟨n, hn, rfl⟩ := hrflow
  split_ifs
  · exact hf n (h n hn)
  · exact h n hn

/-- A message with data: the flow counts up, and a packet with its header is made. -/
lemma known_recvData (h : ∀ rflow ∈ s.rflows.values, Known read rflow.hdr.ip) {now : ℤ} {k : Rkey}
    {cpkt : Mem} {len : UInt16} {d : Decompressed}
    (hd : recvData now k s (recvFrame cpkt len) = .ok d) :
    (∀ rflow ∈ d.s.rflows.values, Known read rflow.hdr.ip) ∧ (∀ w ∈ d.ippkt, Origin read w) ∧
      d.sendBack = none ∧ d.s.sflows = s.sflows := by
  rw [recvData] at hd
  cases hget : s.getRflow k with
  | none =>
    simp only [hget] at hd
    cases hd
  | some rflow =>
    simp only [hget] at hd
    cases hframe : Ipcf.recvFrame cpkt len rflow with
    | none =>
      simp only [hframe] at hd
      cases hd
    | some r =>
      simp only [hframe] at hd
      cases hd
      obtain ⟨hknown, horigin⟩ := (h rflow (mem_of_getRflow hget)).recvFrame hframe
      refine ⟨?_, by simpa using horigin, rfl, rfl⟩
      have htouch : ∀ n ∈ (s.touchRflow now k).rflows.values, Known read n.hdr.ip :=
        known_setRflow h (f := fun n => { n with softTimeout := softTimeout now })
          (fun _ hn => hn) k
      exact known_setRflow htouch (f := fun n => { n with hdr := r.1.hdr }) (fun _ _ => hknown) k

/-- **What `recv_compress` makes of a message.**  The receive flows keep to packets that were read,
and so does the packet that is written; the send flows keep their headers; and what is sent back is
an acknowledgement. -/
lemma Fetched.recvCompress {msg : Bytes} (h : Fetched read msg)
    (hrflows : ∀ rflow ∈ s.rflows.values, Known read rflow.hdr.ip) {now : ℤ} {fresh : Fresh}
    {buf : Mem} {len : ℕ} {d : Decompressed}
    (hd : recvCompress now fresh (buf.overlay msg) len s = .ok d) :
    (∀ rflow ∈ d.s.rflows.values, Known read rflow.hdr.ip) ∧ (∀ w ∈ d.ippkt, Origin read w) ∧
      (∀ data ∈ d.sendBack, ∃ cpkt, data = buildAck cpkt) ∧
      ∀ flow ∈ d.s.sflows.values, ∃ flow' ∈ s.sflows.values, flow.hdr = flow'.hdr := by
  have hkept : ∀ flow ∈ s.sflows.values, ∃ flow' ∈ s.sflows.values, flow.hdr = flow'.hdr :=
    fun flow hflow => ⟨flow, hflow, rfl⟩
  by_cases hipv4 : isIpv4 (buf.overlay msg) = true
  · rw [Ipcf.recvCompress, if_pos hipv4] at hd
    cases hd
    exact ⟨hrflows, by simpa using h.untouched hipv4, by simp, hkept⟩
  rw [Bool.not_eq_true] at hipv4
  by_cases htype : (Chdr.read (buf.overlay msg)).t = ctypeFrmCtl
  · cases decoded hd with
    | ipv4 hyes =>
      rw [hipv4] at hyes
      cases hyes
    | data _ hne => exact absurd htype hne
    | flt | noAck => exact ⟨hrflows, by simp, by simp, hkept⟩
    | ack =>
      refine ⟨hrflows, by simp, by simp, fun flow hflow => ?_⟩
      rw [Compact.setSflow, Hmap.values_update, List.mem_map] at hflow
      obtain ⟨n, hn, rfl⟩ := hflow
      refine ⟨n, hn, ?_⟩
      split_ifs <;> rfl
    | req _ _ hinfo =>
      refine ⟨fun rflow hrflow => ?_, by simp, by simp, hkept⟩
      have hcases := Hmap.mem_values_insert.1 hrflow
      rcases hcases with rfl | hold
      · -- a message of 36 bytes holds the headers of a request
        obtain ⟨data, r, hdata, rfl, hr⟩ := h
        have hagree : ∀ i < sliceDataLen, buf.overlay (data.take r) i = buf.overlay data i :=
          fun i hi => overlay_take_apply buf hr hi
        have hchdr : Chdr.read (buf.overlay (data.take r)) = Chdr.read (buf.overlay data) :=
          Chdr.read_congr fun i hi => hagree i (Nat.lt_of_lt_of_le hi (by decide))
        rw [hchdr] at htype hinfo
        obtain ⟨ippkt, hmem, hip⟩ := hdata.req htype hinfo
        refine ⟨ippkt, hmem, ?_⟩
        have hhdr : IpHdr.read ((buf.overlay (data.take r)).drop Chdr.len) = IpHdr.read ippkt := by
          rw [← hip]
          apply IpHdr.read_congr
          intro i hi
          have hlt : Chdr.len + i < sliceDataLen :=
            Nat.lt_of_lt_of_le (Nat.add_lt_add_left hi _) (by decide)
          exact hagree _ hlt
        simp only [OrigHdr.read, hhdr]
        rfl
      · exact hrflows rflow hold
  · rw [recvCompress_recvFrame hipv4 htype] at hd
    obtain ⟨hknown, horigin, hback, hsflows⟩ := known_recvData hrflows hd
    refine ⟨hknown, horigin, by simp [hback], ?_⟩
    rw [hsflows]
    exact hkept

end

/-! ## Sending -/

/-- The send flows keep to packets that were read. -/
def KeepsTo (read : List Mem) (s : Compact) : Prop :=
  ∀ flow ∈ s.sflows.values, ∃ ippkt ∈ read, flow.hdr.ip = IpHdr.read ippkt

section

variable {s : Compact}

lemma KeepsTo.setSflow (h : KeepsTo read s) {f : Sflow → Sflow} (hf : ∀ n, (f n).hdr = n.hdr)
    (addr : ℕ) : KeepsTo read (s.setSflow addr f) := by
  intro flow hflow
  rw [Compact.setSflow, Hmap.values_update, List.mem_map] at hflow
  obtain ⟨n, hn, rfl⟩ := hflow
  obtain ⟨ippkt, hmem, hip⟩ := h n hn
  refine ⟨ippkt, hmem, ?_⟩
  rw [← hip]
  split_ifs
  · rw [hf]
  · rfl

lemma KeepsTo.touchSflow (h : KeepsTo read s) (now : ℤ) (addr : ℕ) :
    KeepsTo read (s.touchSflow now addr) :=
  h.setSflow (f := fun n => { n with softTimeout := softTimeout now }) (fun _ => rfl) addr

lemma KeepsTo.mono (h : KeepsTo read s) (hread : read ⊆ read') : KeepsTo read' s := by
  intro flow hflow
  obtain ⟨ippkt, hmem, hip⟩ := h flow hflow
  exact ⟨ippkt, hread hmem, hip⟩

lemma KeepsTo.timerEvent (h : KeepsTo read s) (now : ℤ) : KeepsTo read (s.timerEvent now) := by
  intro flow hflow
  have hvalues : (s.timerEvent now).sflows.values =
      s.sflows.values.filter fun n => !!decide (now < n.softTimeout) := Hmap.values_removeIf _ _
  rw [hvalues] at hflow
  exact h flow (List.mem_of_mem_filter hflow)

/-- A packet that is pushed as it is. -/
lemma emitted_plain {ippkt : Mem} (hmem : ippkt ∈ read) (hversion : (IpHdr.read ippkt).version = 4)
    (hmin : IpHdr.len ≤ (IpHdr.read ippkt).totLen.toNat) {pkt : Pkt}
    (hpkt : addToPktList ippkt (IpHdr.read ippkt).totLen = some pkt) : Emitted read pkt.data := by
  rw [addToPktList] at hpkt
  split_ifs at hpkt with hmax
  rw [← Option.some.inj hpkt]
  exact .plain hmem hversion hmin hmax

/-- **What `xmit_compress` sends.**  The flow of a packet has the header of it. -/
lemma KeepsTo.xmit (h : KeepsTo read s) {now : ℤ} {fresh : Fresh} {ippkt : Mem} {s' : Compact}
    {pkts : List Pkt} (hxmit : Xmitted now fresh ippkt s s' pkts) (hmem : ippkt ∈ read)
    (hversion : (IpHdr.read ippkt).version = 4)
    (hmin : IpHdr.len ≤ (IpHdr.read ippkt).totLen.toNat) :
    KeepsTo read s' ∧ s'.rflows = s.rflows ∧ ∀ pkt ∈ pkts, Emitted read pkt.data := by
  cases hxmit with
  | refused _ hpkt =>
    refine ⟨h, rfl, ?_⟩
    simpa using emitted_plain hmem hversion hmin hpkt
  | dropped => exact ⟨h, rfl, by simp⟩
  | @opened fid pkt _ _ _ hpkt =>
    have hnew : KeepsTo read ({ s with idp := (getId s.idp).2 }.buildSflow now fresh
        (getSflowKey ippkt) ippkt (UInt8.ofNat fid)).1 := by
      intro flow hflow
      have hcases := Hmap.mem_values_insert.1 hflow
      rcases hcases with rfl | hold
      · exact ⟨ippkt, hmem, rfl⟩
      · exact h flow hold
    refine ⟨(hnew.setSflow (f := fun n => { n with state := .pending }) (fun _ => rfl)
      _).touchSflow now _, rfl, ?_⟩
    have hctl : Emitted read (buildCtl (newSflow now fresh ippkt s (UInt8.ofNat fid))).data :=
      .ctl hmem rfl
    simpa using ⟨hctl, emitted_plain hmem hversion hmin hpkt⟩
  | again _ hget _ hpkt =>
    obtain ⟨ippkt', hmem', hip⟩ := h _ (mem_of_getSflow hget)
    refine ⟨(h.setSflow (f := fun n => { n with state := .pending }) (fun _ => rfl) _).touchSflow
      now _, rfl, ?_⟩
    simpa using ⟨Emitted.ctl hmem' hip, emitted_plain hmem hversion hmin hpkt⟩
  | pending _ _ _ hpkt =>
    refine ⟨h.touchSflow now _, rfl, ?_⟩
    simpa using emitted_plain hmem hversion hmin hpkt
  | compressed _ _ _ hpkts => exact ⟨h.touchSflow now _, rfl, fun pkt hpkt => .cpkt hpkts hpkt⟩

end

end

/-- What `upper_send` accepts of a message is all of it, or at least one slice. -/
lemma upperSend_enough (now : ℤ) (stack : Stack) (smac dmac : UInt8) (msg : Bytes) (s : Split)
    (h : 0 < (upperSend now stack smac dmac msg s).2) :
    msg.length ≤ (upperSend now stack smac dmac msg s).2.toNat ∨
      sliceDataLen ≤ (upperSend now stack smac dmac msg s).2.toNat := by
  by_cases hmsg : msg = []
  · subst hmsg
    exact .inl (Nat.zero_le _)
  · have hlen : ¬ msg.length ≤ 0 := Nat.not_le.2 (List.length_pos_iff.2 hmsg)
    obtain ⟨-, henough⟩ := upperSendSse_length now stack smac dmac hmsg
      ((getSse now dmac s).getD (createSse now))
    rw [upperSend, if_neg hlen] at h ⊢
    simp only at h ⊢
    omega

/-! ## One direction -/

/-- What `x` sends to `y` comes from packets that `x` has read, and so does what `y` writes. -/
structure OneWay (x y : Node) : Prop where
  sflows : KeepsTo x.read x.compact
  pkts : ∀ pkt ∈ x.loop.list.pkts, Emitted x.read pkt.data
  sendBack : ∀ data ∈ x.sendBack, Emitted x.read data
  calls : ∀ c ∈ x.side.calls, Emitted x.read c.1 ∧
    (0 < c.2 → c.1.length ≤ c.2.toNat ∨ sliceDataLen ≤ c.2.toNat)
  rflows : ∀ rflow ∈ y.compact.rflows.values, Known x.read rflow.hdr.ip
  msg : ∀ r ∈ y.msg, ∃ buf msg, Fetched x.read msg ∧ r.1 = Mem.overlay buf msg
  written : ∀ w ∈ y.written, Origin x.read w

section

variable {x y x' y' : Node} {out : List Bytes} {op : NodeOp}

/-- A packet is handed to `upper_send`. -/
lemma OneWay.upperSend (h : OneWay x y) {data : Bytes} (hdata : Emitted x.read data) (now : ℤ)
    (stack : Stack) :
    ∀ c ∈ (x.side.step 2 1 2 (.upperSend now stack data)).1.calls, Emitted x.read c.1 ∧
      (0 < c.2 → c.1.length ≤ c.2.toNat ∨ sliceDataLen ≤ c.2.toNat) := by
  intro c hc
  simp only [Side.step, List.mem_append, List.mem_singleton] at hc
  rcases hc with hc | rfl
  · exact h.calls c hc
  · exact ⟨hdata, upperSend_enough now stack 2 1 data _⟩

/-- What `upper_recv` copies into the buffer of `recv_unsplit`. -/
lemma OneWay.fetched (h : OneWay x y) {toX : List Bytes}
    (hdelivers : Delivers 2 1 x.side y.side toX)
    (hne : (upperRecv maxBufSize y.side.split).2.1 ≠ []) :
    Fetched x.read (upperRecv maxBufSize y.side.split).2.1 := by
  cases hlist : y.side.split.upperRecvList with
  | nil => simp [upperRecv, hlist] at hne
  | cons m ms =>
    simp only [upperRecv, hlist]
    obtain ⟨done, waiting, hsubmitted, -, hwaiting⟩ := hdelivers.logged
    -- the first message that waits had been accepted
    obtain ⟨r, hr, rfl⟩ : ∃ r ∈ waiting, r.2 = m := by
      have hm : m ∈ waiting.map Prod.snd := by
        rw [← hwaiting, hlist]
        exact List.mem_cons_self ..
      simpa using hm
    have haccepted := hdelivers.accepted r (by
      rw [hsubmitted]
      exact List.mem_append_right _ hr)
    obtain ⟨c, hc, hpart⟩ := List.mem_filterMap.1 (List.mem_of_getElem? haccepted)
    split_ifs at hpart with hpos
    obtain ⟨hemitted, henough⟩ := h.calls c hc
    refine ⟨c.1, min maxBufSize c.2.toNat, hemitted, ?_, ?_⟩
    · rw [← Option.some.inj hpart, List.take_take]
    · have hroom : sliceDataLen ≤ maxBufSize := by decide
      have := henough hpos
      by_cases hle : maxBufSize ≤ c.2.toNat
      · rw [Nat.min_eq_left hle]
        exact .inr hroom
      · rw [Nat.min_eq_right (Nat.le_of_not_le hle)]
        exact this

end

/-! ## Runs -/

namespace Program

end Program

end Ipcf
