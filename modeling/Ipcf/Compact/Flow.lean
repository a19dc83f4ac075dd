import Ipcf.Compact.Headers
import Ipcf.Framework.Hmap
import Ipcf.Hash
import Mathlib.Logic.Function.Basic

/-!
# Flows

The state of `compact.c`: the two flow tables, the index of send flows by flow id, and the pool of
ids (`lib/idpool.c`), with what creates, touches and expires a flow.  A pointer to a send flow is
its address, a number that no other flow gets; the index holds such pointers.

What the code reads from its surroundings is an argument: the clock (`ts_msec()`) and the contents
of memory that was just allocated (`Fresh`).  The clock is a `long long`, but a flow keeps its
timeout in an `int`.
-/

namespace Ipcf

def maxDataLength : ℕ := 2000
def softTimeoutInterval : ℤ := 10 * 1000
def nIdBits : ℕ := 8
def myMac : UInt8 := 1

/-- A time, stored in an `int`. -/
def toInt32 (t : ℤ) : ℤ := t.bmod (2 ^ 32)

/-- What a flow sets its timeout to. -/
def softTimeout (now : ℤ) : ℤ := toInt32 (now + softTimeoutInterval)

/-! ## The id pool -/

/-- `idpool_t` -/
structure Idpool where
  n : ℕ
  pool : List ℕ
  head : ℕ
  tail : ℕ
  empty : Bool

/-- `init_idpool` -/
def initIdpool (n : ℕ) : Idpool where
  n := n
  pool := List.range n
  head := 0
  tail := n - 1
  empty := false

/-- `get_id`; the result -1 is `none`. -/
def getId (p : Idpool) : Option ℕ × Idpool :=
  let gettingEmpty := p.head == p.tail
  if p.empty then (none, p)
  else (some (p.pool.getD p.head 0), { p with head := (p.head + 1) % p.n, empty := gettingEmpty })

/-- `release_id` -/
def releaseId (p : Idpool) (id : ℕ) : Idpool :=
  let tailNext := (p.tail + 1) % p.n
  let isFull := !p.empty && tailNext == p.head
  if isFull then p else { p with tail := tailNext, pool := p.pool.set tailNext id, empty := false }

/-! ## Keys -/

/-- `skey_t`; 16-bit fields in host order. -/
structure Skey where
  saddr : UInt32
  daddr : UInt32
  ipid : UInt16
  proto : UInt8
  resv : UInt8
  sport : UInt16
  dport : UInt16
deriving DecidableEq

/-- `rkey_t` -/
structure Rkey where
  smac : UInt8
  id : UInt8
deriving DecidableEq

/-- The hash of a send flow's key. -/
def Skey.hash (k : Skey) : ℕ :=
  (hashBytes (le32 k.saddr ++ le32 k.daddr ++ be16 k.ipid ++ [k.proto, k.resv] ++ be16 k.sport ++
    be16 k.dport)).toNat

/-- The hash of a receive flow's key. -/
def Rkey.hash (k : Rkey) : ℕ := (hashBytes [k.smac, k.id]).toNat

/-- `get_sflow_key`: a fragment, and a packet of another protocol, is filed under its IP id, and
others under their ports. -/
def getSflowKey (ippkt : Mem) : Skey :=
  let iphdr := IpHdr.read ippkt
  let tcphdr := TcpHdr.read (ippkt.drop IpHdr.len)
  let udphdr := UdpHdr.read (ippkt.drop IpHdr.len)
  let k : Skey := {
    saddr := iphdr.saddr
    daddr := iphdr.daddr
    ipid := 0
    proto := iphdr.protocol
    resv := 0
    sport := 0
    dport := 0 }
  if iphdr.fragOff &&& fragFlagMfMask ≠ 0 ∨ iphdr.fragOff &&& fragOffMask ≠ 0 ∨
      (iphdr.protocol ≠ protocolTcp ∧ iphdr.protocol ≠ protocolUdp) then
    { k with ipid := iphdr.id }
  else if iphdr.protocol = protocolTcp then
    { k with sport := tcphdr.source, dport := tcphdr.dest }
  else
    { k with sport := udphdr.source, dport := udphdr.dest }

/-- `get_rflow_key` -/
def getRflowKey (chdr : Chdr) : Rkey where
  smac := chdr.smac
  id := chdr.id

/-! ## Flows -/

/-- What stands in memory that was just allocated, where the code leaves it as it is: the first
byte of a `pkt_t`, which holds two bit fields, and the transport header of a flow. -/
structure Fresh where
  pkt : UInt8
  t : Buffer UInt8 TcpHdr.len

instance : Inhabited Fresh := ⟨⟨0, Buffer.fill _ 0⟩⟩

/-- `struct orig_hdr`; the union `t` is its bytes. -/
structure OrigHdr where
  ip : IpHdr
  t : Buffer UInt8 TcpHdr.len
deriving DecidableEq

/-- The headers of a packet, copied to a new flow: a TCP or UDP header is copied, of another
protocol there is none. -/
def OrigHdr.read (fresh : Fresh) (ippkt : Mem) : OrigHdr :=
  let iphdr := IpHdr.read ippkt
  { ip := iphdr
    t :=
      if iphdr.protocol = protocolTcp then fresh.t.write 0 (ippkt.read IpHdr.len TcpHdr.len)
      else if iphdr.protocol = protocolUdp then fresh.t.write 0 (ippkt.read IpHdr.len UdpHdr.size)
      else fresh.t }

inductive FlowState
  | new
  | pending
  | established
deriving DecidableEq

/-- `sflow_node_t`, with its address. -/
structure Sflow where
  addr : ℕ
  state : FlowState
  skey : Skey
  hdr : OrigHdr
  fid : UInt8
  softTimeout : ℤ
deriving DecidableEq

/-- `rflow_node_t` -/
structure Rflow where
  rkey : Rkey
  hdr : OrigHdr
  fid : UInt8
  softTimeout : ℤ
deriving DecidableEq

/-- The state of `compact.c`; `heap` is the next address. -/
structure Compact where
  sflows : Hmap Sflow
  rflows : Hmap Rflow
  idp : Idpool
  rindex : UInt8 → Option ℕ
  heap : ℕ

/-- `compact_init` -/
def compactInit : Compact where
  sflows := Hmap.init
  rflows := Hmap.init
  idp := initIdpool (2 ^ nIdBits)
  rindex _ := none
  heap := 0

namespace Compact

variable (s : Compact)

/-- `get_sflow_by_hash` -/
def getSflow (k : Skey) : Option Sflow := s.sflows.findWithHash k.hash fun n => n.skey == k

/-- `get_rflow_by_hash` -/
def getRflow (k : Rkey) : Option Rflow := s.rflows.findWithHash k.hash fun n => n.rkey == k

/-- A write through a pointer to a send flow. -/
def setSflow (addr : ℕ) (f : Sflow → Sflow) : Compact :=
  { s with sflows := s.sflows.update fun n => if n.addr = addr then f n else n }

/-- A write through a pointer to the receive flow with this key. -/
def setRflow (k : Rkey) (f : Rflow → Rflow) : Compact :=
  { s with rflows := s.rflows.update fun n => if n.rkey = k then f n else n }

/-- `build_sflow_by_hash`, and the entry in the index. -/
def buildSflow (now : ℤ) (fresh : Fresh) (skey : Skey) (ippkt : Mem) (fid : UInt8) :
    Compact × Sflow :=
  let n : Sflow := {
    addr := s.heap
    state := .new
    skey := skey
    hdr := OrigHdr.read fresh ippkt
    fid := fid
    softTimeout := Ipcf.softTimeout now }
  ({ s with
      sflows := s.sflows.insert skey.hash n
      rindex := Function.update s.rindex fid (some s.heap)
      heap := s.heap + 1 }, n)

/-- `build_rflow_by_hash` -/
def buildRflow (now : ℤ) (fresh : Fresh) (rkey : Rkey) (cpkt : Mem) : Compact :=
  let n : Rflow := {
    rkey := rkey
    hdr := OrigHdr.read fresh (cpkt.drop Chdr.len)
    fid := (Chdr.read cpkt).id
    softTimeout := Ipcf.softTimeout now }
  { s with rflows := s.rflows.insert rkey.hash n }

/-- `touch_sflow` -/
def touchSflow (now : ℤ) (addr : ℕ) : Compact :=
  s.setSflow addr fun n => { n with softTimeout := Ipcf.softTimeout now }

/-- `touch_rflow` -/
def touchRflow (now : ℤ) (k : Rkey) : Compact :=
  s.setRflow k fun n => { n with softTimeout := Ipcf.softTimeout now }

/-- An iteration of the first loop of `timer_event`, without the removal from the table. -/
def expireSflow (now : ℤ) (s : Compact) (n : Sflow) : Compact :=
  if now < n.softTimeout then s
  else { s with
    rindex := Function.update s.rindex n.fid none
    idp := releaseId s.idp n.fid.toNat }

/-- `timer_event` -/
def timerEvent (now : ℤ) : Compact :=
  { s.sflows.values.foldl (expireSflow now) s with
    sflows := s.sflows.removeIf fun n => !decide (now < n.softTimeout)
    rflows := s.rflows.removeIf fun n => !decide (now < n.softTimeout) }

/-! ## Tables with keys -/

/-- Both tables are filed by key, without repetition. -/
structure Keyed : Prop where
  sflows : Hmap.Keyed Sflow.skey Skey.hash s.sflows
  rflows : Hmap.Keyed Rflow.rkey Rkey.hash s.rflows

variable {s}

lemma keyed_compactInit : compactInit.Keyed := ⟨Hmap.keyed_init, Hmap.keyed_init⟩

lemma Keyed.getSflow_eq_some_iff (h : s.Keyed) {k : Skey} {n : Sflow} :
    s.getSflow k = some n ↔ n ∈ s.sflows.values ∧ n.skey = k := h.sflows.lookup_eq_some_iff

lemma Keyed.getSflow_eq_none_iff (h : s.Keyed) {k : Skey} :
    s.getSflow k = none ↔ ∀ n ∈ s.sflows.values, n.skey ≠ k := h.sflows.lookup_eq_none_iff

lemma Keyed.getRflow_eq_some_iff (h : s.Keyed) {k : Rkey} {n : Rflow} :
    s.getRflow k = some n ↔ n ∈ s.rflows.values ∧ n.rkey = k := h.rflows.lookup_eq_some_iff

lemma Keyed.getRflow_eq_none_iff (h : s.Keyed) {k : Rkey} :
    s.getRflow k = none ↔ ∀ n ∈ s.rflows.values, n.rkey ≠ k := h.rflows.lookup_eq_none_iff

lemma getRflow_compactInit (k : Rkey) : compactInit.getRflow k = none := by
  rw [keyed_compactInit.getRflow_eq_none_iff]
  simp [compactInit]

/-! ## The receive flows as a function -/

/-- The flow that `build_rflow_by_hash` makes. -/
def newRflow (now : ℤ) (fresh : Fresh) (rkey : Rkey) (cpkt : Mem) : Rflow where
  rkey := rkey
  hdr := OrigHdr.read fresh (cpkt.drop Chdr.len)
  fid := (Chdr.read cpkt).id
  softTimeout := Ipcf.softTimeout now

lemma Keyed.buildRflow (h : s.Keyed) {k : Rkey} (hnone : s.getRflow k = none) (now : ℤ)
    (fresh : Fresh) (cpkt : Mem) : (s.buildRflow now fresh k cpkt).Keyed :=
  ⟨h.sflows, h.rflows.insert (x := newRflow now fresh k cpkt) (h.getRflow_eq_none_iff.1 hnone)⟩

lemma Keyed.getRflow_buildRflow (h : s.Keyed) {k : Rkey} (hnone : s.getRflow k = none) (now : ℤ)
    (fresh : Fresh) (cpkt : Mem) (k' : Rkey) :
    (s.buildRflow now fresh k cpkt).getRflow k' =
      if k' = k then some (newRflow now fresh k cpkt) else s.getRflow k' :=
  h.rflows.lookup_insert (x := newRflow now fresh k cpkt) (h.getRflow_eq_none_iff.1 hnone) k'

section

variable {f : Rflow → Rflow} (hf : ∀ n, (f n).rkey = n.rkey)

include hf

lemma rkey_setRflow (k : Rkey) (n : Rflow) : (if n.rkey = k then f n else n).rkey = n.rkey := by
  split_ifs
  · exact hf n
  · rfl

lemma Keyed.setRflow (h : s.Keyed) (k : Rkey) : (s.setRflow k f).Keyed :=
  ⟨h.sflows, h.rflows.update (rkey_setRflow hf k)⟩

lemma Keyed.getRflow_setRflow (h : s.Keyed) (k k' : Rkey) :
    (s.setRflow k f).getRflow k' = if k' = k then (s.getRflow k').map f else s.getRflow k' := by
  have hmap : (s.setRflow k f).getRflow k' =
      (s.getRflow k').map fun n => if n.rkey = k then f n else n :=
    h.rflows.lookup_update (rkey_setRflow hf k) k'
  rw [hmap]
  cases hget : s.getRflow k' with
  | none => simp
  | some n =>
    obtain ⟨-, rfl⟩ := h.getRflow_eq_some_iff.1 hget
    simp only [Option.map_some]
    split_ifs <;> rfl

end

lemma Keyed.timerEvent (h : s.Keyed) (now : ℤ) : (s.timerEvent now).Keyed :=
  ⟨h.sflows.removeIf fun n => !decide (now < n.softTimeout),
    h.rflows.removeIf fun n => !decide (now < n.softTimeout)⟩

lemma Keyed.getRflow_timerEvent (h : s.Keyed) (now : ℤ) (k : Rkey) :
    (s.timerEvent now).getRflow k =
      (s.getRflow k).filter fun n => decide (now < n.softTimeout) := by
  have hfilter : (s.timerEvent now).getRflow k =
      (s.getRflow k).filter fun n => !!decide (now < n.softTimeout) :=
    h.rflows.lookup_removeIf _ k
  rw [hfilter]
  simp only [Bool.not_not]

end Compact

end Ipcf
