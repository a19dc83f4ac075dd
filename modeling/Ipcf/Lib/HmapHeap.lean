import Ipcf.Framework.BitFill
import Ipcf.Framework.HmapLoop
import Mathlib.Data.Fintype.Card

/-!
# The hash map in memory

`hmap.c` and `hmap.h` as they work: buckets are arrays that are allocated and freed, nodes are
chained by pointers, a map of one bucket keeps it in itself, and growing moves every node to a
local map that is then swapped with the one to grow.  A null pointer that is followed, an access
outside of an array or to one that was freed, a second `free`, the error exit of `resize` and a
loop that does not end are `none`.

`Holds` relates a map in memory to an `Hmap`; the results say that every operation succeeds on
memory that holds a map and leaves memory that holds what the operation of `Hmap` makes of it, and
what else it touches (`Untouched`).
-/

namespace Ipcf

/-- Where a node is. -/
abbrev NodeAddr := Fin (2 ^ 64)

/-- Where a `struct hmap` is; `none` is the local variable `tmp` of `resize`. -/
abbrev MapAddr := Option ℕ

/-- What `buckets` points to. -/
inductive Buckets
  | one (hmap : MapAddr)
  | array (a : ℕ)
deriving DecidableEq

/-- A place in memory that holds a pointer to a node. -/
inductive Slot
  | bucket (b : Buckets) (i : ℕ)
  | next (node : NodeAddr)
deriving DecidableEq

/-- `struct hmap`, less `one`, which is a place of its own. -/
structure HmapObj where
  buckets : Buckets
  mask : ℕ
  n : ℕ

/-- The maps, the nodes and the arrays of buckets.  `size` is how many buckets an array has that was
allocated and not freed, `fresh` how many were allocated. -/
structure HmapHeap where
  hmap : MapAddr → HmapObj
  cell : Slot → Option NodeAddr
  hash : NodeAddr → ℕ
  size : ℕ → Option ℕ
  fresh : ℕ

namespace HmapHeap

variable (m : HmapHeap)

/-! ## Memory -/

/-- There is such a place. -/
def Valid : Slot → Prop
  | .bucket (.one _) i => i = 0
  | .bucket (.array a) i => ∃ k ∈ m.size a, i < k
  | .next _ => True

instance (s : Slot) : Decidable (m.Valid s) :=
  match s with
  | .bucket (.one _) i => inferInstanceAs (Decidable (i = 0))
  | .bucket (.array a) i =>
    match h : m.size a with
    | none => .isFalse (by simp [Valid, h])
    | some k => decidable_of_iff (i < k) (by simp [Valid, h])
  | .next _ => .isTrue trivial

def load (s : Slot) : Option (Option NodeAddr) := if m.Valid s then some (m.cell s) else none

def setCell (s : Slot) (p : Option NodeAddr) : HmapHeap :=
  { m with cell := Function.update m.cell s p }

def store (s : Slot) (p : Option NodeAddr) : Option HmapHeap :=
  if m.Valid s then some (m.setCell s p) else none

def setHash (node : NodeAddr) (hash : ℕ) : HmapHeap :=
  { m with hash := Function.update m.hash node hash }

def setMap (h : MapAddr) (obj : HmapObj) : HmapHeap :=
  { m with hmap := Function.update m.hmap h obj }

/-- `xmalloc` of an array of buckets: what is in them is not known. -/
def xmalloc (k : ℕ) : ℕ × HmapHeap :=
  (m.fresh, { m with size := Function.update m.size m.fresh (some k), fresh := m.fresh + 1 })

def free (a : ℕ) : Option HmapHeap :=
  if (m.size a).isSome then some { m with size := Function.update m.size a none } else none

section

variable (s t : Slot) (p : Option NodeAddr) (node x : NodeAddr) (hash a : ℕ) (h k : MapAddr)
  (obj : HmapObj)

@[simp] lemma setCell_cell : (m.setCell s p).cell t = if t = s then p else m.cell t :=
  Function.update_apply _ _ _ _

@[simp] lemma setCell_hmap : (m.setCell s p).hmap = m.hmap := rfl

@[simp] lemma setCell_hash : (m.setCell s p).hash = m.hash := rfl

@[simp] lemma setCell_size : (m.setCell s p).size = m.size := rfl

@[simp] lemma setCell_fresh : (m.setCell s p).fresh = m.fresh := rfl

@[simp] lemma setHash_cell : (m.setHash node hash).cell = m.cell := rfl

@[simp] lemma setHash_hmap : (m.setHash node hash).hmap = m.hmap := rfl

@[simp] lemma setHash_hash : (m.setHash node hash).hash x = if x = node then hash else m.hash x :=
  Function.update_apply _ _ _ _

@[simp] lemma setHash_size : (m.setHash node hash).size = m.size := rfl

@[simp] lemma setHash_fresh : (m.setHash node hash).fresh = m.fresh := rfl

@[simp] lemma setMap_cell : (m.setMap h obj).cell = m.cell := rfl

@[simp] lemma setMap_hmap : (m.setMap h obj).hmap k = if k = h then obj else m.hmap k :=
  Function.update_apply _ _ _ _

@[simp] lemma setMap_hash : (m.setMap h obj).hash = m.hash := rfl

@[simp] lemma setMap_size : (m.setMap h obj).size = m.size := rfl

@[simp] lemma setMap_fresh : (m.setMap h obj).fresh = m.fresh := rfl

end

/-! ## Operations -/

/-- `&hmap->buckets[i]` -/
def bucket (h : MapAddr) (i : ℕ) : Slot := .bucket (m.hmap h).buckets i

/-- `hmap_init` -/
def init (h : MapAddr) : HmapHeap :=
  let m := m.setMap h ⟨.one h, 0, 0⟩
  m.setCell (.bucket (.one h) 0) none

/-- `hmap_destroy` -/
def destroy (h : MapAddr) : Option HmapHeap :=
  match (m.hmap h).buckets with
  | .one k => if k = h then some m else none
  | .array a => m.free a

/-- `hmap_moved` -/
def moved (h : MapAddr) : HmapHeap :=
  if (m.hmap h).mask = 0 then m.setMap h { m.hmap h with buckets := .one h } else m

/-- `hmap_swap`: what is in `one` goes with the rest. -/
def swap (a b : MapAddr) : HmapHeap :=
  let tmp := m.hmap a
  let tmpOne := m.cell (.bucket (.one a) 0)
  let m := (m.setMap a (m.hmap b)).setCell (.bucket (.one a) 0) (m.cell (.bucket (.one b) 0))
  let m := (m.setMap b tmp).setCell (.bucket (.one b) 0) tmpOne
  (m.moved a).moved b

/-- `hmap_insert_fast` -/
def insertFast (h : MapAddr) (node : NodeAddr) (hash : ℕ) : Option HmapHeap := do
  let bucket := m.bucket h (hash &&& (m.hmap h).mask)
  let m := m.setHash node hash
  let first ← m.load bucket
  let m ← m.store (.next node) first
  let m ← m.store bucket (some node)
  some (m.setMap h { m.hmap h with n := (m.hmap h).n + 1 })

/-- `is_pow2` -/
def isPow2 (x : ℕ) : Bool := x != 0 && x &&& (x - 1) == 0

/-- The inner loop of `resize`, from a node on, of at most `fuel` nodes: the next node is read
before this one goes to the other map. -/
def moveChain (h : MapAddr) : (fuel : ℕ) → Option NodeAddr → HmapHeap → Option HmapHeap
  | _, none, m => some m
  | 0, some _, _ => none
  | fuel + 1, some node, m => do
    let next ← m.load (.next node)
    let m ← m.insertFast h node (m.hash node)
    moveChain h fuel next m

/-- The body of the outer loop of `resize`. -/
def moveBucket (h t : MapAddr) (m : HmapHeap) (i : ℕ) : Option HmapHeap := do
  let node ← m.load (m.bucket h i)
  m.moveChain t (m.hmap h).n node

/-- `hmap_init (&tmp)` and the allocation in `resize`. -/
def initTmp (newMask : ℕ) : Option HmapHeap :=
  let m := m.init none
  if newMask = 0 then some m
  else
    let (a, m) := m.xmalloc (newMask + 1)
    let m := m.setMap none { m.hmap none with buckets := .array a, mask := newMask }
    (List.range (newMask + 1)).foldlM (fun m i => m.store (m.bucket none i) none) m

/-- `resize` -/
def resize (h : MapAddr) (newMask : ℕ) : Option HmapHeap := do
  guard (isPow2 (newMask + 1))
  let m ← m.initTmp newMask
  let m ← (List.range ((m.hmap h).mask + 1)).foldlM (moveBucket h none) m
  let m := m.swap h none
  m.destroy none

/-- `hmap_expand` -/
def expand (h : MapAddr) : Option HmapHeap :=
  let newMask := Hmap.calcMask (m.hmap h).n
  if newMask > (m.hmap h).mask then m.resize h newMask else some m

/-- `hmap_insert` -/
def insert (h : MapAddr) (node : NodeAddr) (hash : ℕ) : Option HmapHeap := do
  let m ← m.insertFast h node hash
  if (m.hmap h).n / 2 > (m.hmap h).mask then m.expand h else some m

/-- The loop of `hmap_remove` and `hmap_replace`: the place that holds the pointer to the node. -/
def seek (node : NodeAddr) : (fuel : ℕ) → Slot → Option Slot
  | 0, _ => none
  | fuel + 1, bucket => do
    let p ← m.load bucket
    if p = some node then some bucket else seek node fuel (.next (← p))

/-- `hmap_remove` -/
def remove (h : MapAddr) (node : NodeAddr) : Option HmapHeap := do
  let bucket ← m.seek node (m.hmap h).n (m.bucket h (m.hash node &&& (m.hmap h).mask))
  let next ← m.load (.next node)
  let m ← m.store bucket next
  some (m.setMap h { m.hmap h with n := (m.hmap h).n - 1 })

/-- `hmap_replace` -/
def replace (h : MapAddr) (oldNode newNode : NodeAddr) : Option HmapHeap := do
  let bucket ← m.seek oldNode (m.hmap h).n (m.bucket h (m.hash oldNode &&& (m.hmap h).mask))
  let m ← m.store bucket (some newNode)
  let m := m.setHash newNode (m.hash oldNode)
  let next ← m.load (.next oldNode)
  m.store (.next newNode) next

/-- `hmap_next_with_hash__`, which looks at no more than `fuel` nodes. -/
def nextWithHashFrom (hash : ℕ) : (fuel : ℕ) → Option NodeAddr → Option (Option NodeAddr)
  | _, none => some none
  | 0, some _ => none
  | fuel + 1, some node =>
    if m.hash node = hash then some (some node)
    else do nextWithHashFrom hash fuel (← m.load (.next node))

/-- `hmap_first_with_hash` -/
def firstWithHash (h : MapAddr) (hash : ℕ) : Option (Option NodeAddr) := do
  m.nextWithHashFrom hash (m.hmap h).n (← m.load (m.bucket h (hash &&& (m.hmap h).mask)))

/-- `hmap_next_with_hash` -/
def nextWithHash (fuel : ℕ) (node : NodeAddr) : Option (Option NodeAddr) := do
  m.nextWithHashFrom (m.hash node) fuel (← m.load (.next node))

/-- `HMAP_FOR_EACH_WITH_HASH` with a body that leaves the loop at a node that passes the test, from
the node `cur` on. -/
def searchFrom (test : NodeAddr → Bool) (bound : ℕ) :
    (fuel : ℕ) → Option NodeAddr → Option (Option NodeAddr)
  | _, none => some none
  | 0, some _ => none
  | fuel + 1, some cur =>
    if test cur then some (some cur)
    else do searchFrom test bound fuel (← m.nextWithHash bound cur)

/-- `HMAP_FOR_EACH_WITH_HASH` -/
def findWithHash (h : MapAddr) (hash : ℕ) (test : NodeAddr → Bool) : Option (Option NodeAddr) := do
  m.searchFrom test (m.hmap h).n (m.hmap h).n (← m.firstWithHash h hash)

/-- `hmap_next__`: the first node of the buckets from `start` on. -/
def nextFrom (h : MapAddr) : (count start : ℕ) → Option (Option NodeAddr)
  | 0, _ => some none
  | count + 1, start => do
    match ← m.load (m.bucket h start) with
    | some node => some (some node)
    | none => nextFrom h count (start + 1)

/-- `hmap_first` -/
def first (h : MapAddr) : Option (Option NodeAddr) := m.nextFrom h ((m.hmap h).mask + 1) 0

/-- `hmap_next` -/
def next (h : MapAddr) (node : NodeAddr) : Option (Option NodeAddr) := do
  match ← m.load (.next node) with
  | some p => some (some p)
  | none =>
    let start := (m.hash node &&& (m.hmap h).mask) + 1
    m.nextFrom h ((m.hmap h).mask + 1 - start) start

/-- `HMAP_FOR_EACH_SAFE` with `hmap_remove` of the nodes that pass the test, from the node `cur` on:
the next node is looked up before this one may go. -/
def removeFrom (h : MapAddr) (test : NodeAddr → Bool) :
    (fuel : ℕ) → Option NodeAddr → HmapHeap → Option HmapHeap
  | _, none, m => some m
  | 0, some _, _ => none
  | fuel + 1, some cur, m => do
    let next ← m.next h cur
    let m ← if test cur then m.remove h cur else some m
    removeFrom h test fuel next m

/-- `HMAP_FOR_EACH_SAFE` with `hmap_remove`, over the whole map. -/
def removeIf (h : MapAddr) (test : NodeAddr → Bool) : Option HmapHeap := do
  m.removeFrom h test (m.hmap h).n (← m.first h)

/-! ## What memory holds -/

/-- From the pointer `p` on, these nodes, with the hashes in them. -/
def Chain : List (ℕ × NodeAddr) → Option NodeAddr → Prop
  | [], p => p = none
  | x :: xs, p => p = some x.2 ∧ m.hash x.2 = x.1 ∧ Chain xs (m.cell (.next x.2))

/-- There is a map at `h`.  A map of one bucket has it in itself, a larger one in an array. -/
structure Holds (h : MapAddr) (H : Hmap NodeAddr) : Prop where
  mask : (m.hmap h).mask = H.mask
  n : (m.hmap h).n = H.n
  small : H.mask = 0 → (m.hmap h).buckets = .one h
  large : H.mask ≠ 0 → ∃ a, (m.hmap h).buckets = .array a ∧ m.size a = some (H.mask + 1)
  chains : ∀ i ≤ H.mask, m.Chain (H.buckets.getD i []) (m.cell (m.bucket h i))
  nodup : H.values.Nodup
  counted : H.n = H.nodes.length

/-- Other maps than these, other nodes and other buckets are as they were. -/
structure Untouched (maps : MapAddr → Prop) (nodes : NodeAddr → Prop) (bs : Buckets → Prop)
    (m m' : HmapHeap) : Prop where
  hmap : ∀ h, ¬ maps h → m'.hmap h = m.hmap h
  hash : ∀ x, ¬ nodes x → m'.hash x = m.hash x
  next : ∀ x, ¬ nodes x → m'.cell (.next x) = m.cell (.next x)
  bucket : ∀ b i, ¬ bs b → m'.cell (.bucket b i) = m.cell (.bucket b i)
  size : ∀ a, ¬ bs (.array a) → m'.size a = m.size a

variable {m} {m' m'' : HmapHeap} {h k : MapAddr} {H K : Hmap NodeAddr} {node x : NodeAddr}
  {xs ys : List (ℕ × NodeAddr)} {p : Option NodeAddr}
  {maps maps' : MapAddr → Prop} {nodes nodes' : NodeAddr → Prop} {bs bs' : Buckets → Prop}

lemma Chain.congr (hc : m.Chain xs p) (hhash : ∀ x ∈ xs, m'.hash x.2 = m.hash x.2)
    (hnext : ∀ x ∈ xs, m'.cell (.next x.2) = m.cell (.next x.2)) : m'.Chain xs p := by
  induction xs generalizing p with
  | nil => exact hc
  | cons x xs ih =>
    obtain ⟨hp, hx, hrest⟩ := hc
    refine ⟨hp, (hhash x List.mem_cons_self).trans hx, ?_⟩
    rw [hnext x List.mem_cons_self]
    exact ih hrest (fun y hy => hhash y (List.mem_cons_of_mem _ hy))
      fun y hy => hnext y (List.mem_cons_of_mem _ hy)

lemma Untouched.refl : Untouched maps nodes bs m m :=
  ⟨fun _ _ => rfl, fun _ _ => rfl, fun _ _ => rfl, fun _ _ _ => rfl, fun _ _ => rfl⟩

lemma Untouched.trans (h₁ : Untouched maps nodes bs m m') (h₂ : Untouched maps nodes bs m' m'') :
    Untouched maps nodes bs m m'' where
  hmap k hk := (h₂.hmap k hk).trans (h₁.hmap k hk)
  hash x hx := (h₂.hash x hx).trans (h₁.hash x hx)
  next x hx := (h₂.next x hx).trans (h₁.next x hx)
  bucket b i hb := (h₂.bucket b i hb).trans (h₁.bucket b i hb)
  size a ha := (h₂.size a ha).trans (h₁.size a ha)

lemma Untouched.mono (h₁ : Untouched maps nodes bs m m') (hmaps : ∀ k, maps k → maps' k)
    (hnodes : ∀ x, nodes x → nodes' x) (hbs : ∀ b, bs b → bs' b) :
    Untouched maps' nodes' bs' m m' where
  hmap k hk := h₁.hmap k (mt (hmaps k) hk)
  hash x hx := h₁.hash x (mt (hnodes x) hx)
  next x hx := h₁.next x (mt (hnodes x) hx)
  bucket b i hb := h₁.bucket b i (mt (hbs b) hb)
  size a ha := h₁.size a (mt (hbs _) ha)

lemma Untouched.chain (h₁ : Untouched maps nodes bs m m') (hc : m.Chain xs p)
    (hnodes : ∀ x ∈ xs, ¬ nodes x.2) : m'.Chain xs p :=
  hc.congr (fun x hx => h₁.hash _ (hnodes x hx)) fun x hx => h₁.next _ (hnodes x hx)

/-! ## A map that is held -/

lemma Holds.valid (hH : m.Holds h H) {i : ℕ} (hi : i ≤ H.mask) : m.Valid (m.bucket h i) := by
  rcases Decidable.em (H.mask = 0) with h0 | h0
  · rw [bucket, hH.small h0]
    exact Nat.le_zero.1 (h0 ▸ hi)
  · obtain ⟨a, hbuckets, hsize⟩ := hH.large h0
    rw [bucket, hbuckets]
    exact ⟨_, hsize, Nat.lt_succ_of_le hi⟩

/-- The nodes of a bucket are nodes of the map. -/
lemma mem_values_of_bucket {i : ℕ} {x : ℕ × NodeAddr} (hx : x ∈ H.buckets.getD i []) :
    x.2 ∈ H.values := by
  have hmem : x ∈ H.nodes := by
    rw [Hmap.mem_nodes_iff, H.placed i x hx]
    exact hx
  exact List.mem_map_of_mem hmem

/-- A map keeps to itself what the change does not touch. -/
lemma Holds.untouched (hH : m.Holds h H) (hu : Untouched maps nodes bs m m') (hmap : ¬ maps h)
    (hnodes : ∀ x ∈ H.values, ¬ nodes x) (hbs : ¬ bs (m.hmap h).buckets) : m'.Holds h H := by
  have hobj := hu.hmap h hmap
  refine ⟨by rw [hobj, hH.mask], by rw [hobj, hH.n], fun h0 => by rw [hobj, hH.small h0],
    fun h0 => ?_, fun i hi => ?_, hH.nodup, hH.counted⟩
  · obtain ⟨a, hbuckets, hsize⟩ := hH.large h0
    exact ⟨a, by rw [hobj, hbuckets], by rw [hu.size a (hbuckets ▸ hbs), hsize]⟩
  · rw [bucket, hobj, hu.bucket _ i hbs]
    exact hu.chain (hH.chains i hi) fun x hx => hnodes x.2 (mem_values_of_bucket hx)

/-! ## Inserting -/

lemma valid_congr (hsize : m'.size = m.size) (s : Slot) : m'.Valid s ↔ m.Valid s := by
  rcases s with ⟨_ | a, i⟩ | _
  · exact Iff.rfl
  · simp only [Valid, hsize]
  · exact Iff.rfl

lemma load_eq {s : Slot} (hv : m.Valid s) : m.load s = some (m.cell s) := if_pos hv

lemma store_eq {s : Slot} (hv : m.Valid s) (p : Option NodeAddr) :
    m.store s p = some (m.setCell s p) := if_pos hv

/-- What `hmap_insert_fast` writes. -/
def linked (h : MapAddr) (node : NodeAddr) (hash : ℕ) (m : HmapHeap) : HmapHeap :=
  let b := m.bucket h (hash &&& (m.hmap h).mask)
  (((m.setHash node hash).setCell (.next node) (m.cell b)).setCell b (some node)).setMap h
    { m.hmap h with n := (m.hmap h).n + 1 }

lemma insertFast_eq {hash : ℕ} (hv : m.Valid (m.bucket h (hash &&& (m.hmap h).mask))) :
    m.insertFast h node hash = some (linked h node hash m) := by
  simp only [insertFast, linked]
  generalize m.bucket h (hash &&& (m.hmap h).mask) = b at hv
  have hv₁ : (m.setHash node hash).Valid b := (valid_congr rfl _).2 hv
  have hv₂ : ((m.setHash node hash).setCell (.next node) (m.cell b)).Valid b :=
    (valid_congr rfl _).2 hv
  rw [load_eq hv₁, Option.bind_eq_bind, Option.bind_some, store_eq (by trivial),
    Option.bind_eq_bind, Option.bind_some, setHash_cell, store_eq hv₂]
  rfl

lemma getD_insertFast (H : Hmap NodeAddr) (hash i : ℕ) (x : NodeAddr) :
    (H.insertFast hash x).buckets.getD i [] =
      if i = hash &&& H.mask then (hash, x) :: H.buckets.getD i [] else H.buckets.getD i [] := by
  have hlt : hash &&& H.mask < H.buckets.length := by
    rw [H.length_eq]
    exact Nat.lt_succ_of_le Nat.and_le_right
  rw [Hmap.insertFast, List.getD_eq_getElem?_getD, List.getElem?_modify]
  split_ifs with h₁ h₂ h₂
  · rw [h₂, List.getElem?_eq_getElem hlt, List.getD_eq_getElem _ _ hlt]
    rfl
  · exact absurd h₁.symm h₂
  · exact absurd h₂.symm h₁
  · rw [List.getD_eq_getElem?_getD, Option.map_eq_map]
    simp

/-- Some nodes were put into the map at `h`, in the buckets that it has. -/
structure Filed (h : MapAddr) (H : Hmap NodeAddr) (nodes : NodeAddr → Prop) (m m' : HmapHeap) :
    Prop where
  holds : m'.Holds h H
  untouched : Untouched (· = h) nodes (· = (m.hmap h).buckets) m m'
  buckets : (m'.hmap h).buckets = (m.hmap h).buckets
  size : m'.size = m.size
  fresh : m'.fresh = m.fresh

lemma Filed.refl (hH : m.Holds h H) : Filed h H nodes m m := ⟨hH, .refl, rfl, rfl, rfl⟩

lemma Filed.trans (h₁ : Filed h H nodes m m') (h₂ : Filed h K nodes m' m'') :
    Filed h K nodes m m'' where
  holds := h₂.holds
  untouched := h₁.untouched.trans
    (h₂.untouched.mono (fun _ => id) (fun _ => id) fun _ hb => hb.trans h₁.buckets)
  buckets := h₂.buckets.trans h₁.buckets
  size := h₂.size.trans h₁.size
  fresh := h₂.fresh.trans h₁.fresh

lemma Filed.mono (h₁ : Filed h H nodes m m') (hnodes : ∀ x, nodes x → nodes' x) :
    Filed h H nodes' m m' :=
  ⟨h₁.holds, h₁.untouched.mono (fun _ => id) hnodes fun _ => id, h₁.buckets, h₁.size, h₁.fresh⟩

/-- **`hmap_insert_fast`** of a node that is not in the map. -/
lemma Holds.insertFast (hH : m.Holds h H) (hnew : node ∉ H.values) (hash : ℕ) :
    ∃ m', m.insertFast h node hash = some m' ∧
      Filed h (H.insertFast hash node) (· = node) m m' := by
  have hle : hash &&& (m.hmap h).mask ≤ H.mask := by
    rw [hH.mask]
    exact Nat.and_le_right
  have hmask : (H.insertFast hash node).mask = H.mask := rfl
  have hperm := Hmap.nodes_insertFast H hash node
  refine ⟨_, insertFast_eq (hH.valid hle), ?_, ?_, by simp [linked], rfl, rfl⟩
  · refine ⟨?_, ?_, fun h0 => ?_, fun h0 => ?_, fun i hi => ?_, ?_, ?_⟩
    · simpa [linked, hmask] using hH.mask
    · simpa [linked, Hmap.insertFast] using hH.n
    · simpa [linked] using hH.small h0
    · simpa [linked, hmask] using hH.large h0
    · have hold : ∀ x ∈ H.buckets.getD i [], x.2 ≠ node := fun x hx heq =>
        hnew (heq ▸ mem_values_of_bucket hx)
      have hchain : (linked h node hash m).Chain _ _ := (hH.chains i hi).congr
        (fun x hx => by simp [linked, hold x hx]) (fun x hx => by simp [linked, bucket, hold x hx])
      rw [getD_insertFast, ← hH.mask]
      split_ifs with h₁
      · rw [h₁] at hchain ⊢
        refine ⟨by simp [linked, bucket], by simp [linked], ?_⟩
        simpa [linked, bucket] using hchain
      · simpa [linked, bucket, h₁] using hchain
    · rw [Hmap.values, (hperm.map Prod.snd).nodup_iff]
      exact List.nodup_cons.2 ⟨hnew, hH.nodup⟩
    · rw [hperm.length_eq, List.length_cons, ← hH.counted]
      rfl
  · refine ⟨fun k hk => by simp [linked, hk], fun x hx => by simp [linked, hx],
      fun x hx => by simp [linked, bucket, hx], fun b i hb => ?_, fun a _ => rfl⟩
    simp [linked, bucket, hb]

/-! ## Growing -/

/-- The nodes of a list, put into a map. -/
def inserted (T : Hmap NodeAddr) (xs : List (ℕ × NodeAddr)) : Hmap NodeAddr :=
  xs.foldl (fun tmp x => tmp.insertFast x.1 x.2) T

lemma inserted_append (T : Hmap NodeAddr) (xs ys : List (ℕ × NodeAddr)) :
    inserted T (xs ++ ys) = inserted (inserted T xs) ys := List.foldl_append

lemma mem_values_insertFast {hash : ℕ} :
    x ∈ (H.insertFast hash node).values ↔ x = node ∨ x ∈ H.values := by
  rw [Hmap.values, ((Hmap.nodes_insertFast H hash node).map Prod.snd).mem_iff, List.map_cons,
    List.mem_cons]
  rfl

lemma mem_values_inserted {xs : List (ℕ × NodeAddr)} {T : Hmap NodeAddr} :
    x ∈ (inserted T xs).values ↔ x ∈ xs.map Prod.snd ∨ x ∈ T.values := by
  induction xs generalizing T with
  | nil => simp [inserted]
  | cons y ys ih =>
    change x ∈ (inserted (T.insertFast y.1 y.2) ys).values ↔ _
    rw [ih, mem_values_insertFast, List.map_cons, List.mem_cons, ← or_assoc, or_comm (a := x ∈ _)]

lemma mask_inserted (T : Hmap NodeAddr) (xs : List (ℕ × NodeAddr)) :
    (inserted T xs).mask = T.mask := by
  induction xs generalizing T with
  | nil => rfl
  | cons x xs ih => exact ih _

/-- A chain goes to another map, node by node. -/
lemma Holds.moveChain {T : Hmap NodeAddr} {t : MapAddr} {fuel : ℕ} (hT : m.Holds t T)
    (hc : m.Chain xs p) (hnodup : (xs.map Prod.snd).Nodup) (hnew : ∀ x ∈ xs, x.2 ∉ T.values)
    (hfuel : xs.length ≤ fuel) :
    ∃ m', moveChain t fuel p m = some m' ∧
      Filed t (inserted T xs) (· ∈ xs.map Prod.snd) m m' := by
  induction xs generalizing m p T fuel with
  | nil =>
    cases (hc : p = none)
    exact ⟨m, by cases fuel <;> rfl, .refl hT⟩
  | cons x xs ih =>
    obtain ⟨fuel, rfl⟩ : ∃ k, fuel = k + 1 := ⟨fuel - 1, by simp at hfuel; omega⟩
    obtain ⟨rfl, hhash, hrest⟩ := hc
    rw [List.map_cons, List.nodup_cons] at hnodup
    have hx : ∀ y ∈ xs, y.2 ≠ x.2 := fun y hy heq =>
      hnodup.1 (heq ▸ List.mem_map_of_mem hy)
    obtain ⟨m₁, hm₁, hfiled⟩ := hT.insertFast (hnew x List.mem_cons_self) (m.hash x.2)
    rw [hhash] at hfiled
    -- the rest of the chain hangs on the pointer that was read before
    have hrest₁ := hfiled.untouched.chain hrest hx
    obtain ⟨m₂, hm₂, hfiled₂⟩ := ih hfiled.holds hrest₁ hnodup.2 (fun y hy => by
      rw [mem_values_insertFast, not_or]
      exact ⟨hx y hy, hnew y (List.mem_cons_of_mem _ hy)⟩) (Nat.le_of_succ_le_succ hfuel)
    refine ⟨m₂, ?_, (hfiled.mono fun y hy => ?_).trans (hfiled₂.mono fun y hy => ?_)⟩
    · rw [HmapHeap.moveChain, load_eq (by trivial), Option.bind_eq_bind, Option.bind_some, hm₁,
        Option.bind_eq_bind, Option.bind_some, hm₂]
    · rw [hy]
      exact List.mem_cons_self
    · exact List.mem_cons_of_mem _ hy

/-- The buckets from `j` on go to another map. -/
lemma Holds.moveBuckets {T : Hmap NodeAddr} {t : MapAddr} {j : ℕ} (hT : m.Holds t T)
    (ls : List (List (ℕ × NodeAddr))) (hne : h ≠ t)
    (hb : (m.hmap h).buckets ≠ (m.hmap t).buckets)
    (hvalid : ∀ i < ls.length, m.Valid (m.bucket h (j + i)))
    (hc : ∀ i < ls.length, m.Chain (ls.getD i []) (m.cell (m.bucket h (j + i))))
    (hnodup : (ls.flatten.map Prod.snd).Nodup) (hnew : ∀ x ∈ ls.flatten, x.2 ∉ T.values)
    (hfuel : ∀ l ∈ ls, l.length ≤ (m.hmap h).n) :
    ∃ m', (List.range' j ls.length).foldlM (moveBucket h t) m = some m' ∧
      Filed t (inserted T ls.flatten) (· ∈ ls.flatten.map Prod.snd) m m' := by
  induction ls generalizing m T j with
  | nil => exact ⟨m, rfl, .refl hT⟩
  | cons l ls ih =>
    rw [List.flatten_cons, List.map_append, List.nodup_append] at hnodup
    obtain ⟨hl, hls, hdisjoint⟩ := hnodup
    have hc₀ : m.Chain l (m.cell (m.bucket h j)) := hc 0 (Nat.succ_pos _)
    have hv₀ : m.Valid (m.bucket h j) := hvalid 0 (Nat.succ_pos _)
    have hmem : ∀ i < ls.length, ∀ x ∈ ls.getD i [], x ∈ ls.flatten := by
      intro i hi x hx
      rw [List.getD_eq_getElem _ _ hi] at hx
      exact List.mem_flatten.2 ⟨_, List.getElem_mem hi, hx⟩
    obtain ⟨m₁, hm₁, hfiled⟩ := hT.moveChain hc₀ hl
      (fun x hx => hnew x (List.mem_append_left _ hx)) (hfuel l List.mem_cons_self)
    -- the map that the nodes come from stays as it is
    have hobj := hfiled.untouched.hmap h hne
    have hbucket : ∀ i, m₁.bucket h i = m.bucket h i := fun i => by rw [bucket, hobj, bucket]
    obtain ⟨m₂, hm₂, hfiled₂⟩ := ih (j := j + 1) hfiled.holds
      (by rw [hobj, hfiled.buckets]; exact hb)
      (fun i hi => by
        rw [hbucket, valid_congr hfiled.size, Nat.add_right_comm, Nat.add_assoc]
        exact hvalid (i + 1) (Nat.succ_lt_succ hi))
      (fun i hi => by
        have hc₁ := hc (i + 1) (Nat.succ_lt_succ hi)
        rw [hbucket, show m₁.cell (m.bucket h (j + 1 + i)) = m.cell (m.bucket h (j + 1 + i)) from
          hfiled.untouched.bucket _ _ hb, Nat.add_right_comm, Nat.add_assoc]
        refine hfiled.untouched.chain hc₁ fun x hx hxl => ?_
        exact hdisjoint x.2 hxl x.2 (List.mem_map_of_mem (hmem i hi x hx)) rfl)
      hls
      (fun x hx => by
        rw [mem_values_inserted, not_or]
        exact ⟨fun hxl => hdisjoint x.2 hxl x.2 (List.mem_map_of_mem hx) rfl,
          hnew x (List.mem_append_right _ hx)⟩)
      (fun l' hl' => by rw [hobj]; exact hfuel l' (List.mem_cons_of_mem _ hl'))
    refine ⟨m₂, ?_, ?_⟩
    · have hbody : moveBucket h t m j = some m₁ := by
        rw [moveBucket, load_eq hv₀]
        exact hm₁
      rw [List.length_cons, List.range'_succ, List.foldlM_cons, hbody, Option.bind_eq_bind,
        Option.bind_some, hm₂]
    · rw [List.flatten_cons, inserted_append]
      refine (hfiled.mono fun y hy => ?_).trans (hfiled₂.mono fun y hy => ?_)
      · rw [List.map_append]
        exact List.mem_append_left _ hy
      · rw [List.map_append]
        exact List.mem_append_right _ hy

/-- The loop that clears the buckets of a new array. -/
lemma clear_eq {t : MapAddr} (k : ℕ) (hvalid : ∀ i < k, m.Valid (m.bucket t i)) :
    ∃ m', (List.range k).foldlM (fun m i => m.store (m.bucket t i) none) m = some m' ∧
      m'.hmap = m.hmap ∧ m'.hash = m.hash ∧ m'.size = m.size ∧ m'.fresh = m.fresh ∧
      (∀ s, (∀ i, s ≠ m.bucket t i) → m'.cell s = m.cell s) ∧
      ∀ i < k, m'.cell (m.bucket t i) = none := by
  induction k with
  | zero => exact ⟨m, rfl, rfl, rfl, rfl, rfl, fun _ _ => rfl, by simp⟩
  | succ k ih =>
    obtain ⟨m₁, hm₁, hhmap, hhash, hsize, hfresh, hcell, hnone⟩ :=
      ih fun i hi => hvalid i (Nat.lt_succ_of_lt hi)
    have hbucket : m₁.bucket t k = m.bucket t k := by rw [bucket, hhmap, bucket]
    have hv : m₁.Valid (m₁.bucket t k) := by
      rw [hbucket, valid_congr hsize]
      exact hvalid k (Nat.lt_succ_self k)
    refine ⟨m₁.setCell (m.bucket t k) none, ?_, hhmap, hhash, hsize, hfresh, fun s hs => ?_,
      fun i hi => ?_⟩
    · rw [List.range_succ, List.foldlM_append, hm₁, Option.bind_eq_bind, Option.bind_some,
        List.foldlM_cons, store_eq hv, hbucket]
      rfl
    · rw [setCell_cell, if_neg (hs k), hcell s hs]
    · rw [setCell_cell]
      split_ifs with heq
      · rfl
      · refine hnone i (lt_of_le_of_ne (Nat.le_of_lt_succ hi) fun h => heq ?_)
        rw [h]

/-- The local map of `resize`, with as many empty buckets as it is to have. -/
lemma initTmp_holds (m : HmapHeap) {newMask : ℕ} (hpos : newMask ≠ 0) :
    ∃ m', m.initTmp newMask = some m' ∧ m'.Holds none (Hmap.empty newMask) ∧
      (m'.hmap none).buckets = .array m.fresh ∧
      Untouched (· = none) (fun _ => False) (fun b => b = .one none ∨ b = .array m.fresh) m m' ∧
      m'.size = Function.update m.size m.fresh (some (newMask + 1)) ∧
      m'.fresh = m.fresh + 1 := by
  set m₀ := ((m.init none).xmalloc (newMask + 1)).2.setMap none
    ⟨.array m.fresh, newMask, 0⟩ with hm₀
  have hbucket : ∀ i, m₀.bucket none i = .bucket (.array m.fresh) i := fun i => rfl
  have hsize : m₀.size = Function.update m.size m.fresh (some (newMask + 1)) := rfl
  obtain ⟨m₁, hm₁, hhmap, hhash, hsize₁, hfresh, hcell, hnone⟩ := clear_eq (m := m₀) (t := none)
    (newMask + 1) fun i hi => by
      rw [hbucket]
      exact ⟨newMask + 1, by rw [hsize, Function.update_self]; rfl, hi⟩
  have hobj : m₁.hmap none = ⟨.array m.fresh, newMask, 0⟩ := by
    rw [hhmap, hm₀]
    simp
  refine ⟨m₁, ?_, ?_, by rw [hobj], ?_, by rw [hsize₁, hsize], hfresh⟩
  · rw [initTmp, if_neg hpos]
    exact hm₁
  · refine ⟨by rw [hobj]; rfl, by rw [hobj]; rfl, fun h0 => absurd h0 hpos,
      fun _ => ⟨m.fresh, by rw [hobj], ?_⟩, fun i hi => ?_, ?_, ?_⟩
    · rw [hsize₁, hsize, Function.update_self]
      rfl
    · have hempty : (Hmap.empty newMask : Hmap NodeAddr).buckets.getD i [] = [] := by
        rw [List.getD_eq_getElem?_getD, Hmap.empty, List.getElem?_replicate]
        split_ifs <;> rfl
      rw [hempty, bucket, hobj]
      exact hnone i (Nat.lt_succ_of_le hi)
    · rw [Hmap.values, Hmap.nodes_empty]
      exact List.nodup_nil
    · rw [Hmap.nodes_empty]
      rfl
  · refine ⟨fun k hk => ?_, fun x _ => ?_, fun x _ => ?_, fun b i hb => ?_, fun a ha => ?_⟩
    · rw [hhmap, hm₀]
      simp [xmalloc, init, hk]
    · rw [hhash]
      rfl
    · rw [hcell _ fun i => by rw [hbucket]; simp, hm₀]
      simp [xmalloc, init]
    · rw [not_or] at hb
      rw [hcell _ fun i => by rw [hbucket]; simp [hb.2], hm₀]
      simp [xmalloc, init, hb.1]
    · have hne : a ≠ m.fresh := fun heq => ha (.inr (by rw [heq]))
      rw [hsize₁, hsize, Function.update_of_ne hne]

/-! ## Swapping -/

/-- What `hmap_moved` makes of a map that comes to `h`. -/
def settled (h : MapAddr) (obj : HmapObj) : HmapObj :=
  if obj.mask = 0 then { obj with buckets := .one h } else obj

lemma moved_cell (m : HmapHeap) (h : MapAddr) : (m.moved h).cell = m.cell := by
  rw [moved]
  split_ifs <;> rfl

lemma moved_hmap (m : HmapHeap) (h k : MapAddr) :
    (m.moved h).hmap k = if k = h then settled h (m.hmap h) else m.hmap k := by
  rw [moved, settled]
  split_ifs with h0 hk hk
  · simp [hk]
  · simp [hk]
  · rw [hk]
  · rfl

lemma swap_cell (m : HmapHeap) (a b : MapAddr) (s : Slot) :
    (m.swap a b).cell s = if s = .bucket (.one b) 0 then m.cell (.bucket (.one a) 0)
      else if s = .bucket (.one a) 0 then m.cell (.bucket (.one b) 0) else m.cell s := by
  simp only [swap, moved_cell, setCell_cell, setMap_cell]

lemma swap_hmap (m : HmapHeap) {a b : MapAddr} (hne : a ≠ b) (k : MapAddr) :
    (m.swap a b).hmap k = if k = b then settled b (m.hmap a)
      else if k = a then settled a (m.hmap b) else m.hmap k := by
  simp only [swap, moved_hmap, setCell_hmap, setMap_hmap, if_neg hne, if_neg hne.symm, if_pos]
  split_ifs <;> rfl

lemma swap_rest (m : HmapHeap) (a b : MapAddr) :
    (m.swap a b).hash = m.hash ∧ (m.swap a b).size = m.size ∧ (m.swap a b).fresh = m.fresh := by
  simp only [swap, moved]
  split_ifs <;> exact ⟨rfl, rfl, rfl⟩

/-- A map that was at `b` is at `a`. -/
lemma Holds.relocate {a b : MapAddr} (hB : m.Holds b K)
    (hobj : m'.hmap a = settled a (m.hmap b))
    (hone : m'.cell (.bucket (.one a) 0) = m.cell (.bucket (.one b) 0))
    (harray : ∀ j i, m'.cell (.bucket (.array j) i) = m.cell (.bucket (.array j) i))
    (hnext : ∀ x, m'.cell (.next x) = m.cell (.next x)) (hhash : m'.hash = m.hash)
    (hsize : m'.size = m.size) : m'.Holds a K := by
  have hmask : (settled a (m.hmap b)).mask = (m.hmap b).mask := by
    rw [settled]
    split_ifs <;> rfl
  have hn : (settled a (m.hmap b)).n = (m.hmap b).n := by
    rw [settled]
    split_ifs <;> rfl
  have hchain : ∀ i ≤ K.mask, m'.Chain (K.buckets.getD i []) (m.cell (m.bucket b i)) :=
    fun i hi => (hB.chains i hi).congr (fun _ _ => by rw [hhash]) fun _ _ => hnext _
  refine ⟨by rw [hobj, hmask, hB.mask], by rw [hobj, hn, hB.n], fun h0 => ?_, fun h0 => ?_,
    fun i hi => ?_, hB.nodup, hB.counted⟩
  · rw [hobj, settled, if_pos (hB.mask.trans h0)]
  · obtain ⟨j, hbuckets, hj⟩ := hB.large h0
    rw [hobj, settled, if_neg (by rw [hB.mask]; exact h0), hsize]
    exact ⟨j, hbuckets, hj⟩
  · have hi' := hchain i hi
    rcases Decidable.em (K.mask = 0) with h0 | h0
    · rw [h0, Nat.le_zero] at hi
      subst hi
      rw [bucket, hB.small h0] at hi'
      rw [bucket, hobj, settled, if_pos (hB.mask.trans h0), hone]
      exact hi'
    · obtain ⟨j, hbuckets, -⟩ := hB.large h0
      rw [bucket, hbuckets] at hi'
      rw [bucket, hobj, settled, if_neg (by rw [hB.mask]; exact h0), hbuckets, harray]
      exact hi'

/-- **`hmap_swap`**: what is at `b` comes to `a`. -/
lemma Holds.swap {a b : MapAddr} (hB : m.Holds b K) (hne : a ≠ b) : (m.swap a b).Holds a K := by
  obtain ⟨hhash, hsize, -⟩ := swap_rest m a b
  refine hB.relocate ?_ ?_ (fun j i => by simp [swap_cell]) (fun x => by simp [swap_cell]) hhash
    hsize
  · rw [swap_hmap m hne, if_neg hne, if_pos rfl]
  · simp [swap_cell, hne]

/-- And what is at `a` to `b`. -/
lemma Holds.swap_right {a b : MapAddr} (hA : m.Holds a H) (hne : a ≠ b) :
    (m.swap a b).Holds b H := by
  obtain ⟨hhash, hsize, -⟩ := swap_rest m a b
  refine hA.relocate ?_ ?_ (fun j i => by simp [swap_cell]) (fun x => by simp [swap_cell]) hhash
    hsize
  · rw [swap_hmap m hne, if_pos rfl]
  · simp [swap_cell]

lemma swap_untouched (m : HmapHeap) {a b : MapAddr} (hne : a ≠ b) :
    Untouched (fun k => k = a ∨ k = b) (fun _ => False) (fun s => s = .one a ∨ s = .one b)
      m (m.swap a b) := by
  obtain ⟨hhash, hsize, -⟩ := swap_rest m a b
  refine ⟨fun k hk => ?_, fun x _ => by rw [hhash], fun x _ => by simp [swap_cell],
    fun s i hs => ?_, fun j _ => by rw [hsize]⟩
  · rw [not_or] at hk
    rw [swap_hmap m hne, if_neg hk.2, if_neg hk.1]
  · rw [not_or] at hs
    simp [swap_cell, hs.1, hs.2]

/-- `buckets` is what `hmap_destroy` can deal with. -/
def Disposable (m : HmapHeap) (h : MapAddr) : Prop :=
  (m.hmap h).buckets = .one h ∨ ∃ a, (m.hmap h).buckets = .array a ∧ (m.size a).isSome

lemma Holds.disposable (hH : m.Holds h H) : m.Disposable h := by
  rcases Decidable.em (H.mask = 0) with h0 | h0
  · exact .inl (hH.small h0)
  · obtain ⟨a, hbuckets, ha⟩ := hH.large h0
    exact .inr ⟨a, hbuckets, by rw [ha]; rfl⟩

/-- **`hmap_destroy`**: the array, if there is one, is freed. -/
lemma Disposable.destroy (hd : m.Disposable h) :
    ∃ m', m.destroy h = some m' ∧ m'.hmap = m.hmap ∧ m'.fresh = m.fresh ∧
      Untouched (fun _ => False) (fun _ => False) (· = (m.hmap h).buckets) m m' ∧
      ∀ a, m'.size a = if (m.hmap h).buckets = .array a then none else m.size a := by
  rcases hd with hone | ⟨j, hbuckets, hj⟩
  · refine ⟨m, ?_, rfl, rfl, .refl, fun a => ?_⟩
    · simp only [HmapHeap.destroy, hone, if_pos]
    · rw [hone, if_neg Buckets.noConfusion]
  · have hsize : ∀ a, Function.update m.size j none a =
        if (m.hmap h).buckets = .array a then none else m.size a := by
      intro a
      rw [hbuckets]
      by_cases hja : j = a
      · rw [if_pos (by rw [hja]), hja]
        exact Function.update_self _ _ _
      · rw [if_neg fun heq => hja (Buckets.array.inj heq)]
        exact Function.update_of_ne (Ne.symm hja) _ _
    refine ⟨{ m with size := Function.update m.size j none }, ?_, rfl, rfl,
      ⟨fun _ _ => rfl, fun _ _ => rfl, fun _ _ => rfl, fun _ _ _ => rfl, fun a ha => ?_⟩, hsize⟩
    · simp only [HmapHeap.destroy, hbuckets, free, hj, if_pos]
    · exact (hsize a).trans (if_neg fun heq => ha heq.symm)

/-- The map with more buckets. -/
lemma Holds.resize {newMask : ℕ} (hH : m.Holds h H) (hh : h ≠ none) (hpos : newMask ≠ 0)
    (hpow : isPow2 (newMask + 1)) (hfresh : m.size m.fresh = none) :
    ∃ m', m.resize h newMask = some m' ∧ m'.Holds h (H.resize newMask) ∧
      Untouched (fun k => k = h ∨ k = none) (· ∈ H.values)
        (fun b => b = (m.hmap h).buckets ∨ b = .one h ∨ b = .one none ∨ b = .array m.fresh) m m' ∧
      (m'.hmap h).buckets = .array m.fresh ∧
      (∀ a, m'.size a = if (m.hmap h).buckets = .array a then none
        else if a = m.fresh then some (newMask + 1) else m.size a) ∧
      m'.fresh = m.fresh + 1 := by
  obtain ⟨m₁, hm₁, htmp, htmpBuckets, hu₁, hsize₁, hfresh₁⟩ := initTmp_holds m hpos
  have hbuckets : (m.hmap h).buckets ≠ .one none ∧ (m.hmap h).buckets ≠ .array m.fresh := by
    rcases Decidable.em (H.mask = 0) with h0 | h0
    · rw [hH.small h0]
      simp [hh]
    · obtain ⟨a, ha, hsize⟩ := hH.large h0
      rw [ha]
      refine ⟨Buckets.noConfusion, fun heq => ?_⟩
      rw [Buckets.array.inj heq, hfresh] at hsize
      cases hsize
  have hobj₁ : m₁.hmap h = m.hmap h := hu₁.hmap h hh
  have hH₁ : m₁.Holds h H := hH.untouched hu₁ hh (fun _ _ => not_false)
    (not_or.2 ⟨hbuckets.1, hbuckets.2⟩)
  -- the nodes, bucket by bucket
  obtain ⟨m₂, hm₂, hfiled⟩ := htmp.moveBuckets (j := 0) H.buckets hh
    (by rw [hobj₁, htmpBuckets]; exact hbuckets.2)
    (fun i hi => by
      rw [H.length_eq] at hi
      rw [Nat.zero_add]
      exact hH₁.valid (Nat.le_of_lt_succ hi))
    (fun i hi => by
      rw [H.length_eq] at hi
      rw [Nat.zero_add]
      exact hH₁.chains i (Nat.le_of_lt_succ hi))
    hH.nodup
    (fun x _ => by rw [Hmap.values, Hmap.nodes_empty]; exact List.not_mem_nil)
    (fun l hl => by
      rw [hH₁.n, hH.counted, Hmap.nodes]
      exact (List.sublist_flatten_of_mem hl).length_le)
  have hobj₂ : m₂.hmap h = m.hmap h := (hfiled.untouched.hmap h hh).trans hobj₁
  have hsize₂ : m₂.size = Function.update m.size m.fresh (some (newMask + 1)) :=
    hfiled.size.trans hsize₁
  -- the local map has the old buckets now
  have hu₃ := swap_untouched m₂ hh
  obtain ⟨-, hsize₃, hfresh₃⟩ := swap_rest m₂ h none
  have hH₃ : (m₂.swap h none).Holds h (H.resize newMask) := hfiled.holds.swap hh
  have hold : ((m₂.swap h none).hmap none).buckets =
      if H.mask = 0 then .one none else (m.hmap h).buckets := by
    rw [swap_hmap m₂ hh, if_pos rfl, hobj₂, settled, hH.mask]
    split_ifs <;> rfl
  have hnew : ((m₂.swap h none).hmap h).buckets = .array m.fresh := by
    rw [swap_hmap m₂ hh, if_neg hh, if_pos rfl, settled, hfiled.holds.mask, mask_inserted,
      if_neg (show (Hmap.empty newMask : Hmap NodeAddr).mask ≠ 0 from hpos), hfiled.buckets,
      htmpBuckets]
  have hsame : ∀ a, ((m₂.swap h none).hmap none).buckets = .array a ↔
      (m.hmap h).buckets = .array a := by
    intro a
    rw [hold]
    split_ifs with h0
    · simp [hH.small h0]
    · exact Iff.rfl
  have hdisposable : (m₂.swap h none).Disposable none := by
    rcases Decidable.em (H.mask = 0) with h0 | h0
    · exact .inl (by rw [hold, if_pos h0])
    · obtain ⟨a, ha, hsize⟩ := hH.large h0
      have hne : a ≠ m.fresh := fun heq => hbuckets.2 (heq ▸ ha)
      exact .inr ⟨a, (hsame a).2 ha, by rw [hsize₃, hsize₂, Function.update_of_ne hne, hsize]; rfl⟩
  obtain ⟨m₄, hm₄, hhmap₄, hfresh₄, hu₄, hsize₄⟩ := hdisposable.destroy
  refine ⟨m₄, ?_, ?_, ?_, by rw [hhmap₄, hnew], fun a => ?_, ?_⟩
  · have hrange : (List.range ((m₁.hmap h).mask + 1)).foldlM (moveBucket h none) m₁ = some m₂ := by
      rw [hobj₁, hH.mask, ← H.length_eq, List.range_eq_range']
      exact hm₂
    simp only [HmapHeap.resize, guard, hpow, if_true, Option.pure_def, Option.bind_eq_bind,
      Option.bind_some, hm₁, hrange, hm₄]
  · refine hH₃.untouched hu₄ not_false (fun _ _ => not_false) ?_
    rw [hnew, eq_comm, hsame]
    exact hbuckets.2
  · refine (((hu₁.mono (fun k hk => .inr hk) (fun _ => False.elim) fun b hb => ?_).trans
      (hfiled.untouched.mono (fun k hk => .inr hk) (fun x hx => hx) fun b hb => ?_)).trans
      (hu₃.mono (fun k hk => hk) (fun _ => False.elim) fun b hb => ?_)).trans
      (hu₄.mono (fun _ => False.elim) (fun _ => False.elim) fun b hb => ?_)
    · exact hb.elim (fun hb => .inr (.inr (.inl hb))) fun hb => .inr (.inr (.inr hb))
    · exact .inr (.inr (.inr (hb.trans htmpBuckets)))
    · exact hb.elim (fun hb => .inr (.inl hb)) fun hb => .inr (.inr (.inl hb))
    · rw [hold] at hb
      split_ifs at hb
      · exact .inr (.inr (.inl hb))
      · exact .inl hb
  · rw [hsize₄, hsize₃, hsize₂]
    simp only [hsame, Function.update_apply]
  · rw [hfresh₄, hfresh₃, hfiled.fresh, hfresh₁]

end HmapHeap

end Ipcf
