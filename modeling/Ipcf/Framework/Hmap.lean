import Mathlib.Data.List.Perm.Basic
import Mathlib.Data.List.Nodup
import Mathlib.Data.Nat.Bitwise

/-!
# A chained hash map

The hash map of `hmap.c`: a power of two of buckets, each a chain of nodes that keep their hash,
grown when the chains get longer than two on average.  The map does not look at what it stores;
its users walk the nodes with a given hash and compare the rest themselves.

`nodes` is the order in which a loop over the map meets the nodes.  The operations are described by
what they do to it, up to order (`nodes_insert`, `nodes_update`, `nodes_removeIf`), and the search
by membership (`findWithHash_spec`), for which nodes have to be in the bucket of their hash: that
is a field of the structure.

`Keyed` is the discipline under which such a map is a finite function: every node is filed under
the hash of its key, and no key occurs twice.  `lookup_eq_some_iff` is what the search means then,
and `lookup_insert` and its siblings are what the operations do to the function.
-/

namespace Ipcf

/-- `struct hmap`: bucket `i` holds the nodes, each with its hash, whose hash is `i` under the
mask. -/
structure Hmap (α : Type*) where
  buckets : List (List (ℕ × α))
  mask : ℕ
  n : ℕ
  length_eq : buckets.length = mask + 1
  placed : ∀ i, ∀ x ∈ buckets.getD i [], x.1 &&& mask = i

namespace Hmap

variable {α κ : Type*}

/-! ## Changes to the buckets that leave the nodes in their places -/

section

variable (m : Hmap α)

lemma placed_modify {j : ℕ} {f : List (ℕ × α) → List (ℕ × α)}
    (hf : ∀ chain, ∀ y ∈ f chain, y ∈ chain ∨ y.1 &&& m.mask = j) :
    ∀ i, ∀ y ∈ (m.buckets.modify j f).getD i [], y.1 &&& m.mask = i := by
  intro i y hy
  rw [List.getD_eq_getElem?_getD, List.getElem?_modify] at hy
  have hold := m.placed i y
  rw [List.getD_eq_getElem?_getD] at hold
  cases hget : m.buckets[i]? with
  | none => simp [hget] at hy
  | some chain =>
    rw [hget] at hold hy
    by_cases hi : j = i
    · simp only [Option.map_eq_map, Option.map_some, Option.getD_some, if_pos hi] at hold hy
      exact (hf chain y hy).elim hold fun h => h.trans hi
    · simp only [Option.map_eq_map, Option.map_some, if_neg hi] at hy
      exact hold hy

lemma placed_map {f : List (ℕ × α) → List (ℕ × α)}
    (hf : ∀ chain, ∀ y ∈ f chain, ∃ x ∈ chain, x.1 = y.1) :
    ∀ i, ∀ y ∈ (m.buckets.map f).getD i [], y.1 &&& m.mask = i := by
  intro i y hy
  rw [List.getD_eq_getElem?_getD, List.getElem?_map] at hy
  have hold := m.placed i
  rw [List.getD_eq_getElem?_getD] at hold
  cases hget : m.buckets[i]? with
  | none => simp [hget] at hy
  | some chain =>
    simp only [hget, Option.map_some, Option.getD_some] at hold hy
    obtain ⟨x, hx, hxy⟩ := hf chain y hy
    rw [← hxy]
    exact hold x hx

end

/-! ## Operations -/

/-- A map without nodes and with `mask + 1` buckets. -/
def empty (mask : ℕ) : Hmap α where
  buckets := List.replicate (mask + 1) []
  mask := mask
  n := 0
  length_eq := List.length_replicate
  placed := by
    intro i x hx
    rw [List.getD_eq_getElem?_getD, List.getElem?_replicate] at hx
    split_ifs at hx <;> cases hx

/-- `hmap_init` -/
def init : Hmap α := empty 0

/-- `hmap_insert_fast` -/
def insertFast (m : Hmap α) (hash : ℕ) (x : α) : Hmap α where
  buckets := m.buckets.modify (hash &&& m.mask) ((hash, x) :: ·)
  mask := m.mask
  n := m.n + 1
  length_eq := by rw [List.length_modify]; exact m.length_eq
  placed := m.placed_modify fun chain y hy => by
    rcases List.mem_cons.1 hy with rfl | hy
    · exact .inr rfl
    · exact .inl hy

/-- The nodes, in the order of `HMAP_FOR_EACH`. -/
def nodes (m : Hmap α) : List (ℕ × α) := m.buckets.flatten

/-- `resize` -/
def resize (m : Hmap α) (newMask : ℕ) : Hmap α :=
  m.nodes.foldl (fun tmp x => tmp.insertFast x.1 x.2) (empty newMask)

/-- `calc_mask` -/
def calcMask (capacity : ℕ) : ℕ :=
  let mask := capacity / 2
  let mask := mask ||| mask >>> 1
  let mask := mask ||| mask >>> 2
  let mask := mask ||| mask >>> 4
  let mask := mask ||| mask >>> 8
  let mask := mask ||| mask >>> 16
  let mask := mask ||| mask >>> 32
  mask ||| (mask &&& 1) <<< 1

/-- `hmap_expand` -/
def expand (m : Hmap α) : Hmap α :=
  let newMask := calcMask m.n
  if newMask > m.mask then m.resize newMask else m

/-- `hmap_insert` -/
def insert (m : Hmap α) (hash : ℕ) (x : α) : Hmap α :=
  let m := m.insertFast hash x
  if m.n / 2 > m.mask then m.expand else m

/-- The first node that a loop `HMAP_FOR_EACH_WITH_HASH` finds to pass the test. -/
def findWithHash (m : Hmap α) (hash : ℕ) (test : α → Bool) : Option α :=
  ((m.buckets.getD (hash &&& m.mask) []).find? fun x => x.1 == hash && test x.2).map Prod.snd

/-- Writes through pointers to the nodes: the places of the nodes stay as they are. -/
def update (m : Hmap α) (f : α → α) : Hmap α where
  buckets := m.buckets.map (List.map fun x => (x.1, f x.2))
  mask := m.mask
  n := m.n
  length_eq := by rw [List.length_map]; exact m.length_eq
  placed := m.placed_map fun chain y hy => by
    obtain ⟨x, hx, rfl⟩ := List.mem_map.1 hy
    exact ⟨x, hx, rfl⟩

/-- `HMAP_FOR_EACH_SAFE` with `hmap_remove` of the nodes that pass the test. -/
def removeIf (m : Hmap α) (test : α → Bool) : Hmap α where
  buckets := m.buckets.map (List.filter fun x => !test x.2)
  mask := m.mask
  n := m.n - (m.nodes.filter fun x => test x.2).length
  length_eq := by rw [List.length_map]; exact m.length_eq
  placed := m.placed_map fun chain y hy => ⟨y, List.mem_of_mem_filter hy, rfl⟩

/-- What the nodes store, in the same order. -/
def values (m : Hmap α) : List α := m.nodes.map Prod.snd

/-! ## What they do to the nodes -/

lemma nodes_empty (mask : ℕ) : (empty mask : Hmap α).nodes = [] := by
  rw [nodes, empty, List.flatten_eq_nil_iff]
  exact fun l hl => List.eq_of_mem_replicate hl

lemma flatten_modify_cons {β : Type*} (ls : List (List β)) {i : ℕ} (hi : i < ls.length) (y : β) :
    (ls.modify i (y :: ·)).flatten.Perm (y :: ls.flatten) := by
  induction ls generalizing i with
  | nil => cases hi
  | cons l ls ih =>
    cases i with
    | zero => exact List.Perm.refl _
    | succ i =>
      have hrest := ih (Nat.lt_of_succ_lt_succ hi)
      rw [List.modify_succ_cons, List.flatten_cons, List.flatten_cons]
      exact (hrest.append_left l).trans List.perm_middle

lemma nodes_insertFast (m : Hmap α) (hash : ℕ) (x : α) :
    (m.insertFast hash x).nodes.Perm ((hash, x) :: m.nodes) := by
  apply flatten_modify_cons
  rw [m.length_eq]
  exact Nat.lt_succ_of_le Nat.and_le_right

lemma nodes_resize (m : Hmap α) (newMask : ℕ) : (m.resize newMask).nodes.Perm m.nodes := by
  have hfold : ∀ (xs : List (ℕ × α)) (t : Hmap α),
      (xs.foldl (fun tmp x => tmp.insertFast x.1 x.2) t).nodes.Perm (xs ++ t.nodes) := by
    intro xs
    induction xs with
    | nil => exact fun t => List.Perm.refl _
    | cons x xs ih =>
      intro t
      refine (ih _).trans (((nodes_insertFast t x.1 x.2).append_left xs).trans ?_)
      exact List.perm_middle
  have h := hfold m.nodes (empty newMask)
  rw [nodes_empty, List.append_nil] at h
  exact h

/-- **Inserting**, whether or not the map grows. -/
lemma nodes_insert (m : Hmap α) (hash : ℕ) (x : α) :
    (m.insert hash x).nodes.Perm ((hash, x) :: m.nodes) := by
  have hfast := nodes_insertFast m hash x
  rw [insert]
  simp only [expand]
  split_ifs
  · exact (nodes_resize _ _).trans hfast
  · exact hfast
  · exact hfast

lemma nodes_update (m : Hmap α) (f : α → α) :
    (m.update f).nodes = m.nodes.map fun x => (x.1, f x.2) := by
  rw [nodes, update, nodes, List.map_flatten]

lemma nodes_removeIf (m : Hmap α) (test : α → Bool) :
    (m.removeIf test).nodes = m.nodes.filter fun x => !test x.2 := by
  change (m.buckets.map (List.filter fun x => !test x.2)).flatten = _
  rw [nodes, List.filter_flatten]

@[simp] lemma values_init : (init : Hmap α).values = [] := by
  rw [values, init, nodes_empty]
  rfl

lemma values_insert (m : Hmap α) (hash : ℕ) (x : α) :
    (m.insert hash x).values.Perm (x :: m.values) := (nodes_insert m hash x).map Prod.snd

lemma mem_values_insert {m : Hmap α} {hash : ℕ} {x y : α} :
    y ∈ (m.insert hash x).values ↔ y = x ∨ y ∈ m.values := by
  rw [(values_insert m hash x).mem_iff, List.mem_cons]

lemma values_update (m : Hmap α) (f : α → α) : (m.update f).values = m.values.map f := by
  rw [values, nodes_update, values, List.map_map, List.map_map]
  rfl

lemma values_removeIf (m : Hmap α) (test : α → Bool) :
    (m.removeIf test).values = m.values.filter fun x => !test x := by
  rw [values, nodes_removeIf, values, List.filter_map]
  rfl

/-! ## The search -/

lemma mem_nodes_iff {m : Hmap α} {x : ℕ × α} :
    x ∈ m.nodes ↔ x ∈ m.buckets.getD (x.1 &&& m.mask) [] := by
  rw [nodes, List.mem_flatten]
  constructor
  · rintro ⟨chain, hchain, hx⟩
    obtain ⟨i, hi, rfl⟩ := List.getElem_of_mem hchain
    have hget : m.buckets.getD i [] = m.buckets[i] := by
      rw [List.getD_eq_getElem?_getD, List.getElem?_eq_getElem hi]
      rfl
    rw [← hget] at hx
    rw [m.placed i x hx]
    exact hx
  · intro hx
    have hi : x.1 &&& m.mask < m.buckets.length := by
      rw [m.length_eq]
      exact Nat.lt_succ_of_le Nat.and_le_right
    rw [List.getD_eq_getElem?_getD, List.getElem?_eq_getElem hi] at hx
    exact ⟨_, List.getElem_mem hi, hx⟩

/-- **Searching.** The search fails exactly when no node with the hash passes the test. -/
lemma findWithHash_spec (m : Hmap α) (hash : ℕ) (test : α → Bool) :
    match m.findWithHash hash test with
    | some x => (hash, x) ∈ m.nodes ∧ test x = true
    | none => ∀ x, (hash, x) ∈ m.nodes → test x = false := by
  rw [findWithHash]
  cases hfind : (m.buckets.getD (hash &&& m.mask) []).find? fun x => x.1 == hash && test x.2 with
  | some x =>
    have htest := List.find?_some hfind
    rw [Bool.and_eq_true, beq_iff_eq] at htest
    have hmem := List.mem_of_find?_eq_some hfind
    rw [← htest.1, ← mem_nodes_iff] at hmem
    simp only [Option.map_some]
    rw [← htest.1]
    exact ⟨hmem, htest.2⟩
  | none =>
    intro x hx
    rw [mem_nodes_iff] at hx
    have hno := List.find?_eq_none.1 hfind (hash, x) hx
    simpa using hno

/-! ## Maps with keys -/

/-- Every node is filed under the hash of its key, and no key occurs twice. -/
structure Keyed (key : α → κ) (hash : κ → ℕ) (m : Hmap α) : Prop where
  filed : ∀ x ∈ m.nodes, x.1 = hash (key x.2)
  nodup : (m.values.map key).Nodup

section

variable {key : α → κ} {hash : κ → ℕ} {m : Hmap α}

lemma keyed_init : Keyed key hash (init : Hmap α) where
  filed := by
    rw [init, nodes_empty]
    simp
  nodup := by simp

/-- A key stands for one node. -/
lemma Keyed.eq_of_key (h : Keyed key hash m) {x y : α} (hx : x ∈ m.values) (hy : y ∈ m.values)
    (hkey : key x = key y) : x = y := List.inj_on_of_nodup_map h.nodup hx hy hkey

/-- **Lookup by key.** -/
lemma Keyed.lookup_eq_some_iff [DecidableEq κ] (h : Keyed key hash m) {k : κ} {x : α} :
    m.findWithHash (hash k) (fun y => key y == k) = some x ↔ x ∈ m.values ∧ key x = k := by
  have hspec := findWithHash_spec m (hash k) fun y => key y == k
  have hmem : ∀ y, y ∈ m.values → key y = k → (hash k, y) ∈ m.nodes := by
    intro y hy hkey
    obtain ⟨node, hnode, rfl⟩ := List.mem_map.1 hy
    rw [← hkey, ← h.filed node hnode]
    exact hnode
  constructor
  · intro hfind
    rw [hfind] at hspec
    exact ⟨List.mem_map.2 ⟨_, hspec.1, rfl⟩, by simpa using hspec.2⟩
  · rintro ⟨hx, hkey⟩
    cases hfind : m.findWithHash (hash k) fun y => key y == k with
    | some y =>
      rw [hfind] at hspec
      have hy : y ∈ m.values := List.mem_map.2 ⟨_, hspec.1, rfl⟩
      have hkey' : key y = k := by simpa using hspec.2
      rw [h.eq_of_key hx hy (by rw [hkey, hkey'])]
    | none =>
      rw [hfind] at hspec
      have hno := hspec x (hmem x hx hkey)
      simp [hkey] at hno

lemma Keyed.lookup_eq_none_iff [DecidableEq κ] (h : Keyed key hash m) {k : κ} :
    m.findWithHash (hash k) (fun y => key y == k) = none ↔ ∀ x ∈ m.values, key x ≠ k := by
  rw [Option.eq_none_iff_forall_ne_some]
  constructor
  · exact fun hnone x hx hkey => hnone x (h.lookup_eq_some_iff.2 ⟨hx, hkey⟩)
  · intro hne x hx
    obtain ⟨hmem, hkey⟩ := h.lookup_eq_some_iff.1 hx
    exact hne x hmem hkey

/-- A new key. -/
lemma Keyed.insert (h : Keyed key hash m) {x : α} (hnew : ∀ y ∈ m.values, key y ≠ key x) :
    Keyed key hash (m.insert (hash (key x)) x) where
  filed := by
    intro node hnode
    rw [(nodes_insert _ _ _).mem_iff, List.mem_cons] at hnode
    rcases hnode with rfl | hnode
    · rfl
    · exact h.filed node hnode
  nodup := by
    have hperm := ((nodes_insert m (hash (key x)) x).map Prod.snd).map key
    rw [values, hperm.nodup_iff, List.map_cons, List.map_cons, List.nodup_cons]
    refine ⟨fun hmem => ?_, h.nodup⟩
    obtain ⟨y, hy, hkey⟩ := List.mem_map.1 hmem
    exact hnew y hy hkey

/-- Writes that leave the keys alone. -/
lemma Keyed.update (h : Keyed key hash m) {f : α → α} (hf : ∀ x, key (f x) = key x) :
    Keyed key hash (m.update f) where
  filed := by
    intro node hnode
    rw [nodes_update] at hnode
    obtain ⟨x, hx, rfl⟩ := List.mem_map.1 hnode
    rw [hf]
    exact h.filed x hx
  nodup := by
    rw [values_update, List.map_map, show key ∘ f = key from funext hf]
    exact h.nodup

lemma Keyed.removeIf (h : Keyed key hash m) (test : α → Bool) :
    Keyed key hash (m.removeIf test) where
  filed := by
    intro node hnode
    rw [nodes_removeIf] at hnode
    exact h.filed node (List.mem_of_mem_filter hnode)
  nodup := by
    rw [values_removeIf]
    exact h.nodup.sublist ((List.filter_sublist (p := _) (l := m.values)).map key)

/-! ## The finite function -/

variable [DecidableEq κ]

lemma Keyed.lookup_insert (h : Keyed key hash m) {x : α} (hnew : ∀ y ∈ m.values, key y ≠ key x)
    (k : κ) :
    (m.insert (hash (key x)) x).findWithHash (hash k) (fun y => key y == k) =
      if k = key x then some x else m.findWithHash (hash k) fun y => key y == k := by
  apply Option.ext
  intro y
  rw [(h.insert hnew).lookup_eq_some_iff, mem_values_insert]
  split_ifs with hk
  · rw [Option.some.injEq]
    constructor
    · rintro ⟨rfl | hy, hkey⟩
      · rfl
      · exact absurd (hkey.trans hk) (hnew y hy)
    · rintro rfl
      exact ⟨.inl rfl, hk.symm⟩
  · rw [h.lookup_eq_some_iff]
    constructor
    · rintro ⟨rfl | hy, hkey⟩
      · exact absurd hkey.symm hk
      · exact ⟨hy, hkey⟩
    · exact fun ⟨hy, hkey⟩ => ⟨.inr hy, hkey⟩

lemma Keyed.lookup_update (h : Keyed key hash m) {f : α → α} (hf : ∀ x, key (f x) = key x) (k : κ) :
    (m.update f).findWithHash (hash k) (fun y => key y == k) =
      (m.findWithHash (hash k) fun y => key y == k).map f := by
  apply Option.ext
  intro y
  rw [(h.update hf).lookup_eq_some_iff, values_update, List.mem_map, Option.map_eq_some_iff]
  constructor
  · rintro ⟨⟨x, hx, rfl⟩, hkey⟩
    exact ⟨x, h.lookup_eq_some_iff.2 ⟨hx, (hf x).symm.trans hkey⟩, rfl⟩
  · rintro ⟨x, hx, rfl⟩
    obtain ⟨hmem, hkey⟩ := h.lookup_eq_some_iff.1 hx
    exact ⟨⟨x, hmem, rfl⟩, (hf x).trans hkey⟩

lemma Keyed.lookup_removeIf (h : Keyed key hash m) (test : α → Bool) (k : κ) :
    (m.removeIf test).findWithHash (hash k) (fun y => key y == k) =
      (m.findWithHash (hash k) fun y => key y == k).filter fun y => !test y := by
  apply Option.ext
  intro y
  rw [(h.removeIf test).lookup_eq_some_iff, values_removeIf, List.mem_filter,
    Option.filter_eq_some_iff, h.lookup_eq_some_iff]
  exact and_right_comm

end

end Hmap

end Ipcf
