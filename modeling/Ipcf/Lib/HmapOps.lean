import Ipcf.Lib.HmapHeap

/-!
# The operations of the hash map in memory

Every operation of `hmap.h` on memory that holds a map: it succeeds, and leaves memory that holds
what the operation of `Hmap` makes of the map.  `Holds.insert` is about a node of no map, so that
the map may grow; the error exit of `resize` is never taken, as `calc_mask` sets every bit below the
highest one (`calcMask_eq`).
-/

namespace Ipcf

namespace Hmap

/-! ## The mask -/

lemma calcMask_eq {capacity : ℕ} (hpos : capacity / 2 ≠ 0) (hlt : capacity / 2 < 2 ^ 64) :
    ∃ k, 2 ≤ k ∧ calcMask capacity = 2 ^ k - 1 ∧ capacity / 2 ≤ calcMask capacity := by
  simp only [calcMask]
  generalize capacity / 2 = x at hpos hlt
  have hfilled := (((((filled_one x).double).double).double).double).double.double
  rw [hfilled.eq_two_pow hlt]
  have hle := le_two_pow_size_sub_one x
  rcases Nat.lt_or_ge 1 x.size with hsize | hsize
  · refine ⟨x.size, hsize, ?_⟩
    have hodd : (2 ^ x.size - 1) &&& 1 = 1 := by
      rw [Nat.and_one_is_mod]
      obtain ⟨k, hk⟩ := Nat.exists_eq_add_of_lt hsize
      rw [hk, Nat.pow_succ]
      have := Nat.two_pow_pos (1 + k)
      omega
    have hfull : (2 ^ x.size - 1) ||| 2 ^ 1 = 2 ^ x.size - 1 := by
      apply Nat.eq_of_testBit_eq
      intro i
      rw [Nat.testBit_or, Nat.testBit_two_pow, Nat.testBit_two_pow_sub_one, Bool.or_eq_left_iff_imp,
        decide_eq_true_iff, decide_eq_true_iff]
      exact fun hi => hi ▸ hsize
    rw [hodd, show 1 <<< 1 = 2 ^ 1 from rfl, hfull]
    exact ⟨rfl, hle⟩
  · have hone : x.size = 1 := le_antisymm hsize (Nat.size_pos.2 (Nat.pos_of_ne_zero hpos))
    rw [hone] at hle ⊢
    exact ⟨2, Nat.le_refl _, rfl, le_trans hle (by decide)⟩

/-- The buckets are a power of two, and the chains no longer than two on average. -/
structure Balanced {α : Type*} (m : Hmap α) : Prop where
  pow : ∃ k, m.mask + 1 = 2 ^ k
  load : m.n / 2 ≤ m.mask

lemma balanced_init {α : Type*} : (init : Hmap α).Balanced := ⟨⟨0, rfl⟩, Nat.div_le_self 0 2⟩

lemma Balanced.removeIf {α : Type*} {m : Hmap α} (hm : m.Balanced) (test : α → Bool) :
    (m.removeIf test).Balanced :=
  ⟨hm.pow, le_trans (Nat.div_le_div_right (Nat.sub_le _ _)) hm.load⟩

lemma values_removeIf_subset {α : Type*} {m : Hmap α} {test : α → Bool} {x : α}
    (hx : x ∈ (m.removeIf test).values) : x ∈ m.values := by
  rw [values_removeIf] at hx
  exact List.mem_of_mem_filter hx

lemma n_resize {α : Type*} (m : Hmap α) (newMask : ℕ) : (m.resize newMask).n = m.nodes.length := by
  have hfold : ∀ (xs : List (ℕ × α)) (t : Hmap α),
      (xs.foldl (fun tmp x => tmp.insertFast x.1 x.2) t).n = t.n + xs.length := by
    intro xs
    induction xs with
    | nil => exact fun t => rfl
    | cons x xs ih =>
      intro t
      rw [List.foldl_cons, ih, List.length_cons, Nat.add_comm xs.length, ← Nat.add_assoc]
      rfl
  exact (hfold _ _).trans (Nat.zero_add _)

lemma mask_resize {α : Type*} (m : Hmap α) (newMask : ℕ) : (m.resize newMask).mask = newMask := by
  have hfold : ∀ (xs : List (ℕ × α)) (t : Hmap α),
      (xs.foldl (fun tmp x => tmp.insertFast x.1 x.2) t).mask = t.mask := by
    intro xs
    induction xs with
    | nil => exact fun t => rfl
    | cons x xs ih => exact fun t => ih _
  exact hfold _ _

/-- A map that has grown too full gets more buckets than it has. -/
lemma expand_eq {α : Type*} {m : Hmap α} (hfull : m.n / 2 > m.mask) (hlt : m.n / 2 < 2 ^ 64) :
    m.expand = m.resize (calcMask m.n) ∧ ∃ k, 2 ≤ k ∧ calcMask m.n = 2 ^ k - 1 ∧
      m.n / 2 ≤ calcMask m.n := by
  obtain ⟨k, hk, hmask, hle⟩ :=
    calcMask_eq (Nat.ne_of_gt (Nat.lt_of_le_of_lt (Nat.zero_le _) hfull)) hlt
  refine ⟨?_, k, hk, hmask, hle⟩
  rw [expand]
  exact if_pos (lt_of_lt_of_le hfull hle)

lemma Balanced.insert {α : Type*} {m : Hmap α} (hm : m.Balanced) (hcounted : m.n = m.nodes.length)
    (hlt : m.n < 2 ^ 64) (hash : ℕ) (x : α) : (m.insert hash x).Balanced := by
  have hn : (m.insertFast hash x).n = m.n + 1 := rfl
  have hmask : (m.insertFast hash x).mask = m.mask := rfl
  rw [Hmap.insert]
  split_ifs with hfull
  · obtain ⟨hexpand, k, hk, heq, hle⟩ := expand_eq hfull (by rw [hn]; omega)
    rw [hexpand]
    refine ⟨⟨k, ?_⟩, ?_⟩
    · rw [mask_resize, heq]
      exact Nat.sub_add_cancel (Nat.two_pow_pos k)
    · rw [mask_resize, n_resize, (nodes_insertFast m hash x).length_eq, List.length_cons,
        ← hcounted]
      exact hle
  · exact ⟨hm.pow, Nat.le_of_not_lt hfull⟩

end Hmap

namespace HmapHeap

variable {m m' : HmapHeap} {h : MapAddr} {H : Hmap NodeAddr} {node : NodeAddr}

lemma isPow2_two_pow (k : ℕ) : isPow2 (2 ^ k) := by
  have hne : 2 ^ k ≠ 0 := Nat.ne_of_gt (Nat.two_pow_pos k)
  rw [isPow2, Nat.and_two_pow_sub_one_eq_mod, Nat.mod_self]
  simp

/-! ## Inserting -/

/-- The map at `h` has the buckets that it had; or it has a new array, and the one that it had, if
it was an array, is freed. -/
def Rehoused (h : MapAddr) (m m' : HmapHeap) : Prop :=
  ((m'.hmap h).buckets = (m.hmap h).buckets ∧ m'.size = m.size ∧ m'.fresh = m.fresh) ∨
  ((m'.hmap h).buckets = .array m.fresh ∧ m'.fresh = m.fresh + 1 ∧
    ∃ k, ∀ a, m'.size a = if (m.hmap h).buckets = .array a then none
      else if a = m.fresh then some k else m.size a)

/-- There are no more nodes than addresses. -/
lemma Holds.n_le (hH : m.Holds h H) : H.n ≤ 2 ^ 64 := by
  have hcard := hH.nodup.length_le_card
  rw [Fintype.card_fin, Hmap.values, List.length_map] at hcard
  rw [hH.counted]
  exact hcard

/-- **`hmap_insert`** of a node that is not in the map. -/
lemma Holds.insert (hH : m.Holds h H) (hh : h ≠ none) (hnew : node ∉ H.values) (hash : ℕ)
    (hfresh : m.size m.fresh = none) :
    ∃ m', m.insert h node hash = some m' ∧ m'.Holds h (H.insert hash node) ∧
      Untouched (fun k => k = h ∨ k = none) (fun x => x = node ∨ x ∈ H.values)
        (fun b => b = (m.hmap h).buckets ∨ b = .one h ∨ b = .one none ∨ b = .array m.fresh) m m' ∧
      Rehoused h m m' := by
  obtain ⟨m₁, hm₁, hfiled⟩ := hH.insertFast hnew hash
  have hu₁ : Untouched (fun k => k = h ∨ k = none) (fun x => x = node ∨ x ∈ H.values)
      (fun b => b = (m.hmap h).buckets ∨ b = .one h ∨ b = .one none ∨ b = .array m.fresh) m m₁ :=
    hfiled.untouched.mono (fun _ hk => .inl hk) (fun _ hx => .inl hx) fun _ hb => .inl hb
  have hn : (H.insertFast hash node).n = H.n + 1 := rfl
  have hmask : (H.insertFast hash node).mask = H.mask := rfl
  rw [HmapHeap.insert, hm₁, Option.bind_eq_bind, Option.bind_some, Hmap.insert]
  rw [hfiled.holds.n, hfiled.holds.mask]
  split_ifs with hfull
  · have hle := hfiled.holds.n_le
    obtain ⟨hexpand, k, hk, heq, hlarge⟩ := Hmap.expand_eq hfull (by omega)
    have hpow : isPow2 (Hmap.calcMask (H.insertFast hash node).n + 1) := by
      rw [heq, Nat.sub_add_cancel (Nat.two_pow_pos k)]
      exact isPow2_two_pow k
    obtain ⟨m₂, hm₂, hholds, hu₂, hbuckets, hsize, hfresh₂⟩ := hfiled.holds.resize hh
      (Nat.ne_of_gt (lt_of_le_of_lt (Nat.zero_le _) (lt_of_lt_of_le hfull hlarge))) hpow
      (by rw [hfiled.size, hfiled.fresh]; exact hfresh)
    refine ⟨m₂, ?_, by rw [hexpand]; exact hholds, hu₁.trans (hu₂.mono (fun _ => id)
      (fun x hx => mem_values_insertFast.1 hx) ?_),
      .inr ⟨?_, ?_, Hmap.calcMask (H.insertFast hash node).n + 1, fun a => ?_⟩⟩
    · rw [HmapHeap.expand]
      rw [hfiled.holds.n, hfiled.holds.mask, if_pos (lt_of_lt_of_le hfull hlarge), hm₂]
    · rw [hfiled.buckets, hfiled.fresh]
      exact fun _ => id
    · rw [hbuckets, hfiled.fresh]
    · rw [hfresh₂, hfiled.fresh]
    · rw [hsize a, hfiled.buckets, hfiled.fresh, hfiled.size]
  · exact ⟨m₁, rfl, hfiled.holds, hu₁, .inl ⟨hfiled.buckets, hfiled.size, hfiled.fresh⟩⟩

/-! ## Looking for the pointer to a node -/

/-- The place `s` holds the pointer that follows the nodes `front` of the chain that begins in `b`:
what is written there, and hangs on it, comes behind them. -/
structure Link (m : HmapHeap) (b : Slot) (front : List (ℕ × NodeAddr)) (s : Slot) : Prop where
  valid : m.Valid s
  place : s = b ∨ ∃ y ∈ front, s = .next y.2
  splice : ∀ (m' : HmapHeap) (rest : List (ℕ × NodeAddr)),
    (∀ y ∈ front, m'.hash y.2 = m.hash y.2) →
    (∀ t, t = b ∨ (∃ y ∈ front, t = .next y.2) → t ≠ s → m'.cell t = m.cell t) →
    m'.Chain rest (m'.cell s) → m'.Chain (front ++ rest) (m'.cell b)

lemma seek_link {front back : List (ℕ × NodeAddr)} {x : ℕ × NodeAddr} {b : Slot} {fuel : ℕ}
    (hc : m.Chain (front ++ x :: back) (m.cell b)) (hv : m.Valid b)
    (hnodup : ((front ++ x :: back).map Prod.snd).Nodup) (hb : ∀ y ∈ front, b ≠ .next y.2)
    (hfuel : front.length < fuel) :
    ∃ s, m.seek x.2 fuel b = some s ∧ m.Link b front s := by
  induction front generalizing b fuel with
  | nil =>
    obtain ⟨fuel, rfl⟩ : ∃ k, fuel = k + 1 := ⟨fuel - 1, by omega⟩
    refine ⟨b, ?_, hv, .inl rfl, fun m' rest _ _ hrest => hrest⟩
    rw [seek, load_eq hv, Option.bind_eq_bind, Option.bind_some, if_pos hc.1]
  | cons y front ih =>
    obtain ⟨fuel, rfl⟩ : ∃ k, fuel = k + 1 := ⟨fuel - 1, by omega⟩
    obtain ⟨hy, hhash, hrest⟩ := hc
    rw [List.cons_append, List.map_cons, List.nodup_cons] at hnodup
    have hyx : y.2 ≠ x.2 := fun heq => hnodup.1 (heq ▸ List.mem_map_of_mem (by simp))
    have hyFront : ∀ z ∈ front, Slot.next y.2 ≠ .next z.2 := fun z hz heq =>
      hnodup.1 (Slot.next.inj heq ▸ List.mem_map_of_mem (List.mem_append_left _ hz))
    obtain ⟨s, hseek, hlink⟩ := ih hrest (by trivial) hnodup.2 hyFront
      (Nat.lt_of_succ_lt_succ hfuel)
    have hplace : ∃ z ∈ y :: front, s = .next z.2 := by
      rcases hlink.place with rfl | ⟨z, hz, rfl⟩
      · exact ⟨y, List.mem_cons_self, rfl⟩
      · exact ⟨z, List.mem_cons_of_mem _ hz, rfl⟩
    refine ⟨s, ?_, hlink.valid, .inr hplace, fun m' rest hhash' hcell' hrest' => ?_⟩
    · rw [seek, load_eq hv, Option.bind_eq_bind, Option.bind_some, hy,
        if_neg fun heq => hyx (Option.some.inj heq)]
      exact hseek
    · have hne : b ≠ s := by
        obtain ⟨z, hz, rfl⟩ := hplace
        exact hb z hz
      refine ⟨(hcell' b (.inl rfl) hne).trans hy, (hhash' y List.mem_cons_self).trans hhash,
        hlink.splice m' rest (fun z hz => hhash' z (List.mem_cons_of_mem _ hz))
          (fun t ht => hcell' t (.inr ?_)) hrest'⟩
      rcases ht with rfl | ⟨z, hz, rfl⟩
      · exact ⟨y, List.mem_cons_self, rfl⟩
      · exact ⟨z, List.mem_cons_of_mem _ hz, rfl⟩

lemma mem_nodes_of_bucket {i : ℕ} {x : ℕ × NodeAddr} (hx : x ∈ H.buckets.getD i []) :
    x ∈ H.nodes := by
  rw [Hmap.mem_nodes_iff, H.placed i x hx]
  exact hx

/-- A node is in one bucket. -/
lemma bucket_unique (hnodup : H.values.Nodup) {i j : ℕ} {y z : ℕ × NodeAddr}
    (hy : y ∈ H.buckets.getD i []) (hz : z ∈ H.buckets.getD j []) (heq : y.2 = z.2) : i = j := by
  have hyz : y = z :=
    List.inj_on_of_nodup_map hnodup (mem_nodes_of_bucket hy) (mem_nodes_of_bucket hz) heq
  rw [← H.placed i y hy, ← H.placed j z hz, hyz]

/-- The nodes of a bucket are different. -/
lemma bucket_nodup (hnodup : H.values.Nodup) (i : ℕ) :
    ((H.buckets.getD i []).map Prod.snd).Nodup := by
  rcases Nat.lt_or_ge i H.buckets.length with hi | hi
  · rw [List.getD_eq_getElem _ _ hi]
    exact hnodup.sublist ((List.sublist_flatten_of_mem (List.getElem_mem hi)).map Prod.snd)
  · rw [List.getD_eq_default _ _ hi]
    exact List.nodup_nil

lemma length_bucket_le (hH : m.Holds h H) (i : ℕ) :
    (H.buckets.getD i []).length ≤ (m.hmap h).n := by
  rw [hH.n, hH.counted]
  rcases Nat.lt_or_ge i H.buckets.length with hi | hi
  · rw [List.getD_eq_getElem _ _ hi]
    exact (List.sublist_flatten_of_mem (List.getElem_mem hi)).length_le
  · rw [List.getD_eq_default _ _ hi]
    exact Nat.zero_le _

/-- The hash in a node of a chain is the one that it was filed under. -/
lemma Chain.hash_eq {xs : List (ℕ × NodeAddr)} {p : Option NodeAddr} (hc : m.Chain xs p)
    {x : ℕ × NodeAddr} (hx : x ∈ xs) : m.hash x.2 = x.1 := by
  induction xs generalizing p with
  | nil => cases hx
  | cons y ys ih =>
    rcases List.mem_cons.1 hx with rfl | hx
    · exact hc.2.1
    · exact ih hc.2.2 hx

lemma Chain.suffix {front rest : List (ℕ × NodeAddr)} {x : ℕ × NodeAddr} {p : Option NodeAddr}
    (hc : m.Chain (front ++ x :: rest) p) : m.Chain rest (m.cell (.next x.2)) := by
  induction front generalizing p with
  | nil => exact hc.2.2
  | cons y front ih => exact ih hc.2.2

/-- Where `hmap_remove` and `hmap_replace` find a node of the map. -/
lemma Holds.seek (hH : m.Holds h H) (hnode : node ∈ H.values) :
    ∃ i ≤ H.mask, m.hash node &&& (m.hmap h).mask = i ∧ ∃ front back s,
      H.buckets.getD i [] = front ++ (m.hash node, node) :: back ∧
      m.seek node (m.hmap h).n (m.bucket h i) = some s ∧ m.Link (m.bucket h i) front s := by
  obtain ⟨x, hx, rfl⟩ := List.mem_map.1 hnode
  rw [Hmap.mem_nodes_iff] at hx
  have hle : x.1 &&& H.mask ≤ H.mask := Nat.and_le_right
  have hhash := (hH.chains _ hle).hash_eq hx
  obtain ⟨front, back, hsplit⟩ := List.append_of_mem hx
  have hc := hH.chains _ hle
  have hlen := length_bucket_le hH (x.1 &&& H.mask)
  have hnodup := bucket_nodup hH.nodup (x.1 &&& H.mask)
  rw [hsplit] at hc hlen hnodup
  obtain ⟨s, hseek, hlink⟩ := seek_link hc (hH.valid hle) hnodup (fun _ _ => Slot.noConfusion)
    (lt_of_lt_of_le (by simp) hlen)
  exact ⟨_, hle, by rw [hhash, hH.mask], front, back, s, by rw [hhash]; exact hsplit, hseek, hlink⟩

/-! ## Removing and replacing -/

/-- One chain gets other nodes behind `front`. -/
lemma Holds.splice {H' : Hmap NodeAddr} {i : ℕ} {front tail : List (ℕ × NodeAddr)} {s : Slot}
    (hH : m.Holds h H) (rest : List (ℕ × NodeAddr)) (hlink : m.Link (m.bucket h i) front s)
    (hbucket : H.buckets.getD i [] = front ++ tail)
    (hobj : m'.hmap h = { m.hmap h with n := H'.n }) (hsize : m'.size = m.size)
    (hhash : ∀ y ∈ H.values, m'.hash y = m.hash y)
    (hheads : ∀ j, m.bucket h j ≠ s → m'.cell (m.bucket h j) = m.cell (m.bucket h j))
    (hnexts : ∀ y ∈ H.values, .next y ≠ s → m'.cell (.next y) = m.cell (.next y))
    (hrest : m'.Chain rest (m'.cell s)) (hmask : H'.mask = H.mask)
    (hbuckets : ∀ j, H'.buckets.getD j [] = if j = i then front ++ rest else H.buckets.getD j [])
    (hnodup : H'.values.Nodup) (hcounted : H'.n = H'.nodes.length) : m'.Holds h H' := by
  have hslot : ∀ j, m'.bucket h j = m.bucket h j := fun j => by rw [bucket, hobj, bucket]
  have hfront : ∀ y ∈ front, y ∈ H.buckets.getD i [] := fun y hy => by
    rw [hbucket]
    exact List.mem_append_left _ hy
  refine ⟨by rw [hobj, hmask, ← hH.mask], by rw [hobj], fun h0 => ?_, fun h0 => ?_, fun j hj => ?_,
    hnodup, hcounted⟩
  · rw [hobj, hH.small (hmask ▸ h0)]
  · rw [hobj, hsize, hmask]
    exact hH.large (hmask ▸ h0)
  · rw [hmask] at hj
    rw [hbuckets, hslot]
    split_ifs with hji
    · rw [hji]
      refine hlink.splice m' rest (fun y hy => hhash _ (mem_values_of_bucket (hfront y hy)))
        (fun t ht hts => ?_) hrest
      rcases ht with rfl | ⟨y, hy, rfl⟩
      · exact hheads i hts
      · exact hnexts _ (mem_values_of_bucket (hfront y hy)) hts
    · have hhead : m.bucket h j ≠ s := by
        rcases hlink.place with rfl | ⟨y, -, rfl⟩
        · exact fun heq => hji (Slot.bucket.inj heq).2
        · exact Slot.noConfusion
      rw [hheads j hhead]
      refine (hH.chains j hj).congr (fun y hy => hhash _ (mem_values_of_bucket hy)) fun y hy => ?_
      refine hnexts _ (mem_values_of_bucket hy) fun heq => ?_
      rcases hlink.place with hs | ⟨z, hz, hs⟩
      · rw [hs] at heq
        exact Slot.noConfusion heq
      · exact hji (bucket_unique hH.nodup hy (hfront z hz) (Slot.next.inj (heq.trans hs)))

/-- The place that the pointer was found in is one of the map's. -/
lemma Link.untouched {i : ℕ} {front tail : List (ℕ × NodeAddr)} {s : Slot}
    (hlink : m.Link (m.bucket h i) front s) (hbucket : H.buckets.getD i [] = front ++ tail) :
    (∀ y, y ∉ H.values → .next y ≠ s) ∧ ∀ b j, b ≠ (m.hmap h).buckets → .bucket b j ≠ s := by
  refine ⟨fun y hy heq => ?_, fun b j hb heq => ?_⟩
  · rcases hlink.place with rfl | ⟨z, hz, rfl⟩
    · exact Slot.noConfusion heq
    · refine hy (Slot.next.inj heq ▸ mem_values_of_bucket (i := i) ?_)
      rw [hbucket]
      exact List.mem_append_left _ hz
  · rcases hlink.place with rfl | ⟨z, -, rfl⟩
    · exact hb (Slot.bucket.inj heq).1
    · exact Slot.noConfusion heq

lemma getD_removeIf (H : Hmap NodeAddr) (test : NodeAddr → Bool) (j : ℕ) :
    (H.removeIf test).buckets.getD j [] = (H.buckets.getD j []).filter fun y => !test y.2 := by
  rw [Hmap.removeIf, List.getD_eq_getElem?_getD, List.getElem?_map, List.getD_eq_getElem?_getD]
  cases H.buckets[j]? <;> rfl

/-- The map at `h` is now another one, in the buckets that it had. -/
structure InPlace (h : MapAddr) (H H' : Hmap NodeAddr) (m m' : HmapHeap) : Prop where
  holds : m'.Holds h H'
  untouched : Untouched (· = h) (· ∈ H.values) (· = (m.hmap h).buckets) m m'
  buckets : (m'.hmap h).buckets = (m.hmap h).buckets
  size : m'.size = m.size
  fresh : m'.fresh = m.fresh

lemma InPlace.trans {m'' : HmapHeap} {H' H'' : Hmap NodeAddr} (h₁ : InPlace h H H' m m')
    (h₂ : InPlace h H' H'' m' m'') (hsub : ∀ x ∈ H'.values, x ∈ H.values) :
    InPlace h H H'' m m'' where
  holds := h₂.holds
  untouched := h₁.untouched.trans
    (h₂.untouched.mono (fun _ => id) hsub fun _ hb => hb.trans h₁.buckets)
  buckets := h₂.buckets.trans h₁.buckets
  size := h₂.size.trans h₁.size
  fresh := h₂.fresh.trans h₁.fresh

/-- **`hmap_remove`** of a node of the map. -/
lemma Holds.remove (hH : m.Holds h H) (hnode : node ∈ H.values) :
    ∃ m', m.remove h node = some m' ∧ InPlace h H (H.removeIf (· == node)) m m' := by
  obtain ⟨i, hi, hidx, front, back, s, hbucket, hseek, hlink⟩ := hH.seek hnode
  have hnodup := bucket_nodup hH.nodup i
  have hc := hH.chains i hi
  rw [hbucket] at hnodup hc
  rw [List.map_append, List.map_cons, List.nodup_append, List.nodup_cons] at hnodup
  obtain ⟨-, ⟨hnback, -⟩, hdisjoint⟩ := hnodup
  have hfront : ∀ y ∈ front, y.2 ≠ node := fun y hy =>
    hdisjoint y.2 (List.mem_map_of_mem hy) node List.mem_cons_self
  have hback : ∀ y ∈ back, y.2 ≠ node := fun y hy heq => hnback (List.mem_map.2 ⟨y, hy, heq⟩)
  have hsBack : ∀ y ∈ back, s ≠ .next y.2 := by
    intro y hy heq
    rcases hlink.place with rfl | ⟨z, hz, rfl⟩
    · exact Slot.noConfusion heq
    · exact hdisjoint z.2 (List.mem_map_of_mem hz) y.2
        (List.mem_cons_of_mem _ (List.mem_map_of_mem hy)) (Slot.next.inj heq)
  have hone : (H.nodes.filter fun y => y.2 == node).length = 1 := by
    rw [← List.countP_eq_length_filter, show (fun y : ℕ × NodeAddr => y.2 == node) =
      (· == node) ∘ Prod.snd from rfl, ← List.countP_map]
    exact List.count_eq_one_of_mem hH.nodup hnode
  set m' := (m.setCell s (m.cell (.next node))).setMap h { m.hmap h with n := (m.hmap h).n - 1 }
    with hm'
  have hn : (H.removeIf (· == node)).n = (m.hmap h).n - 1 := by
    rw [hH.n, ← hone]
    rfl
  refine ⟨m', ?_, ?_, ⟨fun k hk => by simp [hm', hk], fun _ _ => rfl, fun y hy => ?_,
    fun b j hb => ?_, fun _ _ => rfl⟩, by simp [hm'], rfl, rfl⟩
  · rw [HmapHeap.remove, hidx, hseek, Option.bind_eq_bind, Option.bind_some, load_eq (by trivial),
      Option.bind_eq_bind, Option.bind_some, store_eq hlink.valid]
    rfl
  · refine hH.splice back hlink hbucket ?_ rfl (fun _ _ => rfl) (fun j hj => ?_)
      (fun y _ hy => ?_) ?_ rfl (fun j => ?_) ?_ ?_
    · rw [hn]
      simp [hm']
    · simp [hm', hj]
    · simp [hm', hy]
    · refine Chain.congr (m := m) ?_ (fun _ _ => rfl) fun y hy => ?_
      · simpa [hm'] using hc.suffix
      · simp [hm', (hsBack y hy).symm]
    · rw [getD_removeIf]
      split_ifs with hji
      · rw [hji, hbucket, List.filter_append, List.filter_cons_of_neg (by simp),
          List.filter_eq_self.2 fun y hy => by simp [hfront y hy],
          List.filter_eq_self.2 fun y hy => by simp [hback y hy]]
      · refine List.filter_eq_self.2 fun y hy => ?_
        have hx : (m.hash node, node) ∈ H.buckets.getD i [] := by
          rw [hbucket]
          exact List.mem_append_right _ List.mem_cons_self
        have hne : y.2 ≠ node := fun heq => hji (bucket_unique hH.nodup hy hx heq)
        simp [hne]
    · rw [Hmap.values_removeIf]
      exact hH.nodup.filter _
    · have hlen := List.length_eq_length_filter_add (l := H.nodes) fun y => y.2 == node
      rw [Hmap.nodes_removeIf, hn, hH.n, hH.counted]
      omega
  · simp [hm', (hlink.untouched hbucket).1 y hy]
  · simp [hm', (hlink.untouched hbucket).2 b j hb]

lemma getD_update (H : Hmap NodeAddr) (f : NodeAddr → NodeAddr) (j : ℕ) :
    (H.update f).buckets.getD j [] = (H.buckets.getD j []).map fun y => (y.1, f y.2) := by
  rw [Hmap.update, List.getD_eq_getElem?_getD, List.getElem?_map, List.getD_eq_getElem?_getD]
  cases H.buckets[j]? <;> rfl

/-- **`hmap_replace`** of a node of the map by one that is not in it. -/
lemma Holds.replace {oldNode newNode : NodeAddr} (hH : m.Holds h H) (hold : oldNode ∈ H.values)
    (hnew : newNode ∉ H.values) :
    ∃ m', m.replace h oldNode newNode = some m' ∧
      m'.Holds h (H.update fun y => if y = oldNode then newNode else y) ∧
      Untouched (· = h) (fun x => x = newNode ∨ x ∈ H.values) (· = (m.hmap h).buckets) m m' ∧
      (m'.hmap h).buckets = (m.hmap h).buckets ∧ m'.size = m.size ∧ m'.fresh = m.fresh := by
  obtain ⟨i, hi, hidx, front, back, s, hbucket, hseek, hlink⟩ := hH.seek hold
  have hnodup := bucket_nodup hH.nodup i
  have hc := hH.chains i hi
  have hne : oldNode ≠ newNode := fun heq => hnew (heq ▸ hold)
  have hmem : ∀ j, ∀ y ∈ H.buckets.getD j [], y.2 ≠ newNode := fun j y hy heq =>
    hnew (heq ▸ mem_values_of_bucket hy)
  have hmemi := hmem i
  rw [hbucket] at hnodup hc hmemi
  rw [List.map_append, List.map_cons, List.nodup_append, List.nodup_cons] at hnodup
  obtain ⟨-, ⟨hnback, -⟩, hdisjoint⟩ := hnodup
  have hfront : ∀ y ∈ front, y.2 ≠ oldNode := fun y hy =>
    hdisjoint y.2 (List.mem_map_of_mem hy) oldNode List.mem_cons_self
  have hback : ∀ y ∈ back, y.2 ≠ oldNode := fun y hy heq => hnback (List.mem_map.2 ⟨y, hy, heq⟩)
  have hsBack : ∀ y ∈ back, .next y.2 ≠ s := by
    intro y hy heq
    rcases hlink.place with rfl | ⟨z, hz, rfl⟩
    · exact Slot.noConfusion heq
    · exact hdisjoint z.2 (List.mem_map_of_mem hz) y.2
        (List.mem_cons_of_mem _ (List.mem_map_of_mem hy)) (Slot.next.inj heq.symm)
  obtain ⟨hsNext, hsBucket⟩ := hlink.untouched hbucket
  have hsOld : .next oldNode ≠ s := by
    rcases hlink.place with rfl | ⟨z, hz, rfl⟩
    · exact Slot.noConfusion
    · exact fun heq => hfront z hz (Slot.next.inj heq.symm)
  have hsNew := hsNext newNode hnew
  set f := fun y => if y = oldNode then newNode else y with hf
  set m' := ((m.setCell s (some newNode)).setHash newNode (m.hash oldNode)).setCell (.next newNode)
    (m.cell (.next oldNode)) with hm'
  refine ⟨m', ?_, ?_, ⟨fun _ _ => rfl, fun y hy => ?_, fun y hy => ?_, fun b j hb => ?_,
    fun _ _ => rfl⟩, rfl, rfl, rfl⟩
  · rw [HmapHeap.replace, hidx, hseek, Option.bind_eq_bind, Option.bind_some, store_eq hlink.valid,
      Option.bind_eq_bind, Option.bind_some]
    simp only
    rw [load_eq (by trivial), Option.bind_eq_bind, Option.bind_some, store_eq (by trivial)]
    simp [hm', hsOld]
  · refine hH.splice ((m.hash oldNode, newNode) :: back) hlink hbucket ?_ rfl
      (fun y hy => ?_) (fun j hj => ?_) (fun y hy hys => ?_) ?_ rfl (fun j => ?_) ?_ ?_
    · change m.hmap h = { m.hmap h with n := H.n }
      rw [← hH.n]
    · have hyn : y ≠ newNode := fun heq => hnew (heq ▸ hy)
      simp [hm', hyn]
    · rw [bucket] at hj
      simp [hm', hj, bucket]
    · have hyn : y ≠ newNode := fun heq => hnew (heq ▸ hy)
      simp [hm', hyn, hys]
    · refine ⟨?_, by simp [hm'], ?_⟩
      · simp [hm', hsNew.symm]
      · refine Chain.congr (m := m) ?_ (fun y hy => ?_) fun y hy => ?_
        · simpa [hm'] using hc.suffix
        · simp [hm', hmemi y (List.mem_append_right _ (List.mem_cons_of_mem _ hy))]
        · simp [hm', hmemi y (List.mem_append_right _ (List.mem_cons_of_mem _ hy)), hsBack y hy]
    · have hkeep : ∀ ys : List (ℕ × NodeAddr), (∀ y ∈ ys, y.2 ≠ oldNode) →
          (ys.map fun y => (y.1, f y.2)) = ys := by
        intro ys hys
        refine (List.map_congr_left fun y hy => ?_).trans (List.map_id _)
        simp [hf, hys y hy]
      rw [getD_update]
      split_ifs with hji
      · rw [hji, hbucket, List.map_append, List.map_cons, hkeep front hfront, hkeep back hback]
        simp [hf]
      · refine hkeep _ fun y hy heq => hji (bucket_unique hH.nodup hy
          (z := (m.hash oldNode, oldNode)) ?_ heq)
        rw [hbucket]
        exact List.mem_append_right _ List.mem_cons_self
    · rw [Hmap.values_update]
      refine hH.nodup.map_on fun y hy z hz heq => ?_
      have hyn : y ≠ newNode := fun h => hnew (h ▸ hy)
      have hzn : z ≠ newNode := fun h => hnew (h ▸ hz)
      simp only [hf] at heq
      split_ifs at heq with h₁ h₂ h₂
      · rw [h₁, h₂]
      · exact absurd heq.symm hzn
      · exact absurd heq hyn
      · exact heq
    · rw [Hmap.nodes_update, List.length_map, ← hH.counted]
      rfl
  · rw [not_or] at hy
    simp [hm', hy.1]
  · rw [not_or] at hy
    simp [hm', hy.1, hsNext y hy.2]
  · simp [hm', hsBucket b j hb]

/-! ## Searching -/

lemma dropWhile_find {xs : List (ℕ × NodeAddr)} {hash : ℕ} {test : NodeAddr → Bool} :
    (xs.dropWhile fun x => x.1 != hash).find? (fun x => x.1 == hash && test x.2) =
      xs.find? fun x => x.1 == hash && test x.2 := by
  induction xs with
  | nil => rfl
  | cons x xs ih =>
    by_cases hx : x.1 = hash
    · rw [List.dropWhile_cons_of_neg (by simp [hx])]
    · rw [List.dropWhile_cons_of_pos (by simp [hx]), ih, List.find?_cons_of_neg (by simp [hx])]

/-- The first node of a chain with the hash, and the rest of the chain behind it. -/
lemma nextWithHashFrom_eq {xs : List (ℕ × NodeAddr)} {p : Option NodeAddr} {fuel : ℕ} (hash : ℕ)
    (hc : m.Chain xs p) (hfuel : xs.length ≤ fuel) :
    ∃ p', m.nextWithHashFrom hash fuel p = some p' ∧
      m.Chain (xs.dropWhile fun x => x.1 != hash) p' := by
  induction xs generalizing p fuel with
  | nil =>
    cases (hc : p = none)
    exact ⟨none, by cases fuel <;> rfl, rfl⟩
  | cons x xs ih =>
    obtain ⟨fuel, rfl⟩ : ∃ k, fuel = k + 1 := ⟨fuel - 1, by simp at hfuel; omega⟩
    obtain ⟨rfl, hhash, hrest⟩ := hc
    rw [nextWithHashFrom, hhash]
    by_cases hx : x.1 = hash
    · rw [if_pos hx, List.dropWhile_cons_of_neg (by simp [hx])]
      exact ⟨_, rfl, rfl, hhash, hrest⟩
    · rw [if_neg hx, List.dropWhile_cons_of_pos (by simp [hx]), load_eq (by trivial),
        Option.bind_eq_bind, Option.bind_some]
      exact ih hrest (Nat.le_of_succ_le_succ hfuel)

lemma searchFrom_eq {xs : List (ℕ × NodeAddr)} {p : Option NodeAddr} {hash bound fuel : ℕ}
    {test : NodeAddr → Bool} (hc : m.Chain (xs.dropWhile fun x => x.1 != hash) p)
    (hbound : xs.length ≤ bound) (hfuel : xs.length ≤ fuel) :
    m.searchFrom test bound fuel p =
      some ((xs.find? fun x => x.1 == hash && test x.2).map Prod.snd) := by
  induction fuel generalizing xs p with
  | zero =>
    rw [List.eq_nil_of_length_eq_zero (Nat.le_zero.1 hfuel)] at hc ⊢
    cases (hc : p = none)
    rfl
  | succ fuel ih =>
    rw [← dropWhile_find]
    have hle := (List.dropWhile_sublist (fun x : ℕ × NodeAddr => x.1 != hash) (l := xs)).length_le
    have hhead := List.head?_dropWhile_not (fun x : ℕ × NodeAddr => x.1 != hash) xs
    cases hdrop : xs.dropWhile fun x => x.1 != hash with
    | nil =>
      rw [hdrop] at hc
      cases (hc : p = none)
      rfl
    | cons x ys =>
      rw [hdrop] at hc hle hhead
      obtain ⟨rfl, hhash, hrest⟩ := hc
      have hx : x.1 = hash := by simpa using hhead
      rw [List.length_cons] at hle
      rw [searchFrom]
      cases htest : test x.2 with
      | true => rw [if_pos rfl, List.find?_cons_of_pos (by simp [hx, htest]), Option.map_some]
      | false =>
        obtain ⟨p', hp', hc'⟩ := nextWithHashFrom_eq hash hrest (show ys.length ≤ bound by omega)
        have hnext : m.nextWithHash bound x.2 = some p' := by
          rw [nextWithHash, load_eq (by trivial), Option.bind_eq_bind, Option.bind_some, hhash, hx,
            hp']
        rw [if_neg Bool.false_ne_true, List.find?_cons_of_neg (by simp [htest]), hnext,
          Option.bind_eq_bind, Option.bind_some, ih hc' (by omega) (by omega)]

/-- **`HMAP_FOR_EACH_WITH_HASH`** -/
lemma Holds.findWithHash (hH : m.Holds h H) (hash : ℕ) (test : NodeAddr → Bool) :
    m.findWithHash h hash test = some (H.findWithHash hash test) := by
  have hle : hash &&& H.mask ≤ H.mask := Nat.and_le_right
  have hlen := length_bucket_le hH (hash &&& H.mask)
  obtain ⟨p, hp, hc⟩ := nextWithHashFrom_eq hash (hH.chains _ hle) hlen
  have hfirst : m.firstWithHash h hash = some p := by
    rw [firstWithHash, hH.mask, load_eq (hH.valid hle), Option.bind_eq_bind, Option.bind_some, hp]
  rw [HmapHeap.findWithHash, hfirst, Option.bind_eq_bind, Option.bind_some,
    searchFrom_eq hc hlen hlen]
  rfl

/-! ## Walking -/

lemma Chain.head {xs : List (ℕ × NodeAddr)} {p : Option NodeAddr} (hc : m.Chain xs p) :
    p = xs.head?.map Prod.snd := by
  cases xs with
  | nil => exact hc
  | cons x xs => exact hc.1

lemma Holds.nextFrom (hH : m.Holds h H) {count start : ℕ} (hcount : start + count = H.mask + 1) :
    m.nextFrom h count start = some ((H.firstFrom start).map Prod.snd) := by
  induction count generalizing start with
  | zero =>
    rw [HmapHeap.nextFrom, Hmap.firstFrom, List.drop_eq_nil_of_le (by rw [H.length_eq]; omega)]
    rfl
  | succ count ih =>
    have hlt : start < H.buckets.length := by
      rw [H.length_eq]
      omega
    have hhead := (hH.chains start (by omega)).head
    rw [List.getD_eq_getElem _ _ hlt] at hhead
    rw [HmapHeap.nextFrom, load_eq (hH.valid (by omega)), Option.bind_eq_bind, Option.bind_some,
      hhead, Hmap.firstFrom, List.drop_eq_getElem_cons hlt, List.flatten_cons]
    cases hbucket : H.buckets[start] with
    | nil => exact ih (by omega)
    | cons x xs => rfl

/-- **`hmap_first`** -/
lemma Holds.first (hH : m.Holds h H) : m.first h = some ((H.firstFrom 0).map Prod.snd) := by
  rw [HmapHeap.first, hH.mask]
  exact hH.nextFrom (Nat.zero_add _)

/-- **`hmap_next`** of a node of the map. -/
lemma Holds.next (hH : m.Holds h H) {x : ℕ × NodeAddr} (hx : x ∈ H.nodes) :
    m.next h x.2 = some ((H.next x).map Prod.snd) := by
  rw [Hmap.mem_nodes_iff] at hx
  have hle : x.1 &&& H.mask ≤ H.mask := Nat.and_le_right
  have hc := hH.chains _ hle
  have hhash := hc.hash_eq hx
  have hnodup := bucket_nodup hH.nodup (x.1 &&& H.mask)
  obtain ⟨front, back, hsplit⟩ := List.append_of_mem hx
  rw [hsplit] at hc hnodup
  rw [List.map_append, List.map_cons, List.nodup_append] at hnodup
  have hfront : ∀ y ∈ front, (y != x) = true := by
    intro y hy
    rw [bne_iff_ne]
    rintro rfl
    exact hnodup.2.2 y.2 (List.mem_map_of_mem hy) y.2 List.mem_cons_self rfl
  rw [HmapHeap.next, load_eq (by trivial), Option.bind_eq_bind, Option.bind_some, hc.suffix.head,
    Hmap.next, hsplit, List.dropWhile_append_of_pos hfront, List.dropWhile_cons_of_neg (by simp),
    List.tail_cons, hhash, hH.mask]
  cases back with
  | nil => exact hH.nextFrom (by omega)
  | cons y back => rfl

/-! ## Removing in a loop -/

/-- The loop, from the first of the nodes `rest` on, with the nodes `kept` behind it. -/
lemma Holds.removeFrom (hH : m.Holds h H) (test : NodeAddr → Bool) {kept rest : List (ℕ × NodeAddr)}
    (hnodes : H.nodes = kept ++ rest) {fuel : ℕ} (hfuel : rest.length ≤ fuel) :
    ∃ m' H', removeFrom h test fuel (rest.head?.map Prod.snd) m = some m' ∧ InPlace h H H' m m' ∧
      H'.mask = H.mask ∧ H'.nodes = kept ++ rest.filter fun x => !test x.2 := by
  induction rest generalizing m H kept fuel with
  | nil =>
    refine ⟨m, H, by cases fuel <;> rfl, ⟨hH, .refl, rfl, rfl, rfl⟩, rfl, hnodes⟩
  | cons x rest ih =>
    obtain ⟨fuel, rfl⟩ : ∃ k, fuel = k + 1 := ⟨fuel - 1, by simp at hfuel; omega⟩
    have hlen := Nat.le_of_succ_le_succ hfuel
    have hmem : x ∈ H.nodes := by
      rw [hnodes]
      exact List.mem_append_right _ List.mem_cons_self
    have hnodup : H.nodes.Nodup := hH.nodup.of_map _
    have hnext : m.next h x.2 = some (rest.head?.map Prod.snd) := by
      rw [hH.next hmem, Hmap.next_eq hnodup hnodes]
    rw [List.head?_cons, Option.map_some, HmapHeap.removeFrom, hnext, Option.bind_eq_bind,
      Option.bind_some]
    cases htest : test x.2 with
    | true =>
      obtain ⟨m₁, hm₁, hplace₁⟩ := hH.remove (List.mem_map_of_mem hmem)
      have hothers : ∀ y ∈ kept ++ rest, y.2 ≠ x.2 := by
        intro y hy heq
        have hy' : y ∈ H.nodes := by
          rw [hnodes]
          exact List.mem_append.2 ((List.mem_append.1 hy).imp_right (List.mem_cons_of_mem _))
        rw [List.inj_on_of_nodup_map hH.nodup hy' hmem heq] at hy
        rw [hnodes, List.nodup_append, List.nodup_cons] at hnodup
        rcases List.mem_append.1 hy with hy | hy
        · exact hnodup.2.2 x hy x List.mem_cons_self rfl
        · exact hnodup.2.1.1 hy
      have hnodes₁ : (H.removeIf (· == x.2)).nodes = kept ++ rest := by
        rw [Hmap.nodes_removeIf, hnodes, List.filter_append, List.filter_cons_of_neg (by simp),
          ← List.filter_append]
        exact List.filter_eq_self.2 fun y hy => by simp [hothers y hy]
      obtain ⟨m₂, H₂, hm₂, hplace, hmask, hleft⟩ := ih hplace₁.holds hnodes₁ hlen
      refine ⟨m₂, H₂, ?_, hplace₁.trans hplace fun y hy => Hmap.values_removeIf_subset hy, hmask,
        ?_⟩
      · rw [if_pos rfl, hm₁, Option.bind_eq_bind, Option.bind_some]
        exact hm₂
      · rw [hleft, List.filter_cons_of_neg (by simp [htest])]
    | false =>
      have hnodes₁ : H.nodes = (kept ++ [x]) ++ rest := by
        rw [hnodes, List.append_assoc]
        rfl
      obtain ⟨m₂, H₂, hm₂, hplace, hmask, hleft⟩ := ih hH hnodes₁ hlen
      refine ⟨m₂, H₂, ?_, hplace, hmask, ?_⟩
      · rw [if_neg Bool.false_ne_true, Option.bind_eq_bind, Option.bind_some]
        exact hm₂
      · rw [hleft, List.filter_cons_of_pos (by simp [htest]), List.append_assoc]
        rfl

/-- **`HMAP_FOR_EACH_SAFE` with `hmap_remove`** -/
lemma Holds.removeIf (hH : m.Holds h H) (test : NodeAddr → Bool) :
    ∃ m', m.removeIf h test = some m' ∧ InPlace h H (H.removeIf test) m m' := by
  obtain ⟨m', H', hm', hplace, hmask, hleft⟩ :=
    hH.removeFrom test (List.nil_append _).symm (hH.n.trans hH.counted).ge
  have heq : H' = H.removeIf test := by
    rw [List.nil_append] at hleft
    refine Hmap.ext_nodes hmask ?_ ?_
    · have hlen := List.length_eq_length_filter_add (l := H.nodes) fun x => test x.2
      rw [hplace.holds.counted, hleft]
      change _ = H.n - _
      rw [hH.counted]
      omega
    · rw [hleft, Hmap.nodes_removeIf]
  refine ⟨m', ?_, heq ▸ hplace⟩
  rw [HmapHeap.removeIf, hH.first, Option.bind_eq_bind, Option.bind_some]
  have hhead : (H.firstFrom 0).map Prod.snd = H.nodes.head?.map Prod.snd := rfl
  rw [hhead, hm']

end HmapHeap

end Ipcf
