import Ipcf.Lib.HmapOps

/-!
# Programs that use hash maps

Any number of maps, and any sequence of operations on them, by users that keep to the rules of
`hmap.h`: a map is used between `hmap_init` and `hmap_destroy`, a node that is inserted is in no
map, and one that is removed or replaced is in that map.  `Represents` is what then always holds of
the memory: every map is held, the maps share neither nodes nor arrays, and every array that was
allocated and not freed belongs to a map.
-/

namespace Ipcf

/-- A call of a user. -/
inductive HmapOp
  | init (h : ℕ)
  | destroy (h : ℕ)
  | swap (a b : ℕ)
  | insert (h : ℕ) (node : NodeAddr) (hash : ℕ)
  | remove (h : ℕ) (node : NodeAddr)
  | replace (h : ℕ) (oldNode newNode : NodeAddr)
  | removeIf (h : ℕ) (test : NodeAddr → Bool)

/-- The maps that were initialised and not destroyed. -/
abbrev Hmaps := ℕ → Option (Hmap NodeAddr)

/-- No map has this node. -/
def Hmaps.Unused (Hs : Hmaps) (node : NodeAddr) : Prop := ∀ k K, Hs k = some K → node ∉ K.values

/-- What the call does to the maps. -/
def Hmaps.step (Hs : Hmaps) : HmapOp → Hmaps
  | .init h => Function.update Hs h (some Hmap.init)
  | .destroy h => Function.update Hs h none
  | .swap a b => Function.update (Function.update Hs a (Hs b)) b (Hs a)
  | .insert h node hash => Function.update Hs h ((Hs h).map fun H => H.insert hash node)
  | .remove h node => Function.update Hs h ((Hs h).map fun H => H.removeIf (· == node))
  | .replace h oldNode newNode => Function.update Hs h
      ((Hs h).map fun H => H.update fun y => if y = oldNode then newNode else y)
  | .removeIf h test => Function.update Hs h ((Hs h).map fun H => H.removeIf test)

/-- The call keeps to the rules. -/
def Hmaps.Permitted (Hs : Hmaps) : HmapOp → Prop
  | .init h => Hs h = none
  | .destroy h => ∃ H, Hs h = some H
  | .swap a b => a ≠ b ∧ (∃ H, Hs a = some H) ∧ ∃ K, Hs b = some K
  | .insert h node _ => (∃ H, Hs h = some H) ∧ Hs.Unused node
  | .remove h node => ∃ H, Hs h = some H ∧ node ∈ H.values
  | .replace h oldNode newNode => (∃ H, Hs h = some H ∧ oldNode ∈ H.values) ∧ Hs.Unused newNode
  | .removeIf h _ => ∃ H, Hs h = some H

/-- A sequence of calls that keep to the rules. -/
def Hmaps.PermittedAll (Hs : Hmaps) : List HmapOp → Prop
  | [] => True
  | op :: ops => Hs.Permitted op ∧ (Hs.step op).PermittedAll ops

namespace HmapHeap

/-- What the call does to the memory. -/
def step (m : HmapHeap) : HmapOp → Option HmapHeap
  | .init h => some (m.init (some h))
  | .destroy h => m.destroy (some h)
  | .swap a b => some (m.swap (some a) (some b))
  | .insert h node hash => m.insert (some h) node hash
  | .remove h node => m.remove (some h) node
  | .replace h oldNode newNode => m.replace (some h) oldNode newNode
  | .removeIf h test => m.removeIf (some h) test

/-- The memory holds these maps, apart from each other, and no other array. -/
structure Represents (m : HmapHeap) (Hs : Hmaps) : Prop where
  holds : ∀ h H, Hs h = some H → m.Holds (some h) H
  balanced : ∀ h H, Hs h = some H → H.Balanced
  apart : ∀ h k H K x, Hs h = some H → Hs k = some K → x ∈ H.values → x ∈ K.values → h = k
  alone : ∀ h k H K a, Hs h = some H → Hs k = some K → (m.hmap (some h)).buckets = .array a →
    (m.hmap (some k)).buckets = .array a → h = k
  owned : ∀ a, (m.size a).isSome → ∃ h H, Hs h = some H ∧ (m.hmap (some h)).buckets = .array a
  fresh : ∀ a, m.fresh ≤ a → m.size a = none

variable {m m' : HmapHeap} {Hs : Hmaps} {h : ℕ} {H H' : Hmap NodeAddr} {node : NodeAddr}

/-! ## A change to one map -/

/-- The buckets of another map are its own. -/
lemma Represents.buckets_ne (hr : m.Represents Hs) {k : ℕ} {K : Hmap NodeAddr} (hk : Hs k = some K)
    (hH : Hs h = some H) (hne : k ≠ h) :
    (m.hmap (some k)).buckets ≠ (m.hmap (some h)).buckets ∧
      (m.hmap (some k)).buckets ≠ .one (some h) ∧ (m.hmap (some k)).buckets ≠ .one none ∧
      (m.hmap (some k)).buckets ≠ .array m.fresh := by
  have hne' : some k ≠ some h := fun heq => hne (Option.some.inj heq)
  rcases (hr.holds k K hk).disposable with hone | ⟨a, harray, hsize⟩
  · refine ⟨fun heq => ?_, by rw [hone]; simp [hne], by rw [hone]; simp, by rw [hone]; simp⟩
    rcases (hr.holds h H hH).disposable with hone' | ⟨a, harray, -⟩
    · rw [hone, hone'] at heq
      exact hne' (Buckets.one.inj heq)
    · rw [hone, harray] at heq
      exact Buckets.noConfusion heq
  · refine ⟨fun heq => hne (hr.alone k h K H a hk hH harray (heq ▸ harray)), by rw [harray]; simp,
      by rw [harray]; simp, fun heq => ?_⟩
    rw [harray] at heq
    rw [Buckets.array.inj heq, hr.fresh _ (Nat.le_refl _)] at hsize
    cases hsize

/-- One map becomes `G`, and the others stay as they are. -/
lemma Represents.update {G : Option (Hmap NodeAddr)} (hr : m.Represents Hs)
    (hkeep : ∀ k K, Hs k = some K → k ≠ h →
      m'.Holds (some k) K ∧ m'.hmap (some k) = m.hmap (some k))
    (hholds : ∀ K, G = some K → m'.Holds (some h) K ∧ K.Balanced)
    (hapart : ∀ H', G = some H' → ∀ k K, Hs k = some K → k ≠ h → ∀ x ∈ K.values, x ∉ H'.values)
    (halone : ∀ H', G = some H' → ∀ k K a, Hs k = some K → k ≠ h →
      (m.hmap (some k)).buckets = .array a → (m'.hmap (some h)).buckets ≠ .array a)
    (howned : ∀ a, (m'.size a).isSome →
      (∃ H', G = some H' ∧ (m'.hmap (some h)).buckets = .array a) ∨
        ∃ k K, k ≠ h ∧ Hs k = some K ∧ (m.hmap (some k)).buckets = .array a)
    (hfresh : ∀ a, m'.fresh ≤ a → m'.size a = none) :
    m'.Represents (Function.update Hs h G) := by
  have hsplit : ∀ k K, Function.update Hs h G k = some K →
      k = h ∧ G = some K ∨ k ≠ h ∧ Hs k = some K := by
    intro k K hk
    by_cases hkh : k = h
    · rw [hkh, Function.update_self] at hk
      exact .inl ⟨hkh, hk⟩
    · rw [Function.update_of_ne hkh] at hk
      exact .inr ⟨hkh, hk⟩
  refine ⟨fun k K hk => ?_, fun k K hk => ?_, fun k j K J x hk hj hxK hxJ => ?_,
    fun k j K J a hk hj hka hja => ?_, fun a ha => ?_, hfresh⟩
  · rcases hsplit k K hk with ⟨rfl, hG⟩ | ⟨hne, hk⟩
    · exact (hholds K hG).1
    · exact (hkeep k K hk hne).1
  · rcases hsplit k K hk with ⟨rfl, hG⟩ | ⟨-, hk⟩
    · exact (hholds K hG).2
    · exact hr.balanced k K hk
  · rcases hsplit k K hk with ⟨hkh, hK⟩ | ⟨hkh, hK⟩ <;>
      rcases hsplit j J hj with ⟨hjh, hJ⟩ | ⟨hjh, hJ⟩
    · rw [hkh, hjh]
    · exact absurd hxK (hapart K hK j J hJ hjh x hxJ)
    · exact absurd hxJ (hapart J hJ k K hK hkh x hxK)
    · exact hr.apart k j K J x hK hJ hxK hxJ
  · rcases hsplit k K hk with ⟨hkh, hK⟩ | ⟨hkh, hK⟩ <;>
      rcases hsplit j J hj with ⟨hjh, hJ⟩ | ⟨hjh, hJ⟩
    · rw [hkh, hjh]
    · rw [(hkeep j J hJ hjh).2] at hja
      exact absurd (hkh ▸ hka) (halone K hK j J a hJ hjh hja)
    · rw [(hkeep k K hK hkh).2] at hka
      exact absurd (hjh ▸ hja) (halone J hJ k K a hK hkh hka)
    · rw [(hkeep k K hK hkh).2] at hka
      rw [(hkeep j J hJ hjh).2] at hja
      exact hr.alone k j K J a hK hJ hka hja
  · rcases howned a ha with ⟨H', hG, hbuckets⟩ | ⟨k, K, hne, hk, hbuckets⟩
    · exact ⟨h, H', by rw [Function.update_self, hG], hbuckets⟩
    · exact ⟨k, K, by rw [Function.update_of_ne hne, hk], by rw [(hkeep k K hk hne).2, hbuckets]⟩

/-- One map is changed, and may get other buckets. -/
lemma Represents.change {nodes : NodeAddr → Prop} (hr : m.Represents Hs) (hH : Hs h = some H)
    (hholds : m'.Holds (some h) H') (hbalanced : H'.Balanced)
    (hu : Untouched (fun k => k = some h ∨ k = none) nodes
      (fun b => b = (m.hmap (some h)).buckets ∨ b = .one (some h) ∨ b = .one none ∨
        b = .array m.fresh) m m')
    (hothers : ∀ k K, Hs k = some K → k ≠ h → ∀ x ∈ K.values, ¬ nodes x)
    (hvalues : ∀ x ∈ H'.values, nodes x) (hrehoused : Rehoused (some h) m m') :
    m'.Represents (Function.update Hs h (some H')) := by
  refine hr.update (fun k K hk hne => ?_) (fun K hG => ?_) (fun K hG k J hk hne x hx hxK => ?_)
    (fun _ _ k K a hk hne ha hha => ?_) (fun a ha => ?_) (fun a ha => ?_)
  · obtain ⟨h₁, h₂, h₃, h₄⟩ := hr.buckets_ne hk hH hne
    have hmap : ¬ (some k = some h ∨ some k = none) := by simp [hne]
    refine ⟨(hr.holds k K hk).untouched hu hmap (hothers k K hk hne) ?_, hu.hmap _ hmap⟩
    exact fun hb => hb.elim h₁ fun hb => hb.elim h₂ fun hb => hb.elim h₃ h₄
  · rw [← Option.some.inj hG]
    exact ⟨hholds, hbalanced⟩
  · rw [← Option.some.inj hG] at hxK
    exact hothers k J hk hne x hx (hvalues x hxK)
  · obtain ⟨h₁, -, -, h₄⟩ := hr.buckets_ne hk hH hne
    rcases hrehoused with ⟨hbuckets, -, -⟩ | ⟨hbuckets, -, -⟩
    · exact h₁ (ha.trans (hha.symm.trans hbuckets))
    · exact h₄ (ha.trans (hha.symm.trans hbuckets))
  · have howned : (m.size a).isSome → (m.hmap (some h)).buckets ≠ .array a →
        ∃ k K, k ≠ h ∧ Hs k = some K ∧ (m.hmap (some k)).buckets = .array a := by
      intro hsome hne
      obtain ⟨k, K, hk, hbuckets⟩ := hr.owned a hsome
      exact ⟨k, K, fun heq => hne (heq ▸ hbuckets), hk, hbuckets⟩
    rcases hrehoused with ⟨hbuckets, hsize, -⟩ | ⟨hbuckets, -, k, hsize⟩
    · rw [hsize] at ha
      by_cases hown : (m.hmap (some h)).buckets = .array a
      · exact .inl ⟨H', rfl, hbuckets.trans hown⟩
      · exact .inr (howned ha hown)
    · rw [hsize] at ha
      split_ifs at ha with hown hfresh
      · cases ha
      · exact .inl ⟨H', rfl, by rw [hbuckets, hfresh]⟩
      · exact .inr (howned ha hown)
  · rcases hrehoused with ⟨-, hsize, hfresh⟩ | ⟨-, hfresh, k, hsize⟩
    · rw [hsize, hr.fresh a (hfresh ▸ ha)]
    · rw [hfresh] at ha
      rw [hsize, if_neg (Nat.ne_of_gt ha), hr.fresh a (Nat.le_of_succ_le ha), ite_self]

/-- A change in place. -/
lemma Represents.change_in_place {nodes : NodeAddr → Prop} (hr : m.Represents Hs)
    (hH : Hs h = some H) (hholds : m'.Holds (some h) H') (hbalanced : H'.Balanced)
    (hu : Untouched (· = some h) nodes (· = (m.hmap (some h)).buckets) m m')
    (hothers : ∀ k K, Hs k = some K → k ≠ h → ∀ x ∈ K.values, ¬ nodes x)
    (hvalues : ∀ x ∈ H'.values, nodes x)
    (hbuckets : (m'.hmap (some h)).buckets = (m.hmap (some h)).buckets) (hsize : m'.size = m.size)
    (hfresh : m'.fresh = m.fresh) : m'.Represents (Function.update Hs h (some H')) :=
  hr.change hH hholds hbalanced (hu.mono (fun _ hk => .inl hk) (fun _ => id) fun _ hb => .inl hb)
    hothers hvalues (.inl ⟨hbuckets, hsize, hfresh⟩)

/-- Nodes go from one map. -/
lemma Represents.remove {test : NodeAddr → Bool} (hr : m.Represents Hs) (hH : Hs h = some H)
    (hplace : InPlace (some h) H (H.removeIf test) m m') :
    m'.Represents (Function.update Hs h (some (H.removeIf test))) :=
  hr.change_in_place hH hplace.holds ((hr.balanced h H hH).removeIf test) hplace.untouched
    (fun k K hk hne x hxK hxH => hne (hr.apart k h K H x hk hH hxK hxH))
    (fun _ hx => Hmap.values_removeIf_subset hx) hplace.buckets hplace.size hplace.fresh

/-! ## The calls -/

lemma Holds.init (m : HmapHeap) (h : MapAddr) : (m.init h).Holds h Hmap.init where
  mask := by simp [HmapHeap.init, Hmap.init, Hmap.empty]
  n := by simp [HmapHeap.init, Hmap.init, Hmap.empty]
  small _ := by simp [HmapHeap.init]
  large h0 := absurd rfl h0
  chains i hi := by
    have hi0 : i = 0 := Nat.le_zero.1 hi
    have hbucket : (m.init h).bucket h 0 = .bucket (.one h) 0 := by
      simp [HmapHeap.init, bucket]
    rw [hi0, hbucket]
    exact setCell_cell .. |>.trans (if_pos rfl)
  nodup := by simp
  counted := by
    rw [Hmap.init, Hmap.nodes_empty]
    rfl

lemma Represents.init (hr : m.Represents Hs) (hh : Hs h = none) :
    (m.init (some h)).Represents (Function.update Hs h (some Hmap.init)) := by
  have hu : Untouched (· = some h) (fun _ => False) (· = .one (some h)) m (m.init (some h)) :=
    ⟨fun k hk => by simp [HmapHeap.init, hk], fun _ _ => rfl, fun x _ => by simp [HmapHeap.init],
      fun b i hb => by simp [HmapHeap.init, hb], fun _ _ => rfl⟩
  refine hr.update (fun k K hk hne => ?_) (fun K hG => ?_) (fun K hG k J _ _ x _ hxK => ?_)
    (fun _ _ k K a _ _ _ ha => ?_) (fun a ha => .inr ?_) hr.fresh
  · have hne' : some k ≠ some h := fun heq => hne (Option.some.inj heq)
    refine ⟨(hr.holds k K hk).untouched hu hne' (fun _ _ => not_false) ?_, hu.hmap _ hne'⟩
    rcases (hr.holds k K hk).disposable with hone | ⟨a, harray, -⟩
    · rw [hone]
      exact fun heq => hne' (Buckets.one.inj heq)
    · rw [harray]
      exact Buckets.noConfusion
  · rw [← Option.some.inj hG]
    exact ⟨Holds.init m _, Hmap.balanced_init⟩
  · rw [← Option.some.inj hG, Hmap.values_init] at hxK
    cases hxK
  · simp [HmapHeap.init] at ha
  · obtain ⟨k, K, hk, hbuckets⟩ := hr.owned a ha
    refine ⟨k, K, fun heq => ?_, hk, hbuckets⟩
    rw [heq, hh] at hk
    cases hk

lemma Represents.destroy (hr : m.Represents Hs) (hH : Hs h = some H) :
    ∃ m', m.destroy (some h) = some m' ∧ m'.Represents (Function.update Hs h none) := by
  obtain ⟨m', hm', hhmap, hfresh, hu, hsize⟩ := (hr.holds h H hH).disposable.destroy
  refine ⟨m', hm', hr.update (fun k K hk hne => ?_) (fun _ hG => by cases hG)
    (fun _ hG => by cases hG) (fun _ hG => by cases hG) (fun a ha => .inr ?_) (fun a ha => ?_)⟩
  · exact ⟨(hr.holds k K hk).untouched hu not_false (fun _ _ => not_false)
      (hr.buckets_ne hk hH hne).1, by rw [hhmap]⟩
  · rw [hsize] at ha
    split_ifs at ha with hown
    · cases ha
    · obtain ⟨k, K, hk, hbuckets⟩ := hr.owned a ha
      exact ⟨k, K, fun heq => hown (heq ▸ hbuckets), hk, hbuckets⟩
  · rw [hsize, hr.fresh a (hfresh ▸ ha), ite_self]

/-- Maps that change places. -/
lemma Represents.perm (hr : m.Represents Hs) (e : ℕ ≃ ℕ)
    (hholds : ∀ k K, Hs (e k) = some K → m'.Holds (some k) K)
    (hbuckets : ∀ k K a, Hs (e k) = some K →
      ((m'.hmap (some k)).buckets = .array a ↔ (m.hmap (some (e k))).buckets = .array a))
    (hsize : m'.size = m.size) (hfresh : m'.fresh = m.fresh) : m'.Represents (Hs ∘ e) where
  holds := hholds
  balanced k K hk := hr.balanced (e k) K hk
  apart k j K J x hk hj hxK hxJ := e.injective (hr.apart _ _ K J x hk hj hxK hxJ)
  alone k j K J a hk hj hka hja := e.injective
    (hr.alone _ _ K J a hk hj ((hbuckets k K a hk).1 hka) ((hbuckets j J a hj).1 hja))
  owned a ha := by
    obtain ⟨k, K, hk, hka⟩ := hr.owned a (hsize ▸ ha)
    rw [← e.apply_symm_apply k] at hk hka
    exact ⟨e.symm k, K, hk, (hbuckets _ K a hk).2 hka⟩
  fresh a ha := by rw [hsize, hr.fresh a (hfresh ▸ ha)]

lemma Represents.swap (hr : m.Represents Hs) {a b : ℕ} {A B : Hmap NodeAddr} (hne : a ≠ b)
    (hA : Hs a = some A) (hB : Hs b = some B) : (m.swap (some a) (some b)).Represents
      (Function.update (Function.update Hs a (some B)) b (some A)) := by
  have hne' : some a ≠ some b := fun heq => hne (Option.some.inj heq)
  obtain ⟨-, hsize, hfresh⟩ := swap_rest m (some a) (some b)
  have hmaps : Function.update (Function.update Hs a (some B)) b (some A) =
      Hs ∘ Equiv.swap a b := by
    funext k
    rw [Function.comp_apply, Equiv.swap_apply_def, Function.update_apply, Function.update_apply]
    split_ifs with h₁ h₂ h₂
    · exact absurd (h₂.symm.trans h₁) hne
    · exact hA.symm
    · exact hB.symm
    · rfl
  have hsettled : ∀ {k j : ℕ} {K : Hmap NodeAddr} (x : ℕ), m.Holds (some j) K →
      ((settled (some k) (m.hmap (some j))).buckets = .array x ↔
        (m.hmap (some j)).buckets = .array x) := by
    intro k j K x hK
    rw [settled]
    split_ifs with h0
    · simp [hK.small (hK.mask.symm.trans h0)]
    · exact Iff.rfl
  rw [hmaps]
  refine hr.perm (Equiv.swap a b) (fun k K hk => ?_) (fun k K x hk => ?_) hsize hfresh
  · rw [Equiv.swap_apply_def] at hk
    split_ifs at hk with h₁ h₂
    · rw [h₁]
      exact (hr.holds b K hk).swap hne'
    · rw [h₂]
      exact (hr.holds a K hk).swap_right hne'
    · refine (hr.holds k K hk).untouched (swap_untouched m hne') (by simp [h₁, h₂])
        (fun _ _ => not_false) ?_
      exact not_or.2 ⟨(hr.buckets_ne hk hA h₁).2.1, (hr.buckets_ne hk hB h₂).2.1⟩
  · rw [Equiv.swap_apply_def] at hk ⊢
    rw [swap_hmap m hne']
    by_cases h₁ : k = a
    · rw [if_pos h₁] at hk ⊢
      rw [if_neg (by rw [h₁]; exact hne'), if_pos (by rw [h₁])]
      exact hsettled x (hr.holds b K hk)
    · by_cases h₂ : k = b
      · rw [if_neg h₁, if_pos h₂] at hk ⊢
        rw [if_pos (by rw [h₂])]
        exact hsettled x (hr.holds a K hk)
      · rw [if_neg h₁, if_neg h₂, if_neg (by simp [h₂]), if_neg (by simp [h₁])]

/-- **Every call succeeds**, and does to the memory what it does to the maps. -/
lemma Represents.step (hr : m.Represents Hs) (op : HmapOp) (hop : Hs.Permitted op) :
    ∃ m', m.step op = some m' ∧ m'.Represents (Hs.step op) := by
  -- the nodes of one map are in no other
  have hothers : ∀ {h k : ℕ} {H K : Hmap NodeAddr}, Hs h = some H → Hs k = some K → k ≠ h →
      ∀ x ∈ K.values, x ∉ H.values := fun {h k H K} hH hk hne x hxK hxH =>
    hne (hr.apart k h K H x hk hH hxK hxH)
  cases op with
  | init h => exact ⟨_, rfl, hr.init hop⟩
  | destroy h =>
    obtain ⟨H, hH⟩ := hop
    exact hr.destroy hH
  | swap a b =>
    obtain ⟨hne, ⟨A, hA⟩, B, hB⟩ := hop
    refine ⟨_, rfl, ?_⟩
    rw [Hmaps.step, hA, hB]
    exact hr.swap hne hA hB
  | insert h node hash =>
    obtain ⟨⟨H, hH⟩, hunused⟩ := hop
    have hnew := hunused h H hH
    have hn := (List.nodup_cons.2 ⟨hnew, (hr.holds h H hH).nodup⟩).length_le_card
    obtain ⟨m', hm', hholds, hu, hrehoused⟩ := (hr.holds h H hH).insert (Option.some_ne_none h) hnew
      hash (hr.fresh _ (Nat.le_refl _))
    refine ⟨m', hm', ?_⟩
    rw [Hmaps.step, hH]
    refine hr.change hH hholds
      ((hr.balanced h H hH).insert (hr.holds h H hH).counted ?_ hash node) hu
      (fun k K hk hne x hx => ?_) (fun x hx => Hmap.mem_values_insert.1 hx) hrehoused
    · rw [(hr.holds h H hH).counted]
      rw [Fintype.card_fin, List.length_cons, Hmap.values, List.length_map] at hn
      exact hn
    · rw [not_or]
      exact ⟨fun heq => hunused k K hk (heq ▸ hx), hothers hH hk hne x hx⟩
  | remove h node =>
    obtain ⟨H, hH, hnode⟩ := hop
    obtain ⟨m', hm', hplace⟩ := (hr.holds h H hH).remove hnode
    refine ⟨m', hm', ?_⟩
    rw [Hmaps.step, hH]
    exact hr.remove hH hplace
  | replace h oldNode newNode =>
    obtain ⟨⟨H, hH, hold⟩, hunused⟩ := hop
    have hnew := hunused h H hH
    obtain ⟨m', hm', hholds, hu, hbuckets, hsize, hfresh⟩ := (hr.holds h H hH).replace hold hnew
    refine ⟨m', hm', ?_⟩
    rw [Hmaps.step, hH]
    refine hr.change_in_place hH hholds ⟨(hr.balanced h H hH).pow, (hr.balanced h H hH).load⟩ hu
      (fun k K hk hne x hx => ?_) (fun x hx => ?_) hbuckets hsize hfresh
    · rw [not_or]
      exact ⟨fun heq => hunused k K hk (heq ▸ hx), hothers hH hk hne x hx⟩
    · rw [Hmap.values_update] at hx
      obtain ⟨y, hy, rfl⟩ := List.mem_map.1 hx
      split_ifs
      · exact .inl rfl
      · exact .inr hy
  | removeIf h test =>
    obtain ⟨H, hH⟩ := hop
    obtain ⟨m', hm', hplace⟩ := (hr.holds h H hH).removeIf test
    refine ⟨m', hm', ?_⟩
    rw [Hmaps.step, hH]
    exact hr.remove hH hplace

lemma Represents.run (hr : m.Represents Hs) {ops : List HmapOp} (hops : Hs.PermittedAll ops) :
    ∃ m', ops.foldlM HmapHeap.step m = some m' ∧ m'.Represents (ops.foldl Hmaps.step Hs) := by
  induction ops generalizing m Hs with
  | nil => exact ⟨m, rfl, hr⟩
  | cons op ops ih =>
    obtain ⟨m₁, hm₁, hr₁⟩ := hr.step op hops.1
    obtain ⟨m₂, hm₂, hr₂⟩ := ih hr₁ hops.2
    exact ⟨m₂, by rw [List.foldlM_cons, hm₁]; exact hm₂, hr₂⟩

/-- Memory that no map uses, whatever is in it. -/
lemma represents_start (hm : ∀ a, m.size a = none) : m.Represents fun _ => none where
  holds _ _ hH := by cases hH
  balanced _ _ hH := by cases hH
  apart _ _ _ _ _ hH := by cases hH
  alone _ _ _ _ _ hH := by cases hH
  owned a ha := by
    rw [hm] at ha
    cases ha
  fresh a _ := hm a

end HmapHeap

/-- **The maps in memory.**  Any sequence of calls that keep to the rules succeeds, for any number
of maps, and leaves memory that holds the maps that the calls make; the searches and the loops over
them then find what they find in these maps. -/
theorem hmap_represents (m : HmapHeap) (hm : ∀ a, m.size a = none) (ops : List HmapOp)
    (hops : Hmaps.PermittedAll (fun _ => none) ops) :
    ∃ m', ops.foldlM HmapHeap.step m = some m' ∧
      m'.Represents (ops.foldl Hmaps.step fun _ => none) ∧
      ∀ h H, ops.foldl Hmaps.step (fun _ => none) h = some H →
        (∀ hash test, m'.findWithHash (some h) hash test = some (H.findWithHash hash test)) ∧
        m'.first (some h) = some ((H.firstFrom 0).map Prod.snd) ∧
        ∀ x ∈ H.nodes, m'.next (some h) x.2 = some ((H.next x).map Prod.snd) := by
  obtain ⟨m', hm', hr⟩ := (HmapHeap.represents_start hm).run hops
  refine ⟨m', hm', hr, fun h H hH => ?_⟩
  have hholds := hr.holds h H hH
  exact ⟨hholds.findWithHash, hholds.first, fun x hx => hholds.next hx⟩

lemma Hmaps.unused_of_single {Hs : Hmaps} {h : ℕ} {H : Hmap NodeAddr} {node : NodeAddr}
    (hothers : ∀ k, k ≠ h → Hs k = none) (hH : Hs h = some H) (hnode : node ∉ H.values) :
    Hs.Unused node := by
  intro k K hk
  by_cases hkh : k = h
  · rw [hkh, hH] at hk
    rw [← Option.some.inj hk]
    exact hnode
  · rw [hothers k hkh] at hk
    cases hk

/-- A map that grows at its second node, and loses its first one. -/
def growingOps : List HmapOp := [.init 0, .insert 0 1 7, .insert 0 2 3, .remove 0 1]

lemma permitted_growingOps : Hmaps.PermittedAll (fun _ => none) growingOps := by
  refine ⟨rfl, ⟨⟨_, rfl⟩, ?_⟩, ⟨⟨_, rfl⟩, ?_⟩, ⟨_, rfl, by decide⟩, trivial⟩
  · refine Hmaps.unused_of_single (h := 0) (fun k hk => ?_) rfl (by decide)
    simp [Hmaps.step, hk]
  · refine Hmaps.unused_of_single (h := 0) (fun k hk => ?_) rfl (by decide)
    simp [Hmaps.step, hk]

theorem hmap_represents_growing :
    let m : HmapHeap := ⟨fun _ => ⟨.one none, 0, 0⟩, fun _ => some 9, fun _ => 5, fun _ => none, 0⟩
    ∃ m', growingOps.foldlM HmapHeap.step m = some m' ∧
      (∃ a, (m'.hmap (some 0)).buckets = .array a ∧ m'.size a = some 4) ∧
      m'.findWithHash (some 0) 3 (fun _ => true) = some (some 2) ∧
      m'.findWithHash (some 0) 7 (fun _ => true) = some none := by
  obtain ⟨m', hm', hr, hfind⟩ := hmap_represents
    ⟨fun _ => ⟨.one none, 0, 0⟩, fun _ => some 9, fun _ => 5, fun _ => none, 0⟩ (fun _ => rfl)
    growingOps permitted_growingOps
  obtain ⟨hsearch, -, -⟩ := hfind 0 _ rfl
  exact ⟨m', hm', (hr.holds 0 _ rfl).large (by decide), hsearch 3 _, hsearch 7 _⟩

end Ipcf
