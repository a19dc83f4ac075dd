import Mathlib.Data.List.Nodup
import Mathlib.Logic.Function.Basic

/-!
# Circular lists of linked nodes

The lists of `list.c`: every node has two pointers, and a list is a node whose pointers lead to the
first and to the last element and back.  An address is a number.  `Seg m a xs b` says that the next
pointers lead from `a` over `xs` to `b` and the previous pointers back; a list with the elements
`xs` is `Circular`: a segment from its head to its head, without repetition.

`Circular.listPushBack` is what `list_push_back` does for a node that is not on the list: nothing is
known otherwise.  A circular list may be entered at any of its nodes (`circular_rotate`), so the
same holds for an insertion at any other place, and for a removal.  `Circular.forEachFree_eq`: a
loop over a circular list that takes every element off and frees it meets each once, and ends.
-/

namespace Ipcf

/-- The pointers of all nodes. -/
structure Links where
  next : ℕ → ℕ
  prev : ℕ → ℕ

namespace Links

variable (m : Links)

/-- `list_init` -/
def listInit (list : ℕ) : Links :=
  ⟨Function.update m.next list list, Function.update m.prev list list⟩

/-- `list_insert`: `before->prev` is read again after the first assignment. -/
def listInsert (before elem : ℕ) : Links :=
  let m : Links := ⟨m.next, Function.update m.prev elem (m.prev before)⟩
  let m : Links := ⟨Function.update m.next elem before, m.prev⟩
  let m : Links := ⟨Function.update m.next (m.prev before) elem, m.prev⟩
  ⟨m.next, Function.update m.prev before elem⟩

/-- `list_push_back` -/
def listPushBack (list elem : ℕ) : Links := m.listInsert list elem

/-- `list_remove` -/
def listRemove (elem : ℕ) : Links :=
  let m : Links := ⟨Function.update m.next (m.prev elem) (m.next elem), m.prev⟩
  ⟨m.next, Function.update m.prev (m.next elem) (m.prev elem)⟩

/-- `LIST_FOR_EACH_SAFE` with a body that removes the element and frees it, from the element `cur`
on; the elements that were freed.  Going on with an element that was freed is an error. -/
def forEachFree (list : ℕ) : (fuel cur : ℕ) → Links → (freed : List ℕ) → Option (List ℕ)
  | 0, _, _, _ => none
  | fuel + 1, cur, m, freed =>
    if cur = list then some freed
    else if cur ∈ freed then none
    else forEachFree list fuel (m.next cur) (m.listRemove cur) (freed ++ [cur])

/-! ## Segments -/

/-- Two neighbours. -/
def Linked (a b : ℕ) : Prop := m.next a = b ∧ m.prev b = a

/-- The pointers lead from `a` over `xs` to `b`, and back. -/
def Seg (a : ℕ) : List ℕ → ℕ → Prop
  | [], b => m.Linked a b
  | x :: xs, b => m.Linked a x ∧ Seg x xs b

/-- A list with these elements. -/
structure Circular (list : ℕ) (xs : List ℕ) : Prop where
  seg : m.Seg list xs list
  nodup : (list :: xs).Nodup

variable {m} {m' : Links} {a b list elem z p : ℕ} {xs as bs : List ℕ}

lemma seg_concat : m.Seg a (xs ++ [z]) b ↔ m.Seg a xs z ∧ m.Linked z b := by
  induction xs generalizing a with
  | nil => exact Iff.rfl
  | cons x xs ih => rw [List.cons_append, Seg, Seg, ih, and_assoc]

/-- Pointers that lead away from a segment do not matter. -/
lemma Seg.congr (h : m.Seg a xs b) (hnext : ∀ p ∈ a :: xs, m'.next p = m.next p)
    (hprev : ∀ q ∈ xs ++ [b], m'.prev q = m.prev q) : m'.Seg a xs b := by
  induction xs generalizing a with
  | nil =>
    exact ⟨(hnext a List.mem_cons_self).trans h.1, (hprev b List.mem_cons_self).trans h.2⟩
  | cons x xs ih =>
    refine ⟨⟨(hnext a List.mem_cons_self).trans h.1.1,
      (hprev x List.mem_cons_self).trans h.1.2⟩, ?_⟩
    exact ih h.2 (fun p hp => hnext p (List.mem_cons_of_mem _ hp))
      fun q hq => hprev q (List.mem_cons_of_mem _ hq)

/-! ## Operations -/

lemma circular_listInit (m : Links) (list : ℕ) : (m.listInit list).Circular list [] where
  seg := ⟨Function.update_self _ _ _, Function.update_self _ _ _⟩
  nodup := by simp

/-- The pointers after an insertion of another node. -/
lemma next_listInsert (m : Links) {before elem : ℕ} (hne : elem ≠ before) (p : ℕ) :
    (m.listInsert before elem).next p =
      if p = m.prev before then elem else if p = elem then before else m.next p := by
  simp only [listInsert, Function.update_apply, if_neg hne.symm]

lemma prev_listInsert (m : Links) (before elem p : ℕ) :
    (m.listInsert before elem).prev p =
      if p = before then elem else if p = elem then m.prev before else m.prev p := by
  simp only [listInsert, Function.update_apply]

/-- A node that is not on the list becomes its last element. -/
lemma Circular.listPushBack (h : m.Circular list xs) (hnew : elem ∉ list :: xs) :
    (m.listPushBack list elem).Circular list (xs ++ [elem]) := by
  rw [List.mem_cons, not_or] at hnew
  obtain ⟨hhead, hnot⟩ := hnew
  refine ⟨?_, ?_⟩
  · rw [seg_concat]
    rcases List.eq_nil_or_concat xs with rfl | ⟨ys, last, rfl⟩
    · have hprev : m.prev list = list := h.seg.2
      refine ⟨⟨?_, ?_⟩, ?_, ?_⟩
      · rw [Links.listPushBack, next_listInsert m hhead, hprev, if_pos rfl]
      · rw [Links.listPushBack, prev_listInsert, if_neg hhead, if_pos rfl, hprev]
      · rw [Links.listPushBack, next_listInsert m hhead, hprev, if_neg hhead, if_pos rfl]
      · rw [Links.listPushBack, prev_listInsert, if_pos rfl]
    · have hnodup := h.nodup
      have hseg := h.seg
      rw [List.concat_eq_append] at hseg hnot hnodup ⊢
      rw [seg_concat] at hseg
      obtain ⟨hfront, hback⟩ := hseg
      have hprev : m.prev list = last := hback.2
      rw [List.nodup_cons, List.nodup_append] at hnodup
      obtain ⟨hlist, -, -, hdisjoint⟩ := hnodup
      have hlastElem : elem ≠ last := by
        rintro rfl
        exact hnot (by simp)
      have hlistLast : list ≠ last := by
        rintro rfl
        exact hlist (by simp)
      have hys : ∀ p ∈ ys, p ≠ last := fun p hp => hdisjoint p hp last (List.mem_singleton_self _)
      rw [seg_concat]
      refine ⟨⟨hfront.congr (fun p hp => ?_) fun q hq => ?_, ?_, ?_⟩, ?_, ?_⟩
      · have hpLast : p ≠ last := by
          rcases List.mem_cons.1 hp with rfl | hp
          · exact hlistLast
          · exact hys p hp
        have hpElem : p ≠ elem := by
          rcases List.mem_cons.1 hp with rfl | hp
          · exact fun heq => hhead heq.symm
          · rintro rfl
            exact hnot (List.mem_append_left _ hp)
        rw [Links.listPushBack, next_listInsert m hhead, hprev, if_neg hpLast, if_neg hpElem]
      · have hqList : q ≠ list := by
          rintro rfl
          exact hlist hq
        have hqElem : q ≠ elem := by
          rintro rfl
          exact hnot hq
        rw [Links.listPushBack, prev_listInsert, if_neg hqList, if_neg hqElem]
      · rw [Links.listPushBack, next_listInsert m hhead, hprev, if_pos rfl]
      · rw [Links.listPushBack, prev_listInsert, if_neg hhead, if_pos rfl, hprev]
      · rw [Links.listPushBack, next_listInsert m hhead, hprev, if_neg hlastElem, if_pos rfl]
      · rw [Links.listPushBack, prev_listInsert, if_pos rfl]
  · rw [← List.cons_append, List.nodup_append]
    refine ⟨h.nodup, List.nodup_singleton _, fun p hp q hq heq => ?_⟩
    rw [List.mem_singleton.1 hq] at heq
    rw [heq, List.mem_cons] at hp
    rcases hp with hp | hp
    · exact hhead hp
    · exact hnot hp

/-- The first element is taken off. -/
lemma Circular.listRemove (h : m.Circular list (elem :: xs)) :
    (m.listRemove elem).Circular list xs := by
  obtain ⟨⟨hfirst, hrest⟩, hnodup⟩ := h
  have hparts := List.nodup_cons.1 hnodup
  have htail := List.nodup_cons.1 hparts.2
  have hnotList : list ∉ xs := fun hmem => hparts.1 (List.mem_cons_of_mem _ hmem)
  have hne : elem ≠ list := fun heq => hparts.1 (heq ▸ List.mem_cons_self)
  refine ⟨?_, List.nodup_cons.2 ⟨hnotList, htail.2⟩⟩
  have hprevElem : m.prev elem = list := hfirst.2
  have hnext : ∀ p, (m.listRemove elem).next p = if p = list then m.next elem else m.next p := by
    intro p
    simp only [Links.listRemove, hprevElem, Function.update_apply]
  have hprev : ∀ p, (m.listRemove elem).prev p = if p = m.next elem then list else m.prev p := by
    intro p
    simp only [Links.listRemove, hprevElem, Function.update_apply, if_neg hne]
  cases xs with
  | nil =>
    have hnextElem : m.next elem = list := hrest.1
    exact ⟨by rw [hnext, if_pos rfl, hnextElem], by rw [hprev, if_pos hnextElem.symm]⟩
  | cons x xs =>
    have hnextElem : m.next elem = x := hrest.1.1
    refine ⟨⟨by rw [hnext, if_pos rfl, hnextElem], by rw [hprev, if_pos hnextElem.symm]⟩, ?_⟩
    apply hrest.2.congr
    · intro p hp
      rw [hnext, if_neg (fun heq : p = list => hnotList (heq ▸ hp))]
    · intro q hq
      have hqx : q ≠ x := by
        rintro rfl
        rcases List.mem_append.1 hq with hq | hq
        · exact (List.nodup_cons.1 htail.2).1 hq
        · exact hnotList (List.mem_singleton.1 hq ▸ List.mem_cons_self)
      rw [hprev, hnextElem, if_neg hqx]

/-- The first element, or the list itself. -/
lemma Circular.next_eq (h : m.Circular list xs) : m.next list = xs.headD list := by
  cases xs with
  | nil => exact h.seg.1
  | cons x xs => exact h.seg.1.1

/-- The pointers after a removal. -/
lemma next_listRemove (m : Links) (elem p : ℕ) :
    (m.listRemove elem).next p = if p = m.prev elem then m.next elem else m.next p := by
  simp only [Links.listRemove, Function.update_apply]

lemma prev_listRemove (m : Links) (elem p : ℕ) :
    (m.listRemove elem).prev p = if p = m.next elem then m.prev elem else m.prev p := by
  have hnext : Function.update m.next (m.prev elem) (m.next elem) elem = m.next elem := by
    rw [Function.update_apply]
    split_ifs
    · rfl
    · rfl
  simp only [Links.listRemove, hnext, Function.update_apply]

/-! ## Any element -/

lemma seg_append : m.Seg a (as ++ z :: bs) b ↔ m.Seg a as z ∧ m.Seg z bs b := by
  induction as generalizing a with
  | nil => exact Iff.rfl
  | cons x as ih => rw [List.cons_append, Seg, Seg, ih, and_assoc]

lemma perm_rotate (as bs : List ℕ) : (list :: (as ++ z :: bs)).Perm (z :: (bs ++ list :: as)) := by
  rw [← List.cons_append, ← List.cons_append]
  exact List.perm_append_comm

/-- A circular list may be entered at any element. -/
lemma circular_rotate : m.Circular list (as ++ z :: bs) ↔ m.Circular z (bs ++ list :: as) := by
  have hmem : ∀ {list z : ℕ} {as bs : List ℕ}, m.Circular list (as ++ z :: bs) →
      m.Circular z (bs ++ list :: as) := by
    intro list z as bs h
    refine ⟨?_, (perm_rotate as bs).nodup_iff.1 h.nodup⟩
    rw [seg_append]
    exact (seg_append.1 h.seg).symm
  exact ⟨hmem, hmem⟩

lemma Circular.congr (h : m.Circular list xs)
    (hsame : ∀ p ∈ list :: xs, m'.next p = m.next p ∧ m'.prev p = m.prev p) :
    m'.Circular list xs := by
  refine ⟨h.seg.congr (fun p hp => (hsame p hp).1) fun q hq => (hsame q ?_).2, h.nodup⟩
  rw [List.mem_append, List.mem_singleton] at hq
  exact List.mem_cons.2 hq.symm

/-- The last element, or the list itself. -/
lemma Circular.prev_eq (h : m.Circular list xs) : m.prev list = xs.getLastD list := by
  rcases List.eq_nil_or_concat xs with rfl | ⟨ys, last, rfl⟩
  · exact h.seg.2
  · have hseg := h.seg
    rw [List.concat_eq_append] at hseg ⊢
    rw [seg_concat] at hseg
    rw [hseg.2.2]
    simp

/-- The node of an element, as the list it would be the head of. -/
lemma Circular.exists_at (h : m.Circular list xs) (hp : p ∈ list :: xs) :
    ∃ ys, m.Circular p ys ∧ ∀ q, q ∈ p :: ys ↔ q ∈ list :: xs := by
  rcases List.mem_cons.1 hp with rfl | hp
  · exact ⟨xs, h, fun q => Iff.rfl⟩
  · obtain ⟨as, bs, rfl⟩ := List.append_of_mem hp
    exact ⟨bs ++ list :: as, circular_rotate.1 h, fun q => (perm_rotate as bs).symm.mem_iff⟩

lemma Circular.next_mem (h : m.Circular list xs) (hp : p ∈ list :: xs) :
    m.next p ∈ list :: xs := by
  obtain ⟨ys, hys, hmem⟩ := h.exists_at hp
  rw [← hmem, hys.next_eq]
  cases ys with
  | nil => exact List.mem_cons_self
  | cons y ys => exact List.mem_cons_of_mem _ List.mem_cons_self

lemma Circular.prev_mem (h : m.Circular list xs) (hp : p ∈ list :: xs) :
    m.prev p ∈ list :: xs := by
  obtain ⟨ys, hys, hmem⟩ := h.exists_at hp
  rw [← hmem, hys.prev_eq]
  rcases List.eq_nil_or_concat ys with rfl | ⟨ys, last, rfl⟩
  · exact List.mem_cons_self
  · simp

/-- A node that is not on the list is inserted before an element. -/
lemma Circular.listInsert (h : m.Circular list (as ++ z :: bs))
    (hnew : elem ∉ list :: (as ++ z :: bs)) :
    (m.listInsert z elem).Circular list (as ++ elem :: z :: bs) := by
  rw [(perm_rotate as bs).mem_iff] at hnew
  have hback := (circular_rotate.1 h).listPushBack hnew
  rw [List.append_assoc, List.cons_append] at hback
  have hfront := circular_rotate.2 hback
  rwa [List.append_assoc, List.singleton_append] at hfront

/-- Any element is taken off. -/
lemma Circular.listRemove_mem (h : m.Circular list (as ++ elem :: bs)) :
    (m.listRemove elem).Circular list (as ++ bs) := by
  rcases List.eq_nil_or_concat as with rfl | ⟨as, w, rfl⟩
  · exact h.listRemove
  · rw [List.concat_eq_append, List.append_assoc, List.singleton_append] at h ⊢
    exact circular_rotate.2 (circular_rotate.1 h).listRemove

/-! ## Loops -/

/-- The loop frees the elements in order, each once, and ends. -/
lemma Circular.forEachFree_eq (h : m.Circular list xs) (freed : List ℕ)
    (hfreed : ∀ x ∈ xs, x ∉ freed) {fuel : ℕ} (hfuel : xs.length < fuel) :
    forEachFree list fuel (m.next list) m freed = some (freed ++ xs) := by
  induction xs generalizing m freed fuel with
  | nil =>
    obtain ⟨fuel, rfl⟩ := Nat.exists_eq_add_of_lt hfuel
    rw [h.next_eq, List.headD_nil, forEachFree, if_pos rfl, List.append_nil]
  | cons x xs ih =>
    obtain ⟨fuel, rfl⟩ := Nat.exists_eq_add_of_lt hfuel
    have hnodup := h.nodup
    have hparts := List.nodup_cons.1 hnodup
    have hne : x ≠ list := fun heq => hparts.1 (heq ▸ List.mem_cons_self)
    have hx : x ∉ xs := (List.nodup_cons.1 hparts.2).1
    have hrest := h.listRemove
    -- the next element is read before this one is taken off
    have hnext : m.next x = (m.listRemove x).next list := by
      have hprevElem : m.prev x = list := h.seg.1.2
      simp only [Links.listRemove, hprevElem, Function.update_self]
    rw [h.next_eq, List.headD_cons, forEachFree, if_neg hne,
      if_neg (hfreed x List.mem_cons_self), hnext, ih hrest, List.append_assoc]
    · rfl
    · intro y hy hmem
      rcases List.mem_append.1 hmem with hmem | hmem
      · exact hfreed y (List.mem_cons_of_mem _ hy) hmem
      · exact hx (List.mem_singleton.1 hmem ▸ hy)
    · rw [List.length_cons]
      omega

end Links

end Ipcf
