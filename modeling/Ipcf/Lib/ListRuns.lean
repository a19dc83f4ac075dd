import Ipcf.Framework.Links

/-!
# Programs that use lists

The other functions of `list.c`, any number of lists, and any sequence of calls by users that keep
to the rules of `list.h`: a node that is inserted is on no list, one that is removed is on one, and
only a list with elements is popped.  `Represents` is what then always holds of the memory: every
list is circular with its elements, and no node is on two lists.  Nothing is asked of the nodes that
are on no list: they may be freed and used for something else.
-/

namespace Ipcf

namespace Links

/-! ## The functions -/

/-- `list_push_front` -/
def listPushFront (m : Links) (list elem : ℕ) : Links := m.listInsert (m.next list) elem

/-- `list_pop_front` -/
def listPopFront (m : Links) (list : ℕ) : Links × ℕ :=
  let front := m.next list
  (m.listRemove front, front)

/-- `list_pop_back` -/
def listPopBack (m : Links) (list : ℕ) : Links × ℕ :=
  let back := m.prev list
  (m.listRemove back, back)

/-- `list_front` -/
def listFront (m : Links) (list : ℕ) : ℕ := m.next list

/-- `list_back` -/
def listBack (m : Links) (list : ℕ) : ℕ := m.prev list

/-- The loop of `list_size`, from the element `e` on. -/
def listSizeLoop (m : Links) (list : ℕ) : (fuel e cnt : ℕ) → Option ℕ
  | 0, _, _ => none
  | fuel + 1, e, cnt => if e = list then some cnt else listSizeLoop m list fuel (m.next e) (cnt + 1)

/-- `list_size` -/
def listSize (m : Links) (list fuel : ℕ) : Option ℕ := m.listSizeLoop list fuel (m.next list) 0

/-- `list_is_empty` -/
def listIsEmpty (m : Links) (list : ℕ) : Bool := m.next list = list

end Links

/-! ## The lists of a program -/

/-- A call of a user; the head of a list may go out of use, and the user writes what it likes to
nodes that are on no list. -/
inductive ListOp
  | init (list : ℕ)
  | insert (before elem : ℕ)
  | pushFront (list elem : ℕ)
  | pushBack (list elem : ℕ)
  | remove (elem : ℕ)
  | popFront (list : ℕ)
  | popBack (list : ℕ)
  | drop (list : ℕ)
  | write (node next prev : ℕ)

/-- The lists that were initialised and not dropped. -/
abbrev Lists := ℕ → Option (List ℕ)

/-- `elem` is put before an element of the list. -/
def insertBefore (before elem : ℕ) : List ℕ → List ℕ
  | [] => []
  | x :: xs => if x = before then elem :: x :: xs else x :: insertBefore before elem xs

namespace Lists

/-- No list has this node. -/
def Unused (Ls : Lists) (node : ℕ) : Prop := ∀ h xs, Ls h = some xs → node ∉ h :: xs

/-- What the call does to the lists. -/
def step (Ls : Lists) : ListOp → Lists
  | .init list => Function.update Ls list (some [])
  | .insert before elem => fun h => (Ls h).map fun xs =>
      if before = h then xs ++ [elem] else insertBefore before elem xs
  | .pushFront list elem => Function.update Ls list ((Ls list).map fun xs => elem :: xs)
  | .pushBack list elem => Function.update Ls list ((Ls list).map fun xs => xs ++ [elem])
  | .remove elem => fun h => (Ls h).map fun xs => xs.erase elem
  | .popFront list => Function.update Ls list ((Ls list).map List.tail)
  | .popBack list => Function.update Ls list ((Ls list).map List.dropLast)
  | .drop list => Function.update Ls list none
  | .write _ _ _ => Ls

/-- What the call returns. -/
def Returns (Ls : Lists) : ListOp → Option ℕ → Prop
  | .remove elem, r => ∃ h as bs, Ls h = some (as ++ elem :: bs) ∧ r = some (bs.headD h)
  | .popFront list, r => ∃ x xs, Ls list = some (x :: xs) ∧ r = some x
  | .popBack list, r => ∃ xs x, Ls list = some (xs ++ [x]) ∧ r = some x
  | _, r => r = none

/-- The call keeps to the rules. -/
def Permitted (Ls : Lists) : ListOp → Prop
  | .init list => ∀ h xs, Ls h = some xs → list ∈ h :: xs → h = list
  | .insert before elem => (∃ h xs, Ls h = some xs ∧ before ∈ h :: xs) ∧ Ls.Unused elem
  | .pushFront list elem => (∃ xs, Ls list = some xs) ∧ Ls.Unused elem
  | .pushBack list elem => (∃ xs, Ls list = some xs) ∧ Ls.Unused elem
  | .remove elem => ∃ h xs, Ls h = some xs ∧ elem ∈ xs
  | .popFront list => ∃ xs, Ls list = some xs ∧ xs ≠ []
  | .popBack list => ∃ xs, Ls list = some xs ∧ xs ≠ []
  | .drop _ => True
  | .write node _ _ => Ls.Unused node

/-- A sequence of calls that keep to the rules. -/
def PermittedAll (Ls : Lists) : List ListOp → Prop
  | [] => True
  | op :: ops => Ls.Permitted op ∧ (Ls.step op).PermittedAll ops

/-- What a sequence of calls returns. -/
def ReturnsAll (Ls : Lists) : List ListOp → List (Option ℕ) → Prop
  | [], rs => rs = []
  | op :: ops, rs => ∃ r rs', rs = r :: rs' ∧ Ls.Returns op r ∧ (Ls.step op).ReturnsAll ops rs'

end Lists

namespace Links

/-- What the call does to the memory, and what it returns; `list_remove` reads `elem->next` behind
its assignments. -/
def call (m : Links) : ListOp → Links × Option ℕ
  | .init list => (m.listInit list, none)
  | .insert before elem => (m.listInsert before elem, none)
  | .pushFront list elem => (m.listPushFront list elem, none)
  | .pushBack list elem => (m.listPushBack list elem, none)
  | .remove elem => (m.listRemove elem, some ((m.listRemove elem).next elem))
  | .popFront list => ((m.listPopFront list).1, some (m.listPopFront list).2)
  | .popBack list => ((m.listPopBack list).1, some (m.listPopBack list).2)
  | .drop _ => (m, none)
  | .write node next prev =>
    (⟨Function.update m.next node next, Function.update m.prev node prev⟩, none)

/-- A sequence of calls. -/
def runCalls (m : Links) : List ListOp → Links × List (Option ℕ)
  | [] => (m, [])
  | op :: ops =>
    let r := m.call op
    let rs := r.1.runCalls ops
    (rs.1, r.2 :: rs.2)

/-- The memory holds these lists, apart from each other. -/
structure Represents (m : Links) (Ls : Lists) : Prop where
  circular : ∀ h xs, Ls h = some xs → m.Circular h xs
  apart : ∀ h k xs ys p, Ls h = some xs → Ls k = some ys → p ∈ h :: xs → p ∈ k :: ys → h = k

variable {m m' : Links} {Ls : Lists} {h z elem p : ℕ} {xs as bs : List ℕ}

/-! ## A change to one list -/

/-- One list becomes `xs`, and the others stay as they are. -/
lemma Represents.update (hr : m.Represents Ls) (hnew : m'.Circular h xs)
    (hfree : ∀ p ∈ h :: xs, ∀ k ys, Ls k = some ys → p ∈ k :: ys → k = h)
    (hframe : ∀ k ys, Ls k = some ys → k ≠ h →
      ∀ p ∈ k :: ys, m'.next p = m.next p ∧ m'.prev p = m.prev p) :
    m'.Represents (Function.update Ls h (some xs)) := by
  have hsplit : ∀ k ys, Function.update Ls h (some xs) k = some ys →
      k = h ∧ xs = ys ∨ k ≠ h ∧ Ls k = some ys := by
    intro k ys hk
    by_cases hkh : k = h
    · rw [hkh, Function.update_self] at hk
      exact .inl ⟨hkh, Option.some.inj hk⟩
    · rw [Function.update_of_ne hkh] at hk
      exact .inr ⟨hkh, hk⟩
  refine ⟨fun k ys hk => ?_, fun k j ys zs p hk hj hpk hpj => ?_⟩
  · rcases hsplit k ys hk with ⟨rfl, rfl⟩ | ⟨hkh, hk⟩
    · exact hnew
    · exact (hr.circular k ys hk).congr (hframe k ys hk hkh)
  · rcases hsplit k ys hk with ⟨hkh, rfl⟩ | ⟨-, hk⟩
    · rw [hkh] at hpk ⊢
      rcases hsplit j zs hj with ⟨hjh, -⟩ | ⟨-, hj⟩
      · exact hjh.symm
      · exact (hfree p hpk j zs hj hpj).symm
    · rcases hsplit j zs hj with ⟨hjh, rfl⟩ | ⟨-, hj⟩
      · rw [hjh] at hpj ⊢
        exact hfree p hpj k ys hk hpk
      · exact hr.apart k j ys zs p hk hj hpk hpj

/-- A node that is on no list is inserted into one. -/
lemma Represents.inserted {ys : List ℕ} (hr : m.Represents Ls) (hh : Ls h = some xs)
    (hz : z ∈ h :: xs) (hunused : Ls.Unused elem) (hnew : (m.listInsert z elem).Circular h ys)
    (hys : ∀ p ∈ h :: ys, p = elem ∨ p ∈ h :: xs) :
    (m.listInsert z elem).Represents (Function.update Ls h (some ys)) := by
  have hprev := (hr.circular h xs hh).prev_mem hz
  refine hr.update hnew (fun p hp k zs hk hpk => ?_) fun k zs hk hkh p hp => ?_
  · rcases hys p hp with rfl | hp
    · exact absurd hpk (hunused k zs hk)
    · exact hr.apart k h zs xs p hk hh hpk hp
  · have helem : p ≠ elem := by
      rintro rfl
      exact hunused k zs hk hp
    have hother : ∀ q ∈ h :: xs, p ≠ q := by
      rintro q hq rfl
      exact hkh (hr.apart k h zs xs p hk hh hp hq)
    have hne : elem ≠ z := by
      rintro rfl
      exact hunused h xs hh hz
    rw [next_listInsert m hne, prev_listInsert, if_neg (hother _ hprev), if_neg helem,
      if_neg (hother _ hz), if_neg helem]
    exact ⟨rfl, rfl⟩

/-- An element is taken off its list. -/
lemma Represents.removed (hr : m.Represents Ls) (hh : Ls h = some (as ++ elem :: bs)) :
    (m.listRemove elem).Represents (Function.update Ls h (some (as ++ bs))) := by
  have hcirc := hr.circular h _ hh
  have helem : elem ∈ h :: (as ++ elem :: bs) := by simp
  have hnext := hcirc.next_mem helem
  have hprev := hcirc.prev_mem helem
  refine hr.update hcirc.listRemove_mem (fun p hp k zs hk hpk => ?_) fun k zs hk hkh p hp => ?_
  · refine hr.apart k h zs _ p hk hh hpk ?_
    simp only [List.mem_cons, List.mem_append] at hp ⊢
    tauto
  · have hother : ∀ q ∈ h :: (as ++ elem :: bs), p ≠ q := by
      rintro q hq rfl
      exact hkh (hr.apart k h zs _ p hk hh hp hq)
    rw [next_listRemove, prev_listRemove, if_neg (hother _ hprev), if_neg (hother _ hnext)]
    exact ⟨rfl, rfl⟩

/-- What a call does to every list, where it changes one. -/
lemma map_eq_update {f : ℕ → List ℕ → List ℕ} (hh : Ls h = some xs)
    (hothers : ∀ k ys, Ls k = some ys → k ≠ h → f k ys = ys) :
    (fun k => (Ls k).map (f k)) = Function.update Ls h (some (f h xs)) := by
  funext k
  by_cases hkh : k = h
  · rw [hkh, Function.update_self, hh, Option.map_some]
  · rw [Function.update_of_ne hkh]
    cases hk : Ls k with
    | none => rfl
    | some ys => rw [Option.map_some, hothers k ys hk hkh]

lemma insertBefore_of_notMem {before : ℕ} (hnot : before ∉ xs) :
    insertBefore before elem xs = xs := by
  induction xs with
  | nil => rfl
  | cons x xs ih =>
    rw [List.mem_cons, not_or] at hnot
    rw [insertBefore, if_neg (fun heq => hnot.1 heq.symm), ih hnot.2]

lemma insertBefore_append (hnot : z ∉ as) :
    insertBefore z elem (as ++ z :: bs) = as ++ elem :: z :: bs := by
  induction as with
  | nil => rw [List.nil_append, insertBefore, if_pos rfl, List.nil_append]
  | cons a as ih =>
    rw [List.mem_cons, not_or] at hnot
    rw [List.cons_append, insertBefore, if_neg (fun heq => hnot.1 heq.symm), ih hnot.2,
      List.cons_append]

/-- The elements before an element do not repeat it. -/
lemma Circular.notMem_before (hc : m.Circular h (as ++ z :: bs)) : z ∉ as ∧ z ≠ h := by
  have hnodup := hc.nodup
  rw [List.nodup_cons, List.nodup_append] at hnodup
  obtain ⟨hhead, -, -, hdisjoint⟩ := hnodup
  refine ⟨fun hz => hdisjoint z hz z List.mem_cons_self rfl, ?_⟩
  rintro rfl
  exact hhead (by simp)

/-- The element behind `elem`, or the list. -/
lemma Circular.next_at (hc : m.Circular h (as ++ elem :: bs)) : m.next elem = bs.headD h := by
  rw [(circular_rotate.1 hc).next_eq]
  cases bs with
  | nil => rfl
  | cons b bs => rfl

/-- Insertion at the place that `list_insert` is given. -/
lemma Represents.insert (hr : m.Represents Ls) (hh : Ls h = some xs) (hz : z ∈ h :: xs)
    (hunused : Ls.Unused elem) :
    (m.listInsert z elem).Represents (Ls.step (.insert z elem)) := by
  have hc := hr.circular h xs hh
  have hnot := hunused h xs hh
  have hstep : Ls.step (.insert z elem) = Function.update Ls h
      (some (if z = h then xs ++ [elem] else insertBefore z elem xs)) := by
    refine map_eq_update (f := fun k ys => if z = k then ys ++ [elem] else insertBefore z elem ys)
      hh fun k ys hk hkh => ?_
    have hzk : z ∉ k :: ys := fun hmem => hkh (hr.apart k h ys xs z hk hh hmem hz)
    rw [List.mem_cons, not_or] at hzk
    rw [if_neg hzk.1, insertBefore_of_notMem hzk.2]
  rw [hstep]
  rcases List.mem_cons.1 hz with rfl | hmem
  · rw [if_pos rfl]
    refine hr.inserted hh hz hunused (hc.listPushBack hnot) fun p hp => ?_
    simp only [List.mem_cons, List.mem_append, List.not_mem_nil, or_false] at hp ⊢
    tauto
  · obtain ⟨as, bs, rfl⟩ := List.append_of_mem hmem
    obtain ⟨hbefore, hne⟩ := hc.notMem_before
    rw [if_neg hne, insertBefore_append hbefore]
    refine hr.inserted hh hz hunused (hc.listInsert hnot) fun p hp => ?_
    simp only [List.mem_cons, List.mem_append] at hp ⊢
    tauto

lemma Represents.remove (hr : m.Represents Ls) (hh : Ls h = some (as ++ elem :: bs)) :
    (m.listRemove elem).Represents (Ls.step (.remove elem)) ∧
      (m.listRemove elem).next elem = bs.headD h := by
  have hc := hr.circular h _ hh
  have helem : elem ∈ h :: (as ++ elem :: bs) := by simp
  obtain ⟨hbefore, hne⟩ := hc.notMem_before
  have hstep : Ls.step (.remove elem) = Function.update Ls h (some (as ++ bs)) := by
    rw [Lists.step, map_eq_update (f := fun _ ys => ys.erase elem) hh fun k ys hk hkh => ?_]
    · rw [List.erase_append_right _ hbefore, List.erase_cons_head]
    · exact List.erase_of_not_mem fun hmem =>
        hkh (hr.apart k h ys _ elem hk hh (List.mem_cons_of_mem _ hmem) helem)
  rw [hstep]
  refine ⟨hr.removed hh, ?_⟩
  rw [next_listRemove, hc.next_at]
  split_ifs
  · rfl
  · rfl

/-- **Every call** does to the memory what it does to the lists, and returns what they say. -/
lemma Represents.call (hr : m.Represents Ls) (op : ListOp) (hop : Ls.Permitted op) :
    (m.call op).1.Represents (Ls.step op) ∧ Ls.Returns op (m.call op).2 := by
  cases op with
  | init list =>
    refine ⟨hr.update (circular_listInit m list) (fun p hp k ys hk hpk => ?_)
      fun k ys hk hkh p hp => ?_, rfl⟩
    · rw [List.mem_singleton.1 hp] at hpk
      exact hop k ys hk hpk
    · have hne : p ≠ list := by
        rintro rfl
        exact hkh (hop k ys hk hp)
      exact ⟨Function.update_of_ne hne _ _, Function.update_of_ne hne _ _⟩
  | insert before elem =>
    obtain ⟨⟨h, xs, hh, hz⟩, hunused⟩ := hop
    exact ⟨hr.insert hh hz hunused, rfl⟩
  | pushFront list elem =>
    obtain ⟨⟨xs, hh⟩, hunused⟩ := hop
    refine ⟨?_, rfl⟩
    have hc := hr.circular list xs hh
    have hfirst := hc.next_eq
    have hz := hc.next_mem (List.mem_cons_self)
    rw [Lists.step, hh, Option.map_some]
    refine hr.inserted hh hz hunused ?_ fun p hp => ?_
    · cases xs with
      | nil =>
        rw [hfirst]
        exact hc.listPushBack (hunused list [] hh)
      | cons x xs =>
        have hnew : (m.listInsert x elem).Circular list ([] ++ elem :: x :: xs) :=
          Circular.listInsert hc (hunused list _ hh)
        rw [hfirst]
        exact hnew
    · simp only [List.mem_cons] at hp ⊢
      tauto
  | pushBack list elem =>
    obtain ⟨⟨xs, hh⟩, hunused⟩ := hop
    refine ⟨?_, rfl⟩
    rw [Lists.step, hh, Option.map_some]
    refine hr.inserted hh List.mem_cons_self hunused
      ((hr.circular list xs hh).listPushBack (hunused list xs hh)) fun p hp => ?_
    simp only [List.mem_cons, List.mem_append, List.not_mem_nil, or_false] at hp ⊢
    tauto
  | remove elem =>
    obtain ⟨h, xs, hh, hmem⟩ := hop
    obtain ⟨as, bs, rfl⟩ := List.append_of_mem hmem
    obtain ⟨hrep, hnext⟩ := hr.remove hh
    exact ⟨hrep, h, as, bs, hh, congrArg some hnext⟩
  | popFront list =>
    obtain ⟨xs, hh, hne⟩ := hop
    obtain ⟨x, xs, rfl⟩ := List.exists_cons_of_ne_nil hne
    have hfirst : m.next list = x := (hr.circular list _ hh).next_eq
    have hremoved : (m.listRemove x).Represents (Function.update Ls list (some ([] ++ xs))) :=
      hr.removed hh
    rw [Links.call, listPopFront, hfirst, Lists.step, hh, Option.map_some, List.tail_cons]
    exact ⟨hremoved, x, xs, hh, rfl⟩
  | popBack list =>
    obtain ⟨xs, hh, hne⟩ := hop
    obtain ⟨xs, x, rfl⟩ := List.eq_nil_or_concat' xs |>.resolve_left hne
    have hlast : m.prev list = x := by
      rw [(hr.circular list _ hh).prev_eq]
      simp
    have hremoved : (m.listRemove x).Represents (Function.update Ls list (some (xs ++ []))) :=
      hr.removed hh
    rw [List.append_nil] at hremoved
    rw [Links.call, listPopBack, hlast, Lists.step, hh, Option.map_some, List.dropLast_concat]
    exact ⟨hremoved, xs, x, hh, rfl⟩
  | drop list =>
    have hkept : ∀ k ys, Ls.step (.drop list) k = some ys → Ls k = some ys := by
      intro k ys hk
      rw [Lists.step] at hk
      by_cases hkl : k = list
      · rw [hkl, Function.update_self] at hk
        cases hk
      · rwa [Function.update_of_ne hkl] at hk
    refine ⟨⟨fun k ys hk => hr.circular k ys (hkept k ys hk), fun k j ys zs p hk hj => ?_⟩, rfl⟩
    exact hr.apart k j ys zs p (hkept k ys hk) (hkept j zs hj)
  | write node next prev =>
    refine ⟨⟨fun k ys hk => (hr.circular k ys hk).congr fun p hp => ?_, hr.apart⟩, rfl⟩
    have hne : p ≠ node := by
      rintro rfl
      exact hop k ys hk hp
    exact ⟨Function.update_of_ne hne _ _, Function.update_of_ne hne _ _⟩

lemma Represents.runCalls (hr : m.Represents Ls) {ops : List ListOp}
    (hops : Ls.PermittedAll ops) : (m.runCalls ops).1.Represents (ops.foldl Lists.step Ls) ∧
      Ls.ReturnsAll ops (m.runCalls ops).2 := by
  induction ops generalizing m Ls with
  | nil => exact ⟨hr, rfl⟩
  | cons op ops ih =>
    obtain ⟨hrep, hret⟩ := hr.call op hops.1
    obtain ⟨hall, hrets⟩ := ih hrep hops.2
    exact ⟨hall, _, _, rfl, hret, hrets⟩

/-! ## Reading a list -/

lemma Circular.listSizeLoop_eq (as : List ℕ) (hc : m.Circular h (as ++ bs)) {fuel : ℕ}
    (hfuel : bs.length < fuel) (cnt : ℕ) :
    m.listSizeLoop h fuel (bs.headD h) cnt = some (cnt + bs.length) := by
  induction bs generalizing as fuel cnt with
  | nil =>
    obtain ⟨fuel, rfl⟩ := Nat.exists_eq_add_of_lt hfuel
    rw [listSizeLoop, List.headD_nil, if_pos rfl]
    rfl
  | cons b bs ih =>
    obtain ⟨fuel, rfl⟩ := Nat.exists_eq_add_of_lt hfuel
    have hne := hc.notMem_before.2
    have hnext := hc.next_at
    rw [listSizeLoop, List.headD_cons, if_neg hne, hnext]
    rw [← List.singleton_append, ← List.append_assoc] at hc
    rw [ih _ hc (by rw [List.length_cons]; omega), List.length_cons]
    congr 1
    omega

lemma Circular.listSize_eq (hc : m.Circular h xs) {fuel : ℕ} (hfuel : xs.length < fuel) :
    m.listSize h fuel = some xs.length := by
  have hloop := Circular.listSizeLoop_eq [] hc hfuel 0
  rwa [Nat.zero_add, ← hc.next_eq] at hloop

lemma Circular.listIsEmpty_iff (hc : m.Circular h xs) : m.listIsEmpty h = true ↔ xs = [] := by
  rw [listIsEmpty, decide_eq_true_iff, hc.next_eq]
  cases xs with
  | nil => simp
  | cons x xs =>
    have hfront : m.Circular h ([] ++ x :: xs) := hc
    simp [hfront.notMem_before.2]

end Links

/-- **The lists in memory.**  Any sequence of calls that keep to the rules, for any number of lists,
leaves memory that holds the lists that the calls make, and returns what these say; then
`list_front`, `list_back`, `list_is_empty` and `list_size` find what is in them, and a loop that
takes off and frees the elements of one meets each once and ends. -/
theorem lists_represent (m : Links) (ops : List ListOp)
    (hops : Lists.PermittedAll (fun _ => none) ops) :
    (m.runCalls ops).1.Represents (ops.foldl Lists.step fun _ => none) ∧
      Lists.ReturnsAll (fun _ => none) ops (m.runCalls ops).2 ∧
      ∀ list xs, ops.foldl Lists.step (fun _ => none) list = some xs →
        (m.runCalls ops).1.listFront list = xs.headD list ∧
        (m.runCalls ops).1.listBack list = xs.getLastD list ∧
        ((m.runCalls ops).1.listIsEmpty list = true ↔ xs = []) ∧
        ∀ fuel > xs.length, (m.runCalls ops).1.listSize list fuel = some xs.length ∧
          Links.forEachFree list fuel ((m.runCalls ops).1.next list) (m.runCalls ops).1 [] =
            some xs := by
  have hstart : m.Represents fun _ => none := by
    refine ⟨fun h xs hh => ?_, fun h k xs ys p hh => ?_⟩
    · cases hh
    · cases hh
  obtain ⟨hr, hrets⟩ := hstart.runCalls hops
  refine ⟨hr, hrets, fun list xs hlist => ?_⟩
  have hc := hr.circular list xs hlist
  refine ⟨hc.next_eq, hc.prev_eq, hc.listIsEmpty_iff, fun fuel hfuel => ⟨hc.listSize_eq hfuel, ?_⟩⟩
  exact hc.forEachFree_eq [] (fun x _ => List.not_mem_nil) hfuel

lemma Lists.unused_of_two {Ls : Lists} {node : ℕ} {xs ys : List ℕ}
    (hothers : ∀ k, k ≠ 0 → k ≠ 1 → Ls k = none) (hxs : Ls 0 = some xs) (hys : Ls 1 = some ys)
    (hnode : node ∉ 0 :: xs ∧ node ∉ 1 :: ys) : Ls.Unused node := by
  intro k zs hk
  by_cases hk₀ : k = 0
  · rw [hk₀, hxs] at hk
    rw [hk₀, ← Option.some.inj hk]
    exact hnode.1
  · by_cases hk₁ : k = 1
    · rw [hk₁, hys] at hk
      rw [hk₁, ← Option.some.inj hk]
      exact hnode.2
    · rw [hothers k hk₀ hk₁] at hk
      cases hk

/-- Two lists; a node goes from the one to the other, and is written to in between. -/
def movingOps : List ListOp :=
  [.init 0, .init 1, .pushBack 0 2, .insert 2 3, .popFront 0, .write 3 7 7, .pushFront 1 3,
    .remove 2]

lemma permitted_movingOps : Lists.PermittedAll (fun _ => none) movingOps := by
  refine ⟨fun h xs hh => ?_, fun h xs hh hmem => ?_, ⟨⟨_, rfl⟩, ?_⟩, ⟨⟨0, _, rfl, by decide⟩, ?_⟩,
    ⟨_, rfl, by decide⟩, ?_, ⟨⟨_, rfl⟩, ?_⟩, ⟨0, _, rfl, by decide⟩, trivial⟩
  · cases hh
  · by_cases hzero : h = 0
    · subst hzero
      cases hh
      simp at hmem
    · rw [Lists.step, Function.update_of_ne hzero] at hh
      cases hh
  all_goals
    refine Lists.unused_of_two (fun k hk₀ hk₁ => ?_) rfl rfl (by decide)
    simp [Lists.step, hk₀, hk₁]

theorem lists_represent_moving :
    (Links.runCalls ⟨fun _ => 9, fun _ => 9⟩ movingOps).2 =
        [none, none, none, none, some 3, none, none, some 0] ∧
      (Links.runCalls ⟨fun _ => 9, fun _ => 9⟩ movingOps).1.listSize 0 5 = some 0 ∧
      (Links.runCalls ⟨fun _ => 9, fun _ => 9⟩ movingOps).1.listBack 1 = 3 := by
  obtain ⟨-, -, hread⟩ := lists_represent ⟨fun _ => 9, fun _ => 9⟩ movingOps permitted_movingOps
  obtain ⟨-, -, -, hsize⟩ := hread 0 [] rfl
  obtain ⟨-, hback, -, -⟩ := hread 1 [3] rfl
  exact ⟨by decide, (hsize 5 (by decide)).1, hback⟩

end Ipcf
