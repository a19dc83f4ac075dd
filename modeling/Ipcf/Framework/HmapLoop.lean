import Ipcf.Framework.Hmap
import Mathlib.Data.List.Basic
import Mathlib.Data.List.TakeWhile

/-!
# Removing nodes in a loop

`HMAP_FOR_EACH_SAFE` as it runs: the node after the current one is looked up before the body, which
may take the current node off its chain.  A pointer to a node is the node itself, so the results are
about maps whose nodes are all different.

`forEachSafe_eq` is what such a loop comes to: it visits the nodes of the map that it started with,
each once, in the order of `nodes`, and what it removes is what `removeIf` removes.
-/

namespace Ipcf

namespace Hmap

variable {α σ : Type*}

/-- Where the nodes are, and how many, is all there is to a map. -/
lemma ext_nodes {m m' : Hmap α} (hmask : m.mask = m'.mask) (hn : m.n = m'.n)
    (hnodes : m.nodes = m'.nodes) : m = m' := by
  have hbucket : ∀ (m : Hmap α) (i : ℕ),
      m.buckets.getD i [] = m.nodes.filter fun x => x.1 &&& m.mask == i := by
    intro m i
    have hall : ∀ (ls : List (List (ℕ × α))) (j : ℕ),
        (∀ k, ∀ x ∈ ls.getD k [], x.1 &&& m.mask = j + k) →
        ls.flatten.filter (fun x => x.1 &&& m.mask == i) =
          if i < j then [] else ls.getD (i - j) [] := by
      intro ls
      induction ls with
      | nil => simp
      | cons l ls ih =>
        intro j hplaced
        have hhead : ∀ x ∈ l, x.1 &&& m.mask = j := fun x hx => hplaced 0 x hx
        have hrest := ih (j + 1) fun k x hx => by
          rw [Nat.add_assoc, Nat.add_comm 1 k]
          exact hplaced (k + 1) x hx
        rw [List.flatten_cons, List.filter_append, hrest]
        rcases Nat.lt_trichotomy i j with hlt | rfl | hgt
        · rw [if_pos hlt, if_pos (Nat.lt_succ_of_lt hlt), List.append_nil, List.filter_eq_nil_iff]
          intro x hx
          rw [hhead x hx, beq_iff_eq]
          exact Nat.ne_of_gt hlt
        · rw [if_pos (Nat.lt_succ_self i), if_neg (Nat.lt_irrefl i), List.append_nil, Nat.sub_self,
            List.filter_eq_self.2]
          · rfl
          · intro x hx
            rw [hhead x hx, beq_self_eq_true]
        · rw [if_neg (Nat.not_lt.2 hgt), if_neg (Nat.not_lt.2 (Nat.le_of_lt hgt)),
            List.filter_eq_nil_iff.2, List.nil_append]
          · obtain ⟨d, rfl⟩ := Nat.exists_eq_add_of_lt hgt
            rw [show j + d + 1 - (j + 1) = d by omega, show j + d + 1 - j = d + 1 by omega]
            rfl
          · intro x hx
            rw [hhead x hx, beq_iff_eq]
            exact Nat.ne_of_lt hgt
    have h := hall m.buckets 0 fun k x hx => by
      rw [Nat.zero_add]
      exact m.placed k x hx
    rw [nodes, h, if_neg (Nat.not_lt_zero _), Nat.sub_zero]
  have hbuckets : m.buckets = m'.buckets := by
    apply List.ext_getElem (by rw [m.length_eq, m'.length_eq, hmask])
    intro i hi hi'
    have h := hbucket m i
    rw [hnodes, hmask, ← hbucket m' i, List.getD_eq_getElem _ _ hi,
      List.getD_eq_getElem _ _ hi'] at h
    exact h
  obtain ⟨buckets, mask, n, hlen, hplaced⟩ := m
  obtain ⟨buckets', mask', n', hlen', hplaced'⟩ := m'
  cases hmask
  cases hn
  cases hbuckets
  rfl

/-- In a list without repetition a node stands in one place. -/
lemma eq_of_split {x : ℕ × α} {pre post front back : List (ℕ × α)}
    (hnodup : (pre ++ x :: post).Nodup) (heq : pre ++ x :: post = front ++ x :: back) :
    pre = front ∧ post = back := by
  have hparts := List.nodup_append.1 hnodup
  have hpre : x ∉ pre := fun hmem => hparts.2.2 x hmem x List.mem_cons_self rfl
  have hpost : x ∉ post := (List.nodup_cons.1 hparts.2.1).1
  obtain ⟨hfront, -, hback⟩ := (List.append_cons_inj_of_notMem hpre hpost).1 heq
  exact ⟨hfront, hback⟩

/-- Where a node is: its chain, and the chains before and behind. -/
lemma exists_chain {m : Hmap α} {x : ℕ × α} {pre post : List (ℕ × α)} (hnodup : m.nodes.Nodup)
    (hnodes : m.nodes = pre ++ x :: post) :
    ∃ before front back behind, m.buckets = before ++ (front ++ x :: back) :: behind ∧
      before.length = x.1 &&& m.mask ∧ pre = before.flatten ++ front ∧
      post = back ++ behind.flatten := by
  have hx : x ∈ m.nodes := by
    rw [hnodes]
    exact List.mem_append_right _ List.mem_cons_self
  rw [mem_nodes_iff] at hx
  set i := x.1 &&& m.mask with hi
  have hlt : i < m.buckets.length := by
    rw [m.length_eq]
    exact Nat.lt_succ_of_le Nat.and_le_right
  rw [List.getD_eq_getElem _ _ hlt] at hx
  obtain ⟨front, back, hchain⟩ := List.append_of_mem hx
  have hbuckets : m.buckets =
      m.buckets.take i ++ (front ++ x :: back) :: m.buckets.drop (i + 1) := by
    rw [← hchain, ← List.drop_eq_getElem_cons hlt, List.take_append_drop]
  refine ⟨m.buckets.take i, front, back, m.buckets.drop (i + 1), hbuckets, ?_, ?_⟩
  · rw [List.length_take, Nat.min_eq_left (Nat.le_of_lt hlt)]
  · apply eq_of_split (hnodes ▸ hnodup)
    calc pre ++ x :: post = m.buckets.flatten := hnodes.symm
      _ = (m.buckets.take i ++ (front ++ x :: back) :: m.buckets.drop (i + 1)).flatten :=
        congrArg List.flatten hbuckets
      _ = _ := by simp [List.append_assoc]

variable [DecidableEq α]

/-! ## The loop -/

/-- `hmap_remove` -/
def remove (m : Hmap α) (x : ℕ × α) : Hmap α where
  buckets := m.buckets.modify (x.1 &&& m.mask) fun chain => chain.erase x
  mask := m.mask
  n := m.n - 1
  length_eq := by rw [List.length_modify]; exact m.length_eq
  placed := m.placed_modify fun chain y hy => .inl (List.mem_of_mem_erase hy)

/-- `hmap_next__` -/
def firstFrom (m : Hmap α) (start : ℕ) : Option (ℕ × α) := (m.buckets.drop start).flatten.head?

/-- `hmap_next`: the node behind this one in its chain, or the first one of a later chain. -/
def next (m : Hmap α) (x : ℕ × α) : Option (ℕ × α) :=
  match ((m.buckets.getD (x.1 &&& m.mask) []).dropWhile fun y => y != x).tail.head? with
  | some y => some y
  | none => m.firstFrom ((x.1 &&& m.mask) + 1)

/-- `HMAP_FOR_EACH_SAFE` over the map in a state, from the current node on. -/
def forEachSafe (map : σ → Hmap α) (body : σ → ℕ × α → σ) : (fuel : ℕ) → Option (ℕ × α) → σ → σ
  | 0, _, s => s
  | _ + 1, none, s => s
  | fuel + 1, some x, s => forEachSafe map body fuel ((map s).next x) (body s x)

/-! ## What the loop comes to -/

section

variable {m : Hmap α} {x : ℕ × α} {pre post : List (ℕ × α)}

/-- The next node is the next one in `nodes`. -/
lemma next_eq (hnodup : m.nodes.Nodup) (hnodes : m.nodes = pre ++ x :: post) :
    m.next x = post.head? := by
  obtain ⟨before, front, back, behind, hbuckets, hlen, rfl, rfl⟩ := exists_chain hnodup hnodes
  rw [hnodes] at hnodup
  have hchain : m.buckets.getD (x.1 &&& m.mask) [] = front ++ x :: back := by
    rw [hbuckets, ← hlen, List.getD_eq_getElem?_getD, List.getElem?_append_right (Nat.le_refl _),
      Nat.sub_self]
    rfl
  have hdrop : m.buckets.drop ((x.1 &&& m.mask) + 1) = behind := by
    rw [hbuckets, ← hlen, List.drop_append, List.drop_eq_nil_of_le (Nat.le_succ _), List.nil_append,
      Nat.add_sub_cancel_left]
    rfl
  have hfront : ∀ y ∈ front, (y != x) = true := by
    intro y hy
    rw [bne_iff_ne]
    rintro rfl
    exact (List.nodup_append.1 hnodup).2.2 y (List.mem_append_right _ hy) y List.mem_cons_self rfl
  rw [next, hchain, List.dropWhile_append_of_pos hfront,
    List.dropWhile_cons_of_neg (by simp), List.tail_cons, firstFrom, hdrop]
  cases back with
  | nil => rfl
  | cons y back => rfl

/-- Taking a node off its chain. -/
lemma nodes_remove (hnodup : m.nodes.Nodup) (hnodes : m.nodes = pre ++ x :: post) :
    (m.remove x).nodes = pre ++ post := by
  obtain ⟨before, front, back, behind, hbuckets, hlen, rfl, rfl⟩ := exists_chain hnodup hnodes
  rw [hnodes] at hnodup
  have hfront : x ∉ front := fun hmem =>
    (List.nodup_append.1 hnodup).2.2 x (List.mem_append_right _ hmem) x List.mem_cons_self rfl
  change (m.buckets.modify (x.1 &&& m.mask) fun chain => chain.erase x).flatten = _
  rw [hbuckets, ← hlen, List.modify_eq_take_cons_drop (by simp)]
  simp [List.erase_append_right _ hfront, List.append_assoc]

end

section

variable {map : σ → Hmap α} {body : σ → ℕ × α → σ} {test : α → Bool}
  (hbody : ∀ s x, map (body s x) = if test x.2 then (map s).remove x else map s)

include hbody

/-- The loop, from the first of the nodes `rest` on, with the nodes `kept` behind it: the next node
is looked up before the current one may go, so it is the next of `rest`. -/
lemma forEachSafe_rest (rest : List (ℕ × α)) {kept : List (ℕ × α)} {s : σ} {fuel : ℕ}
    (hnodes : (map s).nodes = kept ++ rest) (hnodup : (map s).nodes.Nodup)
    (hfuel : rest.length ≤ fuel) :
    forEachSafe map body fuel rest.head? s = rest.foldl body s ∧
      (map (rest.foldl body s)).nodes = kept ++ rest.filter (fun x => !test x.2) ∧
      (map (rest.foldl body s)).mask = (map s).mask ∧
      (map (rest.foldl body s)).n = (map s).n - (rest.filter fun x => test x.2).length := by
  induction rest generalizing kept s fuel with
  | nil => cases fuel <;> exact ⟨rfl, hnodes, rfl, rfl⟩
  | cons x rest ih =>
    cases fuel with
    | zero => cases hfuel
    | succ fuel =>
      have hlen := Nat.le_of_succ_le_succ hfuel
      have hnext := next_eq hnodup hnodes
      rw [List.head?_cons, forEachSafe, hnext, List.foldl_cons]
      have hmap := hbody s x
      cases htest : test x.2 with
      | true =>
        rw [htest, if_pos rfl] at hmap
        have hrest : (map (body s x)).nodes = kept ++ rest := by
          rw [hmap]
          exact nodes_remove hnodup hnodes
        obtain ⟨hloop, hleft, hmask, hn⟩ := ih hrest (by
          rw [hrest]
          rw [hnodes] at hnodup
          exact hnodup.sublist ((List.sublist_cons_self x rest).append_left kept)) hlen
        refine ⟨hloop, ?_, ?_, ?_⟩
        · rw [hleft, List.filter_cons_of_neg (by simp [htest])]
        · rw [hmask, hmap]
          rfl
        · have hcount : ((x :: rest).filter fun y => test y.2).length =
              (rest.filter fun y => test y.2).length + 1 := by simp [htest]
          rw [hn, hmap, hcount]
          change (map s).n - 1 - _ = _
          omega
      | false =>
        rw [htest, if_neg Bool.false_ne_true] at hmap
        have hrest : (map (body s x)).nodes = (kept ++ [x]) ++ rest := by
          rw [hmap, hnodes, List.append_assoc]
          rfl
        obtain ⟨hloop, hleft, hmask, hn⟩ := ih hrest (by rw [hmap]; exact hnodup) hlen
        refine ⟨hloop, ?_, ?_, ?_⟩
        · rw [hleft, List.filter_cons_of_pos (by simp [htest]), List.append_assoc]
          rfl
        · rw [hmask, hmap]
        · rw [hn, hmap, List.filter_cons_of_neg (by simp [htest])]

/-- **Removing in a loop.**  The body is run once for each node that was there at first, and the map
that is left is the one without those that the body removes. -/
lemma forEachSafe_eq {s : σ} {fuel : ℕ} (hnodup : (map s).nodes.Nodup)
    (hfuel : (map s).nodes.length ≤ fuel) :
    forEachSafe map body fuel ((map s).firstFrom 0) s = (map s).nodes.foldl body s ∧
      map ((map s).nodes.foldl body s) = (map s).removeIf test := by
  obtain ⟨hloop, hnodes, hmask, hn⟩ :=
    forEachSafe_rest hbody (map s).nodes (List.nil_append _).symm hnodup hfuel
  refine ⟨hloop, ext_nodes hmask hn ?_⟩
  rw [hnodes, List.nil_append, nodes_removeIf]

end

end Hmap

end Ipcf
