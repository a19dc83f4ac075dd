import Ipcf.Compact.Flow
import Ipcf.Framework.Lending
import Mathlib.Data.Nat.ModEq

/-!
# The id pool is a queue

`idpool.c` keeps the free ids in a circular array, from `head` to `tail`.  `available` is what
stands there, and `Holds` says that a pool in good order holds a given list: `get_id` takes its
first element (`Holds.getId`), and `release_id` appends one as long as there is room
(`Holds.releaseId`).  An empty pool and a full one have the same `head` and `tail`; the flag `empty`
keeps them apart.
-/

namespace Ipcf

namespace Idpool

/-- The ids in the pool, from `head` to `tail`. -/
def available (p : Idpool) : List ℕ :=
  if p.empty then []
  else (List.range ((p.tail + p.n - p.head) % p.n + 1)).map fun i =>
    p.pool.getD ((p.head + i) % p.n) 0

/-- The pool is in good order and holds these ids, in the order in which it gives them out. -/
structure Holds (p : Idpool) (ids : List ℕ) : Prop where
  length_eq : p.pool.length = p.n
  head_lt : p.head < p.n
  tail_lt : p.tail < p.n
  room : ids.length ≤ p.n
  cells : ∀ (i : ℕ) (h : i < ids.length), p.pool[(p.head + i) % p.n]? = some ids[i]
  tail : (p.head + ids.length) % p.n = (p.tail + 1) % p.n
  empty : p.empty = true ↔ ids = []

variable {p : Idpool} {ids : List ℕ}

lemma holds_initIdpool {n : ℕ} (hn : 0 < n) : (initIdpool n).Holds (List.range n) where
  length_eq := List.length_range
  head_lt := hn
  tail_lt := Nat.sub_lt hn Nat.one_pos
  room := Nat.le_of_eq List.length_range
  cells i hi := by
    rw [List.length_range] at hi
    simp only [initIdpool, Nat.zero_add, Nat.mod_eq_of_lt hi]
    rw [List.getElem?_eq_getElem (by rw [List.length_range]; exact hi)]
  tail := by simp [initIdpool, Nat.sub_add_cancel hn]
  empty := by simp [initIdpool, Nat.ne_of_gt hn]

/-- What is in the pool. -/
lemma Holds.available_eq (h : p.Holds ids) : p.available = ids := by
  have hhead := h.head_lt
  have hroom := h.room
  rw [available]
  split_ifs with hempty
  · exact (h.empty.1 hempty).symm
  · have hpos : 0 < ids.length := List.length_pos_iff.2 fun hnil => hempty (h.empty.2 hnil)
    have hcount : (p.tail + p.n - p.head) % p.n + 1 = ids.length := by
      have hmod : p.head + (p.tail + p.n - p.head) + 1 ≡
          p.head + (ids.length - 1) + 1 [MOD p.n] := by
        have hleft : p.head + (p.tail + p.n - p.head) + 1 = p.tail + 1 + p.n := by omega
        have hright : p.head + (ids.length - 1) + 1 = p.head + ids.length := by omega
        rw [hleft, hright, Nat.ModEq, Nat.add_mod_right, h.tail]
      have hcancel := Nat.ModEq.add_left_cancel' _ (Nat.ModEq.add_right_cancel' 1 hmod)
      rw [Nat.ModEq, Nat.mod_eq_of_lt (by omega : ids.length - 1 < p.n)] at hcancel
      omega
    rw [hcount]
    apply List.ext_getElem (by simp)
    intro i hi hi'
    rw [List.getElem_map, List.getElem_range, List.getD_eq_getElem?_getD, h.cells i hi']
    rfl

/-- Cells that are less than a turn apart are different. -/
lemma index_ne (p : Idpool) {i j : ℕ} (hij : i < j) (hj : j < p.n) :
    (p.head + i) % p.n ≠ (p.head + j) % p.n := by
  intro heq
  have hmod : i % p.n = j % p.n := Nat.ModEq.add_left_cancel' p.head heq
  rw [Nat.mod_eq_of_lt (by omega), Nat.mod_eq_of_lt hj] at hmod
  omega

/-! ## `get_id` -/

lemma Holds.getId_nil (h : p.Holds []) : getId p = (none, p) := by
  rw [getId, if_pos (h.empty.2 rfl)]

/-- The first id is given out. -/
lemma Holds.getId {id : ℕ} (h : p.Holds (id :: ids)) :
    (getId p).1 = some id ∧ (getId p).2.Holds ids := by
  have hroom := h.room
  rw [List.length_cons] at hroom
  have hnot : ¬ p.empty = true := by
    rw [h.empty]
    exact List.cons_ne_nil _ _
  have hcell := h.cells 0 (Nat.succ_pos _)
  rw [Nat.add_zero, Nat.mod_eq_of_lt h.head_lt] at hcell
  rw [Ipcf.getId, if_neg hnot]
  have hpos : 0 < p.n := Nat.lt_of_le_of_lt (Nat.zero_le _) h.head_lt
  have hroom' : ids.length ≤ p.n := Nat.le_of_succ_le hroom
  refine ⟨?_, ⟨h.length_eq, Nat.mod_lt _ hpos, h.tail_lt, hroom', fun i hi => ?_, ?_, ?_⟩⟩
  · rw [List.getD_eq_getElem?_getD, hcell]
    rfl
  · simp only [Nat.mod_add_mod]
    have hnext := h.cells (i + 1) (Nat.succ_lt_succ hi)
    rw [show p.head + 1 + i = p.head + (i + 1) by omega, hnext]
    rfl
  · simp only [Nat.mod_add_mod]
    rw [← h.tail, List.length_cons]
    congr 1
    omega
  · simp only [beq_iff_eq]
    have htail := h.tail
    rw [List.length_cons] at htail
    constructor
    · intro heq
      by_contra hne
      have hlen : 0 < ids.length := List.length_pos_iff.2 hne
      have hne' : (p.head + 1 + 0) % p.n ≠ (p.head + 1 + ids.length) % p.n :=
        index_ne { p with head := p.head + 1 } hlen (by simp only; omega)
      apply hne'
      rw [Nat.add_zero, show p.head + 1 + ids.length = p.head + (ids.length + 1) by omega, htail,
        heq]
    · rintro rfl
      have hmod : p.head % p.n = p.tail % p.n := Nat.ModEq.add_right_cancel' 1 htail
      rwa [Nat.mod_eq_of_lt h.head_lt, Nat.mod_eq_of_lt h.tail_lt] at hmod

/-! ## `release_id` -/

/-- With room, an id is appended. -/
lemma Holds.releaseId (h : p.Holds ids) (hroom : ids.length < p.n) (id : ℕ) :
    (releaseId p id).Holds (ids ++ [id]) := by
  have hpos : 0 < p.n := Nat.lt_of_le_of_lt (Nat.zero_le _) h.head_lt
  have hnotfull : (!p.empty && (p.tail + 1) % p.n == p.head) = false := by
    rw [Bool.and_eq_false_iff]
    by_cases hnil : ids = []
    · left
      rw [h.empty.2 hnil]
      rfl
    · right
      have hne := index_ne p (List.length_pos_iff.2 hnil) hroom
      rw [Nat.add_zero, Nat.mod_eq_of_lt h.head_lt, h.tail] at hne
      exact beq_eq_false_iff_ne.2 hne.symm
  rw [Ipcf.releaseId, hnotfull]
  simp only [Bool.false_eq_true, if_false]
  refine ⟨by rw [List.length_set]; exact h.length_eq, h.head_lt, Nat.mod_lt _ hpos, ?_,
    fun i hi => ?_, ?_, by simp⟩
  · rw [List.length_append, List.length_singleton]
    exact hroom
  · rw [List.length_append, List.length_singleton] at hi
    simp only [← h.tail, List.getElem?_set, List.getElem_append]
    by_cases hlast : i < ids.length
    · rw [if_neg (index_ne p hlast hroom).symm, dif_pos hlast]
      exact h.cells i hlast
    · have hi' : i = ids.length := by omega
      subst hi'
      have hlt : (p.head + ids.length) % p.n < p.pool.length := by
        rw [h.length_eq]
        exact Nat.mod_lt _ hpos
      simp [hlt]
  · rw [List.length_append, List.length_singleton, ← Nat.add_assoc]
    simp only [Nat.mod_add_mod]
    exact Nat.ModEq.add_right 1 h.tail

end Idpool

/-! ## Any calls -/

/-- A pool, and the ids that were handed out. -/
structure PoolUse where
  pool : Idpool
  lent : Lent ℕ

namespace PoolUse

def init (n : ℕ) : PoolUse := ⟨initIdpool n, ⟨[], []⟩⟩

/-- A call of `get_id`, or of `release_id` for an id that is out. -/
def step : Request ℕ → PoolUse → Option PoolUse
  | .get, x =>
    let r := getId x.pool
    some ⟨r.2, x.lent.take r.1⟩
  | .release id, x =>
    if id ∈ x.lent.out then some ⟨releaseId x.pool id, x.lent.giveBack id⟩ else none

def run : List (Request ℕ) → PoolUse → Option PoolUse
  | [], x => some x
  | r :: rs, x => (step r x).bind (run rs)

/-- The pool of `n` ids and the queue `q` have the same ids free and the same lent. -/
structure Refines (n : ℕ) (x : PoolUse) (q : Lending ℕ) : Prop where
  holds : x.pool.Holds q.free
  n_eq : x.pool.n = n
  lent : x.lent = q.lent

variable {n : ℕ} {freed : List ℕ} {x y : PoolUse} {q : Lending ℕ}

lemma refines_init (hn : 0 < n) : Refines n (init n) (Lending.init (List.range n)) :=
  ⟨Idpool.holds_initIdpool hn, rfl, rfl⟩

/-- While an id is out there is room in the pool. -/
lemma Refines.room (h : Refines n x q) (hfair : q.Fair (List.range n) freed) {id : ℕ}
    (hout : id ∈ x.lent.out) : q.free.length < x.pool.n := by
  have hlen := hfair.length_eq
  have hpos : 0 < q.lent.out.length := List.length_pos_of_mem (h.lent ▸ hout)
  rw [List.length_range] at hlen
  rw [h.n_eq]
  omega

/-- What `get_id` returns is the first of the queue. -/
lemma Refines.getId_eq (h : Refines n x q) :
    (getId x.pool).1 = q.free.head? ∧ (getId x.pool).2.Holds q.free.tail ∧
      (getId x.pool).2.n = n := by
  have hn : (getId x.pool).2.n = n := by
    rw [← h.n_eq, getId]
    split_ifs <;> rfl
  have hholds := h.holds
  cases hfree : q.free with
  | nil =>
    rw [hfree] at hholds
    rw [hholds.getId_nil] at hn ⊢
    exact ⟨rfl, hholds, hn⟩
  | cons id free =>
    rw [hfree] at hholds
    exact ⟨hholds.getId.1, hholds.getId.2, hn⟩

/-- A call of the pool is a request to the queue. -/
lemma Refines.step (h : Refines n x q) (hfair : q.Fair (List.range n) freed) {r : Request ℕ}
    (hstep : PoolUse.step r x = some y) : ∃ q', Lending.step r q = some q' ∧ Refines n y q' := by
  cases r with
  | get =>
    rw [PoolUse.step, Option.some.injEq] at hstep
    subst hstep
    obtain ⟨hid, hholds, hn⟩ := h.getId_eq
    exact ⟨_, rfl, hholds, hn, by rw [h.lent, hid]⟩
  | release id =>
    rw [PoolUse.step] at hstep
    split_ifs at hstep with hout
    rw [Option.some.injEq] at hstep
    subst hstep
    have hlend : Lending.step (.release id) q = some ⟨q.free ++ [id], q.lent.giveBack id⟩ := by
      rw [Lending.step, if_pos (h.lent ▸ hout)]
    refine ⟨_, hlend, h.holds.releaseId (h.room hfair hout) id, ?_, by rw [h.lent]⟩
    rw [← h.n_eq]
    simp only [releaseId]
    split_ifs <;> rfl

/-- **The pool lends like the queue.** -/
lemma Refines.run (h : Refines n x q) (hfair : q.Fair (List.range n) freed)
    {rs : List (Request ℕ)} (hrun : PoolUse.run rs x = some y) :
    ∃ q', Lending.run rs q = some q' ∧ Refines n y q' := by
  induction rs generalizing x q freed with
  | nil =>
    rw [PoolUse.run, Option.some.injEq] at hrun
    subst hrun
    exact ⟨q, rfl, h⟩
  | cons r rs ih =>
    obtain ⟨z, hz, hrest⟩ := Option.bind_eq_some_iff.1 hrun
    obtain ⟨q', hlend, hq'⟩ := h.step hfair hz
    obtain ⟨q'', hlends, hq''⟩ := ih hq' (hfair.step hlend) hrest
    refine ⟨q'', ?_, hq''⟩
    rw [Lending.run, hlend]
    exact hlends

/-- **The id pool.** After any calls of `get_id` and `release_id` in which only ids are released
that are out: the id that is handed out next is not out and below `n`, and there is none just when
`n` ids are out; no release is discarded; and the ids are handed out in the order in which they
became free, at first the numbers below `n`. -/
theorem lends_in_turn (hn : 1 ≤ n) {rs : List (Request ℕ)} (hrun : run rs (init n) = some x) :
    (∀ id, (getId x.pool).1 = some id → id ∉ x.lent.out ∧ id < n) ∧
    ((getId x.pool).1 = none ↔ x.lent.out.length = n) ∧
    (∀ id ∈ x.lent.out, (releaseId x.pool id).available = x.pool.available ++ [id]) ∧
    x.lent.issued ++ x.pool.available = List.range n ++ released rs := by
  obtain ⟨q, hlends, h⟩ := (refines_init hn).run (Lending.fair_init _) hrun
  have hfair := Lending.fair_run (Lending.fair_init _) hlends
  have hnext := h.getId_eq.1
  rw [hnext, h.holds.available_eq, h.lent]
  refine ⟨fun id hid => ?_, ?_, fun id hout => ?_, hfair.order⟩
  · have hfree : id ∈ q.free := List.mem_of_mem_head? hid
    have hall : id ∈ List.range n := hfair.all.subset (List.mem_append_left _ hfree)
    exact ⟨hfair.not_lent List.nodup_range hfree, List.mem_range.1 hall⟩
  · have hlen := hfair.length_eq
    rw [List.length_range] at hlen
    rw [List.head?_eq_none_iff, ← List.length_eq_zero_iff]
    omega
  · exact (h.holds.releaseId (h.room hfair (h.lent ▸ hout)) id).available_eq

/-- Two ids are handed out, a third is refused, and those that come back are handed out again. -/
theorem lends_in_turn_two : ∃ x, run [.get, .get, .get, .release 1, .release 0, .get] (init 2) =
      some x ∧ x.lent.issued ++ x.pool.available = [0, 1, 1, 0] := by
  have hrun : (run [.get, .get, .get, .release 1, .release 0, .get] (init 2)).isSome = true := by
    decide
  obtain ⟨x, hx⟩ := Option.isSome_iff_exists.1 hrun
  exact ⟨x, hx, (lends_in_turn (by decide) hx).2.2.2⟩

end PoolUse

end Ipcf
