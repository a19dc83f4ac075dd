import Ipcf.Lock
import Mathlib.Data.Finset.Max

/-!
# Light locks in order

Threads that use many light locks.  What a call does with them is a list of `LockOp`s; a thread that
is in a call does its next atomic step (`System.move`), and an idle one may begin any of its calls.
Each lock by itself is a run of `LightLock` (`Moves.own`), so that what `Sound` says of one lock
holds of every lock.  A lock may be destroyed at any time; what becomes of a thread that uses it
afterwards is undefined, and it has no step here.

A call keeps the order if it takes no lock of a rank that is not above the ranks of all that it
holds, gives back only what it holds, and holds nothing at its end (`holding`).  When all calls keep
the order, then in every state that can be reached the calls that were begun come to their end,
whichever thread goes on first: some thread always can, unless a lock was destroyed that a call
still needs (`Dangling`), and each step brings the end nearer (`Completes`).
-/

namespace Ipcf

namespace LightLock

/-- `_lock`, `_unlock` and `_lock_destroy`. -/
inductive LockOp (κ : Type*)
  | lock (l : κ)
  | unlock (l : κ)
  | destroy (l : κ)

/-- The lock of an operation. -/
def LockOp.name {κ : Type*} : LockOp κ → κ
  | lock l => l
  | unlock l => l
  | destroy l => l

/-- Where a thread is in its next operation: before it, at `sem_wait` of `_lock`, or at `sem_post`
of `_unlock`. -/
inductive Phase
  | ready
  | waiting
  | posting
  deriving DecidableEq

/-- What is left of a thread's call, and the locks that it holds. -/
structure Thread (κ : Type*) where
  todo : List (LockOp κ)
  held : List κ
  phase : Phase

/-- Locks, which of them were destroyed, and the threads that use them. -/
structure System (ι κ : Type*) where
  lock : κ → LightLock
  gone : κ → Bool
  thread : ι → Thread κ

variable {ι κ : Type*}

namespace System

/-- Every lock is as `_lock_init` leaves it, which is zero, as static memory is. -/
def init : System ι κ := ⟨fun _ => lockInit, fun _ => false, fun _ => ⟨[], [], .ready⟩⟩

section

variable [DecidableEq ι] [DecidableEq κ]

def goto (s : System ι κ) (i : ι) (l : κ) (lock : LightLock) (t : Thread κ) : System ι κ :=
  ⟨Function.update s.lock l lock, s.gone, Function.update s.thread i t⟩

/-- The next step of thread `i` in its call; a thread that is blocked has none, and neither has one
that comes to a lock that was destroyed. -/
def move (i : ι) (s : System ι κ) : Option (System ι κ) :=
  match s.thread i with
  | ⟨[], _, _⟩ => none
  | ⟨op :: ops, held, phase⟩ =>
    if s.gone op.name then none
    else
      match op, phase with
      | .lock l, .ready =>
        let (old, lock) := (s.lock l).fetchAdd
        some (s.goto i l lock
          (if old > 0 then ⟨.lock l :: ops, held, .waiting⟩ else ⟨ops, l :: held, .ready⟩))
      | .lock l, .waiting =>
        (s.lock l).semWait.map fun lock => s.goto i l lock ⟨ops, l :: held, .ready⟩
      | .unlock l, .ready =>
        let (new, lock) := (s.lock l).subFetch
        some (s.goto i l lock
          (if new > 0 then ⟨.unlock l :: ops, held.erase l, .posting⟩
            else ⟨ops, held.erase l, .ready⟩))
      | .unlock l, .posting => some (s.goto i l (s.lock l).semPost ⟨ops, held, .ready⟩)
      | .destroy l, .ready => some
          { s.goto i l (s.lock l) ⟨ops, held, .ready⟩ with gone := Function.update s.gone l true }
      | _, _ => none

/-- The threads of `is` do a step each, in this order. -/
def moves : (is : List ι) → System ι κ → Option (System ι κ)
  | [], s => some s
  | i :: is, s => (move i s).bind (moves is)

/-- Thread `i` begins a call. -/
def begin (i : ι) (ops : List (LockOp κ)) (s : System ι κ) : System ι κ :=
  { s with thread := Function.update s.thread i ⟨ops, [], .ready⟩ }

end

/-- No thread is in a call. -/
def Idle (s : System ι κ) : Prop := ∀ i, (s.thread i).todo = []

/-- A lock was destroyed that a call still needs. -/
def Dangling (s : System ι κ) : Prop := ∃ i, ∃ op ∈ (s.thread i).todo, s.gone op.name = true

end System

section

variable [DecidableEq ι] [DecidableEq κ]

/-- A thread goes on with its call, or an idle one begins one of its calls. -/
inductive SystemStep (calls : ι → Set (List (LockOp κ))) (s : System ι κ) : System ι κ → Prop
  | move (i : ι) {s' : System ι κ} (h : s.move i = some s') : SystemStep calls s s'
  | begin (i : ι) (ops : List (LockOp κ)) (hidle : (s.thread i).todo = []) (h : ops ∈ calls i) :
    SystemStep calls s (s.begin i ops)

def SystemReach (calls : ι → Set (List (LockOp κ))) : System ι κ → Prop :=
  Relation.ReflTransGen (SystemStep calls) System.init

variable {calls : ι → Set (List (LockOp κ))} {s s' : System ι κ}

lemma SystemReach.moves (h : SystemReach calls s) (is : List ι) (hmoves : s.moves is = some s') :
    SystemReach calls s' := by
  induction is generalizing s with
  | nil =>
    obtain rfl := Option.some.inj hmoves
    exact h
  | cons i is ih =>
    obtain ⟨s₁, hs₁, hrest⟩ := Option.bind_eq_some_iff.1 hmoves
    exact ih (h.tail (.move i hs₁)) hrest

/-! ## The order -/

/-- What is held after these operations, by one that holds `held` before; `none` if a lock is taken
out of order, or given back that is not held. -/
def holding (rank : κ → ℕ) : (held : List κ) → List (LockOp κ) → Option (List κ)
  | held, [] => some held
  | held, .lock l :: ops =>
    if ∀ k ∈ held, rank k < rank l then holding rank (l :: held) ops else none
  | held, .unlock l :: ops => if l ∈ held then holding rank (held.erase l) ops else none
  | held, .destroy _ :: ops => holding rank held ops

variable {rank : κ → ℕ} {held : List κ} {ops : List (LockOp κ)} {l k : κ}

lemma holding_append (held : List κ) (ops ops' : List (LockOp κ)) :
    holding rank held (ops ++ ops') =
      (holding rank held ops).bind fun held' => holding rank held' ops' := by
  induction ops generalizing held with
  | nil => rfl
  | cons op ops ih =>
    cases op with
    | lock l =>
      rw [List.cons_append, holding, holding]
      split_ifs
      · exact ih _
      · rfl
    | unlock l =>
      rw [List.cons_append, holding, holding]
      split_ifs
      · exact ih _
      · rfl
    | destroy l => exact ih held

/-- Operations that hold nothing of their own at their end. -/
def Neutral (rank : κ → ℕ) (held : List κ) (ops : List (LockOp κ)) : Prop :=
  holding rank held ops = some held

lemma neutral_nil : Neutral rank held [] := rfl

lemma neutral_destroy (l : κ) : Neutral rank held [.destroy l] := rfl

lemma Neutral.append {ops' : List (LockOp κ)} (h : Neutral rank held ops)
    (h' : Neutral rank held ops') : Neutral rank held (ops ++ ops') := by
  rw [Neutral, holding_append, h]
  exact h'

lemma neutral_flatMap {α : Type*} {xs : List α} {f : α → List (LockOp κ)}
    (h : ∀ x ∈ xs, Neutral rank held (f x)) : Neutral rank held (xs.flatMap f) := by
  induction xs with
  | nil => exact neutral_nil
  | cons x xs ih =>
    rw [List.flatMap_cons]
    exact (h x List.mem_cons_self).append (ih fun y hy => h y (List.mem_cons_of_mem _ hy))

lemma neutral_ite {c : Prop} [Decidable c] {ops' : List (LockOp κ)} (h : Neutral rank held ops)
    (h' : Neutral rank held ops') : Neutral rank held (if c then ops else ops') := by
  split_ifs
  · exact h
  · exact h'

/-- Operations under a lock. -/
def critical (l : κ) (ops : List (LockOp κ)) : List (LockOp κ) := .lock l :: ops ++ [.unlock l]

lemma Neutral.critical (h : Neutral rank (l :: held) ops) (hl : ∀ k ∈ held, rank k < rank l) :
    Neutral rank held (critical l ops) := by
  rw [Neutral, LightLock.critical, List.cons_append, holding, if_pos hl, holding_append, h,
    Option.bind_some, holding, if_pos List.mem_cons_self, List.erase_cons_head]
  rfl

/-! ## One lock of many -/

/-- Where a thread is with regard to the lock `l`. -/
def Thread.pc (l : κ) (t : Thread κ) : Pc :=
  match t.todo, t.phase with
  | .lock k :: _, .waiting => if k = l then .waiting else if l ∈ t.held then .inside else .outside
  | .unlock k :: _, .posting => if k = l then .posting else if l ∈ t.held then .inside else .outside
  | _, _ => if l ∈ t.held then .inside else .outside

/-- The thread keeps the order in what is left of its call. -/
structure Thread.Ordered (rank : κ → ℕ) (t : Thread κ) : Prop where
  nodup : t.held.Nodup
  rest : match t.todo, t.phase with
    | _, .ready => holding rank t.held t.todo = some []
    | .lock l :: ops, .waiting => holding rank t.held (.lock l :: ops) = some []
    | .unlock l :: ops, .posting => l ∉ t.held ∧ holding rank t.held ops = some []
    | _, _ => False

/-- The threads as they are with regard to one lock. -/
def System.at (s : System ι κ) (l : κ) : Shared ι := ⟨s.lock l, fun i => (s.thread i).pc l⟩

lemma System.goto_thread (s : System ι κ) (i j : ι) (l : κ) (lock : LightLock) (t : Thread κ) :
    (s.goto i l lock t).thread j = if j = i then t else s.thread j := Function.update_apply _ _ _ _

omit [DecidableEq κ] in
lemma System.begin_thread (s : System ι κ) (i j : ι) (ops : List (LockOp κ)) :
    (s.begin i ops).thread j = if j = i then ⟨ops, [], .ready⟩ else s.thread j :=
  Function.update_apply _ _ _ _

lemma Thread.phase_of_waiting {t : Thread κ} (h : t.pc l = .waiting) :
    t.phase = .waiting ∧ t.todo.head? = some (.lock l) := by
  rcases t with ⟨_ | ⟨⟨k⟩ | ⟨k⟩ | ⟨k⟩, ops⟩, held, _ | _ | _⟩ <;> simp only [Thread.pc] at h <;>
    split_ifs at h with hk
  rw [← hk]
  exact ⟨rfl, rfl⟩

lemma Thread.phase_of_posting {t : Thread κ} (h : t.pc l = .posting) :
    t.phase = .posting ∧ t.todo ≠ [] := by
  rcases t with ⟨_ | ⟨⟨k⟩ | ⟨k⟩ | ⟨k⟩, ops⟩, held, _ | _ | _⟩ <;> simp only [Thread.pc] at h <;>
    split_ifs at h
  exact ⟨rfl, List.cons_ne_nil _ _⟩

lemma Thread.held_of_inside {t : Thread κ} (h : t.pc l = .inside) : l ∈ t.held := by
  rcases t with ⟨_ | ⟨⟨k⟩ | ⟨k⟩ | ⟨k⟩, ops⟩, held, _ | _ | _⟩ <;> simp only [Thread.pc] at h <;>
    split_ifs at h <;> assumption

lemma System.at_goto (s : System ι κ) (i : ι) (l : κ) (lock : LightLock) (t : Thread κ) :
    (s.goto i l lock t).at l = (s.at l).goto i (t.pc l) lock := by
  simp only [System.at, System.goto, Shared.goto, Function.update_self, Shared.mk.injEq, true_and]
  funext j
  by_cases hj : j = i
  · rw [hj, Function.update_self, Function.update_self]
  · rw [Function.update_of_ne hj, Function.update_of_ne hj]

/-- Another lock does not notice. -/
lemma System.at_goto_of_ne (s : System ι κ) (i : ι) {l k : κ} (hk : k ≠ l) (lock : LightLock)
    {t : Thread κ} (ht : t.pc k = (s.thread i).pc k) : (s.goto i l lock t).at k = s.at k := by
  simp only [System.at, System.goto, Function.update_of_ne hk, Shared.mk.injEq, true_and]
  funext j
  by_cases hj : j = i
  · rw [hj, Function.update_self, ht]
  · rw [Function.update_of_ne hj]

lemma holding_lock {ops' : List κ} (h : holding rank held (.lock l :: ops) = some ops') :
    l ∉ held ∧ (∀ k ∈ held, rank k < rank l) ∧ holding rank (l :: held) ops = some ops' := by
  rw [holding] at h
  split_ifs at h with hrank
  exact ⟨fun hl => Nat.lt_irrefl _ (hrank l hl), hrank, h⟩

lemma holding_unlock {ops' : List κ} (h : holding rank held (.unlock l :: ops) = some ops') :
    l ∈ held ∧ holding rank (held.erase l) ops = some ops' := by
  rw [holding] at h
  split_ifs at h with hl
  exact ⟨hl, h⟩

/-- The steps that a thread may still have to do in its call. -/
def Thread.work (t : Thread κ) : ℕ := 2 * t.todo.length - if t.phase = .ready then 0 else 1

/-- A step of a thread: what becomes of its lock and of the thread; the lock sees one of its own
steps, or none if it is destroyed, and the others none, and the end of the call is nearer. -/
structure System.Moves (rank : κ → ℕ) (s : System ι κ) (i : ι) (l : κ) (lock : LightLock)
    (t : Thread κ) : Prop where
  ordered : t.Ordered rank
  own : LightLock.step i (s.at l) = some ((s.goto i l lock t).at l) ∨
    (s.goto i l lock t).at l = s.at l
  others : ∀ k, k ≠ l → t.pc k = (s.thread i).pc k
  less : t.work < (s.thread i).work

section

variable {s : System ι κ} {i : ι}

lemma System.moves_fetchAdd (ht : s.thread i = ⟨.lock l :: ops, held, .ready⟩)
    (hi : (s.thread i).Ordered rank) :
    s.Moves rank i l (s.lock l).fetchAdd.2 (if (s.lock l).fetchAdd.1 > 0
      then ⟨.lock l :: ops, held, .waiting⟩ else ⟨ops, l :: held, .ready⟩) := by
  rw [ht] at hi
  obtain ⟨hl, -, hrest⟩ := holding_lock hi.rest
  have hpc : (s.at l).pc i = .outside := by simp [System.at, ht, Thread.pc, hl]
  refine ⟨?_, ?_, fun k hk => ?_, ?_⟩
  · split_ifs
    · exact ⟨hi.nodup, hi.rest⟩
    · exact ⟨List.nodup_cons.2 ⟨hl, hi.nodup⟩, hrest⟩
  · left
    rw [LightLock.step, hpc, System.at_goto, apply_ite (Thread.pc l)]
    simp [System.at, Thread.pc]
  · rw [ht]
    split_ifs <;> simp [Thread.pc, hk, hk.symm]
  · rw [ht]
    split_ifs <;> simp only [Thread.work, List.length_cons, reduceCtorEq, if_true, if_false] <;>
      omega

lemma System.moves_semWait (ht : s.thread i = ⟨.lock l :: ops, held, .waiting⟩)
    (hi : (s.thread i).Ordered rank) {lock : LightLock} (hlock : (s.lock l).semWait = some lock) :
    s.Moves rank i l lock ⟨ops, l :: held, .ready⟩ := by
  rw [ht] at hi
  obtain ⟨hl, -, hrest⟩ := holding_lock hi.rest
  have hpc : (s.at l).pc i = .waiting := by simp [System.at, ht, Thread.pc]
  refine ⟨⟨List.nodup_cons.2 ⟨hl, hi.nodup⟩, hrest⟩, ?_, fun k hk => ?_, ?_⟩
  · left
    rw [LightLock.step, hpc, System.at_goto]
    simp only [System.at, hlock]
    simp [Thread.pc]
  · rw [ht]
    simp [Thread.pc, hk, hk.symm]
  · rw [ht]
    simp [Thread.work]
    omega

lemma System.moves_subFetch (ht : s.thread i = ⟨.unlock l :: ops, held, .ready⟩)
    (hi : (s.thread i).Ordered rank) :
    s.Moves rank i l (s.lock l).subFetch.2 (if (s.lock l).subFetch.1 > 0
      then ⟨.unlock l :: ops, held.erase l, .posting⟩ else ⟨ops, held.erase l, .ready⟩) := by
  rw [ht] at hi
  obtain ⟨hl, hrest⟩ := holding_unlock hi.rest
  have hgone : l ∉ held.erase l := hi.nodup.not_mem_erase
  have hpc : (s.at l).pc i = .inside := by
    simp only [System.at, ht, Thread.pc]
    exact if_pos hl
  refine ⟨?_, ?_, fun k hk => ?_, ?_⟩
  · split_ifs
    · exact ⟨hi.nodup.erase l, hgone, hrest⟩
    · exact ⟨hi.nodup.erase l, hrest⟩
  · left
    rw [LightLock.step, hpc, System.at_goto, apply_ite (Thread.pc l)]
    simp [System.at, Thread.pc, hgone]
  · rw [ht]
    split_ifs <;> simp [Thread.pc, List.mem_erase_of_ne hk, hk.symm]
  · rw [ht]
    split_ifs <;> simp only [Thread.work, List.length_cons, reduceCtorEq, if_true, if_false] <;>
      omega

lemma System.moves_semPost (ht : s.thread i = ⟨.unlock l :: ops, held, .posting⟩)
    (hi : (s.thread i).Ordered rank) : s.Moves rank i l (s.lock l).semPost ⟨ops, held, .ready⟩ := by
  rw [ht] at hi
  obtain ⟨hl, hrest⟩ := hi.rest
  have hpc : (s.at l).pc i = .posting := by simp [System.at, ht, Thread.pc]
  refine ⟨⟨hi.nodup, hrest⟩, ?_, fun k hk => ?_, ?_⟩
  · left
    rw [LightLock.step, hpc, System.at_goto]
    simp only [System.at]
    simp [Thread.pc, hl]
  · rw [ht]
    simp [Thread.pc, hk.symm]
  · rw [ht]
    simp [Thread.work]
    omega

lemma System.moves_destroy (ht : s.thread i = ⟨.destroy l :: ops, held, .ready⟩)
    (hi : (s.thread i).Ordered rank) : s.Moves rank i l (s.lock l) ⟨ops, held, .ready⟩ := by
  rw [ht] at hi
  have hpc : ∀ k, Thread.pc k ⟨ops, held, .ready⟩ = (s.thread i).pc k := by
    intro k
    rw [ht]
    simp [Thread.pc]
  refine ⟨⟨hi.nodup, hi.rest⟩, .inr ?_, fun k _ => hpc k, ?_⟩
  · rw [System.at_goto, hpc l]
    exact congrArg (Shared.mk _) (Function.update_eq_self i fun j => (s.thread j).pc l)
  · rw [ht]
    simp [Thread.work]

end

/-- **One step** of a thread. -/
lemma System.move_spec {s s' : System ι κ} {i : ι} (hi : (s.thread i).Ordered rank)
    (h : s.move i = some s') :
    ∃ l lock gone t, s' = { s.goto i l lock t with gone := gone } ∧ s.Moves rank i l lock t := by
  rcases ht : s.thread i with ⟨_ | ⟨op, ops⟩, held, phase⟩
  · simp only [System.move, ht, reduceCtorEq] at h
  by_cases hgone : s.gone op.name = true
  · simp only [System.move, ht, hgone, if_true, reduceCtorEq] at h
  simp only [System.move, ht] at h
  rw [if_neg hgone] at h
  rcases op with ⟨l⟩ | ⟨l⟩ | ⟨l⟩ <;> rcases phase with _ | _ | _ <;> simp only [reduceCtorEq] at h
  · exact ⟨l, _, _, _, (Option.some.inj h).symm, System.moves_fetchAdd ht hi⟩
  · obtain ⟨lock, hlock, rfl⟩ := Option.map_eq_some_iff.1 h
    exact ⟨l, _, _, _, rfl, System.moves_semWait ht hi hlock⟩
  · exact ⟨l, _, _, _, (Option.some.inj h).symm, System.moves_subFetch ht hi⟩
  · exact ⟨l, _, _, _, (Option.some.inj h).symm, System.moves_semPost ht hi⟩
  · exact ⟨l, _, _, _, (Option.some.inj h).symm, System.moves_destroy ht hi⟩

/-! ## Runs -/

variable [Fintype ι]

/-- Every thread keeps the order, and every lock is sound. -/
structure System.Governed (rank : κ → ℕ) (s : System ι κ) : Prop where
  ordered : ∀ i, (s.thread i).Ordered rank
  sound : ∀ l, Sound (s.at l)

variable {i : ι}

omit [DecidableEq ι] in
lemma System.governed_init : (System.init : System ι κ).Governed rank where
  ordered _ := ⟨List.nodup_nil, rfl⟩
  sound _ := sound_init

lemma System.Governed.move (h : s.Governed rank) (hcard : Fintype.card ι < 2 ^ 32)
    (hmove : s.move i = some s') : s'.Governed rank := by
  obtain ⟨l, lock, gone, t, rfl, hmoves⟩ := System.move_spec (h.ordered i) hmove
  have hgoverned : (s.goto i l lock t).Governed rank := by
    refine ⟨fun j => ?_, fun k => ?_⟩
    · rw [System.goto_thread]
      split_ifs
      · exact hmoves.ordered
      · exact h.ordered j
    · by_cases hk : k = l
      · rw [hk]
        rcases hmoves.own with hown | hown
        · exact (h.sound l).step hcard hown
        · rw [hown]
          exact h.sound l
      · rw [System.at_goto_of_ne s i hk lock (hmoves.others k hk)]
        exact h.sound k
  exact ⟨hgoverned.ordered, hgoverned.sound⟩

/-- A thread that is in no call holds nothing. -/
lemma Thread.Ordered.idle {t : Thread κ} (ht : t.Ordered rank) (htodo : t.todo = []) :
    t.held = [] ∧ t.phase = .ready := by
  obtain ⟨todo, held, phase⟩ := t
  obtain rfl : todo = [] := htodo
  cases phase with
  | ready => exact ⟨Option.some.inj ht.rest, rfl⟩
  | waiting => exact ht.rest.elim
  | posting => exact ht.rest.elim

lemma System.Governed.begin (h : s.Governed rank) (hidle : (s.thread i).todo = [])
    (hops : Neutral rank [] ops) : (s.begin i ops).Governed rank := by
  obtain ⟨hheld, hphase⟩ := (h.ordered i).idle hidle
  refine ⟨fun j => ?_, fun l => ?_⟩
  · rw [System.begin_thread]
    split_ifs
    · exact ⟨List.nodup_nil, hops⟩
    · exact h.ordered j
  · have hat : (s.begin i ops).at l = s.at l := by
      simp only [System.at, System.begin, Shared.mk.injEq, true_and]
      funext j
      by_cases hj : j = i
      · rw [hj, Function.update_self]
        simp [Thread.pc, hidle, hheld]
      · rw [Function.update_of_ne hj]
    rw [hat]
    exact h.sound l

lemma System.governed_reach (hcalls : ∀ i, ∀ ops ∈ calls i, Neutral rank [] ops)
    (hcard : Fintype.card ι < 2 ^ 32) (h : SystemReach calls s) : s.Governed rank := by
  induction h with
  | refl => exact System.governed_init
  | tail _ hstep ih =>
    cases hstep with
    | move i h => exact ih.move hcard h
    | begin i ops hidle h => exact ih.begin hidle (hcalls i ops h)

/-! ## Some thread can go on -/

/-- The rank of the lock that a thread is about to take, or waits for. -/
def Thread.waitRank (rank : κ → ℕ) (t : Thread κ) : ℕ :=
  match t.todo.head? with
  | some (.lock k) => rank k
  | _ => 0

omit [Fintype ι] in
/-- A thread that cannot go on waits for a lock that has no token, if its locks are all there. -/
lemma System.blocked (hi : (s.thread i).Ordered rank) (htodo : (s.thread i).todo ≠ [])
    (hlive : ∀ op ∈ (s.thread i).todo, s.gone op.name = false) (hmove : s.move i = none) :
    ∃ l, (s.at l).pc i = .waiting ∧ (s.lock l).sem = 0 ∧
      ∀ k ∈ (s.thread i).held, rank k < rank l := by
  rcases ht : s.thread i with ⟨_ | ⟨⟨l⟩ | ⟨l⟩ | ⟨l⟩, ops⟩, held, _ | _ | _⟩ <;>
    simp only [System.move, ht, reduceCtorEq, ne_eq, not_true_eq_false, List.forall_mem_cons,
      LockOp.name] at hmove htodo hlive <;>
    simp only [hlive.1, Bool.false_eq_true, if_false, reduceCtorEq] at hmove
  · rw [ht] at hi
    refine ⟨l, by simp [System.at, ht, Thread.pc], ?_, (holding_lock hi.rest).2.1⟩
    rw [Option.map_eq_none_iff, LightLock.semWait] at hmove
    split_ifs at hmove with hsem
    exact hsem
  all_goals
    rw [ht] at hi
    exact hi.rest.elim

/-- **Some thread can go on**, unless all calls are at their end: of the threads that wait, the one
whose lock has the highest rank waits for a lock whose holder does not wait. -/
lemma System.Governed.exists_move (h : s.Governed rank) (hbusy : ¬ s.Idle)
    (hlive : ¬ s.Dangling) : ∃ i, (s.move i).isSome := by
  by_contra hstuck
  have hnone : ∀ i, s.move i = none := by
    intro i
    rw [← Option.not_isSome_iff_eq_none]
    exact fun hsome => hstuck ⟨i, hsome⟩
  have hblocked : ∀ i, (s.thread i).todo ≠ [] → ∃ l, (s.at l).pc i = .waiting ∧
      (s.lock l).sem = 0 ∧ ∀ k ∈ (s.thread i).held, rank k < rank l :=
    fun i htodo => System.blocked (h.ordered i) htodo
      (fun op hop => Bool.eq_false_iff.2 fun hgone => hlive ⟨i, op, hop, hgone⟩) (hnone i)
  -- the lock that a thread waits for is held by one that waits for a lock of a higher rank
  have hnext : ∀ i l, (s.at l).pc i = .waiting → (s.lock l).sem = 0 →
      ∃ j k, (s.at k).pc j = .waiting ∧ (s.lock k).sem = 0 ∧ rank l < rank k := by
    intro i l hi hsem
    have hpos := (h.sound l).cnt_pos (.inr hi)
    have hbaton := (h.sound l).baton
    rw [show (s.at l).lock.sem = 0 from hsem] at hbaton
    have hposting : census (s.at l).pc .posting = 0 := by
      by_contra hne
      obtain ⟨j, hj⟩ : ∃ j, (s.at l).pc j = .posting := census_pos_iff.1 (Nat.pos_of_ne_zero hne)
      obtain ⟨hphase, htodo⟩ := Thread.phase_of_posting hj
      obtain ⟨k, hk, -, -⟩ := hblocked j htodo
      rw [(Thread.phase_of_waiting hk).1] at hphase
      cases hphase
    obtain ⟨j, hj⟩ : ∃ j, (s.at l).pc j = .inside := census_pos_iff.1 (by omega)
    have hheld := Thread.held_of_inside hj
    have htodo : (s.thread j).todo ≠ [] := fun hnil => by
      rw [((h.ordered j).idle hnil).1] at hheld
      cases hheld
    obtain ⟨k, hk, hsem', hrank⟩ := hblocked j htodo
    exact ⟨j, k, hk, hsem', hrank l hheld⟩
  obtain ⟨i, hi⟩ := not_forall.1 hbusy
  have hhigh : ∀ n, ∃ j k, (s.at k).pc j = .waiting ∧ (s.lock k).sem = 0 ∧ n ≤ rank k := by
    intro n
    induction n with
    | zero =>
      obtain ⟨l, hl, hsem, -⟩ := hblocked i hi
      exact ⟨i, l, hl, hsem, Nat.zero_le _⟩
    | succ n ih =>
      obtain ⟨j, k, hk, hsem, hn⟩ := ih
      obtain ⟨j', k', hk', hsem', hlt⟩ := hnext j k hk hsem
      exact ⟨j', k', hk', hsem', lt_of_le_of_lt hn hlt⟩
  -- a thread waits for one lock, so there are finitely many ranks
  obtain ⟨j, k, hk, -, hle⟩ := hhigh (Finset.univ.sup (fun j => (s.thread j).waitRank rank) + 1)
  have hrank : (s.thread j).waitRank rank = rank k := by
    simp only [Thread.waitRank, (Thread.phase_of_waiting hk).2]
  have hbound : (s.thread j).waitRank rank ≤ Finset.univ.sup fun j => (s.thread j).waitRank rank :=
    Finset.le_sup (f := fun j => (s.thread j).waitRank rank) (Finset.mem_univ j)
  rw [hrank] at hbound
  exact absurd hle (Nat.not_le.2 (Nat.lt_succ_of_le hbound))

/-! ## The calls come to their end -/

def System.work (s : System ι κ) : ℕ := ∑ i, (s.thread i).work

lemma System.Moves.work_lt {lock : LightLock} {t : Thread κ} (h : s.Moves rank i l lock t) :
    (s.goto i l lock t).work < s.work := by
  refine Finset.sum_lt_sum (fun j _ => ?_) ⟨i, Finset.mem_univ i, ?_⟩
  · rw [System.goto_thread]
    split_ifs with hj
    · rw [hj]
      exact h.less.le
    · exact Nat.le_refl _
  · rw [System.goto_thread, if_pos rfl]
    exact h.less

/-- However the threads go on with their calls, they stop after a while, and not before all calls
are at their end, unless a lock was destroyed that a call still needs. -/
structure System.Completes (s : System ι κ) : Prop where
  bounded : ∀ is s', System.moves is s = some s' → is.length ≤ s.work
  goes_on : ∀ is s', System.moves is s = some s' → ¬ s'.Idle → ¬ s'.Dangling →
    ∃ i, (s'.move i).isSome

lemma System.Governed.moves (h : s.Governed rank) (hcard : Fintype.card ι < 2 ^ 32) {is : List ι}
    (hmoves : System.moves is s = some s') : s'.Governed rank ∧ is.length + s'.work ≤ s.work := by
  induction is generalizing s with
  | nil =>
    obtain rfl := Option.some.inj hmoves
    exact ⟨h, by simp⟩
  | cons i is ih =>
    obtain ⟨s₁, hs₁, hrest⟩ := Option.bind_eq_some_iff.1 hmoves
    obtain ⟨hgoverned, hle⟩ := ih (h.move hcard hs₁) hrest
    have hlt : s₁.work < s.work := by
      obtain ⟨l, lock, gone, t, rfl, hmoves⟩ := System.move_spec (h.ordered i) hs₁
      exact hmoves.work_lt
    exact ⟨hgoverned, by rw [List.length_cons]; omega⟩

/-- **No deadlock**, for any calls that keep the order. -/
lemma System.completes_reach (hcalls : ∀ i, ∀ ops ∈ calls i, Neutral rank [] ops)
    (hcard : Fintype.card ι < 2 ^ 32) (h : SystemReach calls s) : s.Completes where
  bounded is s' hmoves := by
    have hle := ((System.governed_reach hcalls hcard h).moves hcard hmoves).2
    omega
  goes_on is s' hmoves hbusy hlive :=
    ((System.governed_reach hcalls hcard h).moves hcard hmoves).1.exists_move hbusy hlive

end

end LightLock

end Ipcf
