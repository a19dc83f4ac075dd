import Ipcf.Framework.Census

/-!
# The light lock

`light_lock_t` of `include/atomic.h`: a counter of the threads that want the lock or hold it, and a
semaphore for those that come when it is taken.  Every thread calls `_lock` and then `_unlock`,
again and again; `step i` is the next atomic step of thread `i`, in whatever order the threads come
to theirs.  The semaphore is a counter of its tokens.

`Sound` is the invariant of every run: the counter is the number of threads it counts, and as long
as there are any, there is one baton: with the thread inside, with one that is about to post it, or
in the semaphore.
-/

namespace Ipcf

/-- `light_lock_t` -/
structure LightLock where
  sem : ℕ
  cnt : UInt32

namespace LightLock

/-! ## The steps -/

/-- `_lock_init` -/
def lockInit : LightLock := ⟨0, 0⟩

/-- `__atomic_fetch_add` of 1 to the counter, with the value before. -/
def fetchAdd (lock : LightLock) : UInt32 × LightLock :=
  (lock.cnt, { lock with cnt := lock.cnt + 1 })

/-- `__atomic_sub_fetch` of 1 from the counter, with the value behind. -/
def subFetch (lock : LightLock) : UInt32 × LightLock :=
  (lock.cnt - 1, { lock with cnt := lock.cnt - 1 })

/-- `sem_wait`, which blocks while there is no token. -/
def semWait (lock : LightLock) : Option LightLock :=
  if lock.sem = 0 then none else some { lock with sem := lock.sem - 1 }

def semPost (lock : LightLock) : LightLock := { lock with sem := lock.sem + 1 }

/-- Where a thread is: before its `fetch_add` in `_lock`, at `sem_wait`, between `_lock` and the
`sub_fetch` of `_unlock`, or at `sem_post`. -/
inductive Pc
  | outside
  | waiting
  | inside
  | posting
  deriving DecidableEq

/-- Whether the counter counts the thread: it has incremented and not yet decremented. -/
def Pc.counted : Pc → ℕ
  | .outside => 0
  | .waiting => 1
  | .inside => 1
  | .posting => 0

/-- Whether the thread has the right to be inside, or is about to pass it on. -/
def Pc.batons : Pc → ℕ
  | .outside => 0
  | .waiting => 0
  | .inside => 1
  | .posting => 1

/-- A lock and the threads that use it. -/
structure Shared (ι : Type*) where
  lock : LightLock
  pc : ι → Pc

variable {ι : Type*}

def init : Shared ι := ⟨lockInit, fun _ => .outside⟩

section

variable [DecidableEq ι]

def Shared.goto (s : Shared ι) (i : ι) (pc : Pc) (lock : LightLock) : Shared ι :=
  ⟨lock, Function.update s.pc i pc⟩

/-- The next step of thread `i`; a thread that is blocked has none. -/
def step (i : ι) (s : Shared ι) : Option (Shared ι) :=
  match s.pc i with
  | .outside =>
    let (old, lock) := s.lock.fetchAdd
    some (s.goto i (if old > 0 then .waiting else .inside) lock)
  | .waiting => s.lock.semWait.map (s.goto i .inside)
  | .inside =>
    let (new, lock) := s.lock.subFetch
    some (s.goto i (if new > 0 then .posting else .outside) lock)
  | .posting => some (s.goto i .outside s.lock.semPost)

/-- The threads of `is` do a step each, in this order. -/
def run : (is : List ι) → Shared ι → Option (Shared ι)
  | [], s => some s
  | i :: is, s => (step i s).bind (run is)

/-! ## Waiting threads -/

variable {s s' : Shared ι} {i j : ι}

/-- Some threads can do their next steps, in some order, such that then thread `i` is inside. -/
def CanEnter (i : ι) (s : Shared ι) : Prop := ∃ is s', run is s = some s' ∧ s'.pc i = .inside

lemma CanEnter.of_step (h : CanEnter i s') (hstep : step j s = some s') : CanEnter i s := by
  obtain ⟨is, t, hrun, ht⟩ := h
  refine ⟨j :: is, t, ?_, ht⟩
  rw [run, hstep]
  exact hrun

lemma goto_pc_of_ne (hi : s.pc i = .waiting) (hj : s.pc j ≠ .waiting) (pc : Pc)
    (lock : LightLock) : (s.goto j pc lock).pc i = .waiting := by
  have hne : i ≠ j := by
    rintro rfl
    exact hj hi
  rw [← hi]
  exact Function.update_of_ne hne ..

lemma canEnter_of_token (hi : s.pc i = .waiting) (hsem : s.lock.sem ≠ 0) : CanEnter i s := by
  refine ⟨[i], s.goto i .inside { s.lock with sem := s.lock.sem - 1 }, ?_,
    Function.update_self ..⟩
  rw [run, step, hi, semWait, if_neg hsem]
  rfl

/-- The token is posted. -/
lemma canEnter_of_posting (hi : s.pc i = .waiting) (hj : s.pc j = .posting) : CanEnter i s := by
  have hstep : step j s = some (s.goto j .outside s.lock.semPost) := by
    rw [step, hj]
  refine CanEnter.of_step (canEnter_of_token ?_ (Nat.succ_ne_zero _)) hstep
  exact goto_pc_of_ne hi (by rw [hj]; decide) ..

/-- The thread that leaves is not the last that is counted, and will post. -/
lemma canEnter_of_inside (hi : s.pc i = .waiting) (hj : s.pc j = .inside)
    (hcnt : 1 < s.lock.cnt.toNat) : CanEnter i s := by
  have hmore : s.lock.subFetch.1 > 0 := by
    show 0 < (s.lock.cnt - 1).toNat
    rw [UInt32.toNat_sub_of_le, UInt32.toNat_one]
    · omega
    · exact hcnt.le
  have hstep : step j s = some (s.goto j .posting s.lock.subFetch.2) := by
    rw [step, hj]
    simp only [if_pos hmore]
  refine CanEnter.of_step (canEnter_of_posting ?_ (Function.update_self ..)) hstep
  exact goto_pc_of_ne hi (by rw [hj]; decide) ..

end

/-! ## The invariant -/

section

variable [Fintype ι]

/-- Of the threads that are inside or about to post, and of the tokens, there is one as long as the
counter counts a thread, and none otherwise. -/
structure Sound (s : Shared ι) : Prop where
  count : s.lock.cnt.toNat = census s.pc .waiting + census s.pc .inside
  baton : census s.pc .inside + census s.pc .posting + s.lock.sem = min 1 s.lock.cnt.toNat

lemma sound_init : Sound (init : Shared ι) where
  count := by
    rw [init, census_const_of_ne (by decide), census_const_of_ne (by decide)]
    rfl
  baton := by
    rw [init, census_const_of_ne (by decide), census_const_of_ne (by decide)]
    rfl

variable {s s' : Shared ι} {i : ι} {pc : Pc}

/-- The counter has room for a thread that is not counted yet. -/
lemma Sound.room (h : Sound s) (hcard : Fintype.card ι < 2 ^ 32) (hi : s.pc i = .outside) :
    s.lock.cnt.toNat + 1 < 2 ^ 32 := by
  have hsum := sum_census_le s.pc {.outside, .waiting, .inside}
  have hout : 0 < census s.pc .outside := census_pos_iff.2 ⟨i, hi⟩
  rw [Finset.sum_insert (by decide), Finset.sum_insert (by decide), Finset.sum_singleton] at hsum
  have hcount := h.count
  omega

lemma Sound.cnt_pos (h : Sound s) (hi : s.pc i = .inside ∨ s.pc i = .waiting) :
    0 < s.lock.cnt.toNat := by
  rw [h.count]
  rcases hi with hi | hi
  · have hinside : 0 < census s.pc .inside := census_pos_iff.2 ⟨i, hi⟩
    omega
  · have hwaiting : 0 < census s.pc .waiting := census_pos_iff.2 ⟨i, hi⟩
    omega

section

variable [DecidableEq ι]

/-- What the counter and the semaphore have to make up for when one thread moves. -/
lemma Sound.goto (h : Sound s) (hi : s.pc i = pc) {pc' : Pc} {lock : LightLock}
    (hcnt : lock.cnt.toNat + pc.counted = s.lock.cnt.toNat + pc'.counted)
    (hsem : lock.sem + pc'.batons + min 1 s.lock.cnt.toNat =
      s.lock.sem + pc.batons + min 1 lock.cnt.toNat) : Sound (s.goto i pc' lock) := by
  have hcounted : ∀ q : Pc, q.counted = (if q = .waiting then 1 else 0) +
      (if q = .inside then 1 else 0) := by
    intro q
    cases q <;> rfl
  have hbatons : ∀ q : Pc, q.batons = (if q = .inside then 1 else 0) +
      (if q = .posting then 1 else 0) := by
    intro q
    cases q <;> rfl
  have hmove : ∀ c, census (s.goto i pc' lock).pc c + (if pc = c then 1 else 0) =
      census s.pc c + (if pc' = c then 1 else 0) := by
    intro c
    rw [← hi]
    exact census_update s.pc i pc' c
  have hwaiting := hmove .waiting
  have hinside := hmove .inside
  have hposting := hmove .posting
  have hcount := h.count
  have hbaton := h.baton
  rw [hcounted, hcounted] at hcnt
  rw [hbatons, hbatons] at hsem
  constructor
  · show lock.cnt.toNat = _
    omega
  · show _ + lock.sem = min 1 lock.cnt.toNat
    omega

/-- The first to come is inside, the others wait. -/
lemma Sound.fetchAdd (h : Sound s) (hcard : Fintype.card ι < 2 ^ 32) (hi : s.pc i = .outside) :
    Sound (s.goto i (if s.lock.fetchAdd.1 > 0 then .waiting else .inside) s.lock.fetchAdd.2) := by
  have hroom := h.room hcard hi
  have hcnt : s.lock.fetchAdd.2.cnt.toNat = s.lock.cnt.toNat + 1 := by
    rw [LightLock.fetchAdd, UInt32.toNat_add, UInt32.toNat_one]
    omega
  have hsem : s.lock.fetchAdd.2.sem = s.lock.sem := rfl
  split_ifs with hold
  · have hpos : 0 < s.lock.cnt.toNat := hold
    apply h.goto hi
    · simp only [Pc.counted]
      omega
    · simp only [Pc.batons]
      omega
  · have hzero : s.lock.cnt.toNat = 0 := Nat.eq_zero_of_not_pos hold
    apply h.goto hi
    · simp only [Pc.counted]
      omega
    · simp only [Pc.batons]
      omega

/-- The thread that takes the token is inside. -/
lemma Sound.semWait (h : Sound s) (hi : s.pc i = .waiting) {lock : LightLock}
    (hlock : s.lock.semWait = some lock) : Sound (s.goto i .inside lock) := by
  rw [LightLock.semWait] at hlock
  split_ifs at hlock with hsem
  rw [Option.some.injEq] at hlock
  subst hlock
  apply h.goto hi
  · simp only [Pc.counted]
  · simp only [Pc.batons]
    omega

/-- The last to leave takes the baton with it, the others are about to post it. -/
lemma Sound.subFetch (h : Sound s) (hi : s.pc i = .inside) :
    Sound (s.goto i (if s.lock.subFetch.1 > 0 then .posting else .outside) s.lock.subFetch.2) := by
  have hpos := h.cnt_pos (.inl hi)
  have hcnt : s.lock.subFetch.2.cnt.toNat = s.lock.cnt.toNat - 1 := by
    rw [LightLock.subFetch, UInt32.toNat_sub_of_le, UInt32.toNat_one]
    exact hpos
  have hsem : s.lock.subFetch.2.sem = s.lock.sem := rfl
  split_ifs with hnew
  · have hmore : 0 < s.lock.subFetch.2.cnt.toNat := hnew
    apply h.goto hi
    · simp only [Pc.counted]
      omega
    · simp only [Pc.batons]
      omega
  · have hlast : s.lock.subFetch.2.cnt.toNat = 0 := Nat.eq_zero_of_not_pos hnew
    apply h.goto hi
    · simp only [Pc.counted]
      omega
    · simp only [Pc.batons]
      omega

/-- The baton goes back into the semaphore. -/
lemma Sound.semPost (h : Sound s) (hi : s.pc i = .posting) :
    Sound (s.goto i .outside s.lock.semPost) := by
  apply h.goto hi
  · rfl
  · simp only [Pc.batons, LightLock.semPost]

lemma Sound.step (h : Sound s) (hcard : Fintype.card ι < 2 ^ 32)
    (hstep : LightLock.step i s = some s') : Sound s' := by
  rw [LightLock.step] at hstep
  cases hi : s.pc i with
  | outside =>
    rw [hi] at hstep
    obtain rfl := Option.some.inj hstep
    exact h.fetchAdd hcard hi
  | waiting =>
    rw [hi] at hstep
    obtain ⟨lock, hlock, rfl⟩ := Option.map_eq_some_iff.1 hstep
    exact h.semWait hi hlock
  | inside =>
    rw [hi] at hstep
    obtain rfl := Option.some.inj hstep
    exact h.subFetch hi
  | posting =>
    rw [hi] at hstep
    obtain rfl := Option.some.inj hstep
    exact h.semPost hi

/-- **Every run keeps the invariant**, whatever the order of the steps. -/
lemma Sound.run (h : Sound s) (hcard : Fintype.card ι < 2 ^ 32) {is : List ι}
    (hrun : LightLock.run is s = some s') : Sound s' := by
  induction is generalizing s with
  | nil =>
    obtain rfl := Option.some.inj hrun
    exact h
  | cons i is ih =>
    obtain ⟨t, ht, hrest⟩ := Option.bind_eq_some_iff.1 hrun
    exact ih (h.step hcard ht) hrest

/-- **No waiting thread is stranded.** Whoever has the baton can pass it on, and the thread can then
take it. -/
lemma Sound.canEnter (h : Sound s) (hi : s.pc i = .waiting) : CanEnter i s := by
  have hpos := h.cnt_pos (.inr hi)
  have hbaton := h.baton
  by_cases hsem : s.lock.sem = 0
  · by_cases hposting : census s.pc .posting = 0
    · obtain ⟨j, hj⟩ : ∃ j, s.pc j = .inside := census_pos_iff.1 (by omega)
      apply canEnter_of_inside hi hj
      have hwaiting : 0 < census s.pc .waiting := census_pos_iff.2 ⟨i, hi⟩
      have hinside : 0 < census s.pc .inside := census_pos_iff.2 ⟨j, hj⟩
      have hcount := h.count
      omega
    · obtain ⟨j, hj⟩ : ∃ j, s.pc j = .posting := census_pos_iff.1 (by omega)
      exact canEnter_of_posting hi hj
  · exact canEnter_of_token hi hsem

/-- At most one thread is inside, the counter is the number of threads that have incremented it and
not yet decremented it, and while there are any, there is one thread inside, one thread about to
post or one token; and a thread that waits can still get in. -/
structure Exclusive (s : Shared ι) : Prop where
  one : ∀ i j, s.pc i = .inside → s.pc j = .inside → i = j
  count : s.lock.cnt.toNat = census s.pc .waiting + census s.pc .inside
  baton : 0 < s.lock.cnt → census s.pc .inside + census s.pc .posting + s.lock.sem = 1
  enters : ∀ i, s.pc i = .waiting → CanEnter i s

/-- **The light lock excludes and loses no wake-up**, in every interleaving of the threads. -/
theorem exclusive_of_run (hcard : Fintype.card ι < 2 ^ 32) {is : List ι}
    (hrun : LightLock.run is init = some s) : Exclusive s := by
  have hsound := sound_init.run hcard hrun
  have hbaton := hsound.baton
  constructor
  · exact fun i j => eq_of_census_le_one (by omega)
  · exact hsound.count
  · intro hpos
    have hcnt : 0 < s.lock.cnt.toNat := hpos
    omega
  · exact fun i => hsound.canEnter

/-- Two threads wait while the first is inside; it leaves, and the third gets the token. -/
theorem exclusive_of_run_handover : ∃ s : Shared (Fin 3),
    LightLock.run [0, 1, 2, 0, 0, 2] init = some s ∧ Exclusive s := by
  have hrun : LightLock.run [0, 1, 2, 0, 0, 2] (init : Shared (Fin 3)) = some _ := rfl
  exact ⟨_, hrun, exclusive_of_run (by decide) hrun⟩

end

end

end LightLock

end Ipcf
