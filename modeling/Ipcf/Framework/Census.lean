import Mathlib.Algebra.BigOperators.Group.Finset.Basic
import Mathlib.Algebra.BigOperators.Group.Finset.Piecewise
import Mathlib.Algebra.Order.BigOperators.Group.Finset
import Mathlib.Tactic.Common

/-!
# Counting threads by their place

Of finitely many threads, each at one place of its code, `census f c` is how many are at `c`.  One
thread that moves takes one from the count of the place it leaves and adds one to that of the place
it comes to (`census_update`), which is all that an invariant about such counts needs of a step.
-/

namespace Ipcf

variable {ι κ : Type*} [Fintype ι] [DecidableEq κ] {f : ι → κ} {c : κ}

def census (f : ι → κ) (c : κ) : ℕ := (Finset.univ.filter fun i => f i = c).card

lemma census_const_of_ne {d : κ} (h : d ≠ c) : census (fun _ : ι => d) c = 0 := by
  simp [census, h]

lemma census_pos_iff : 0 < census f c ↔ ∃ i, f i = c := by
  simp [census, Finset.card_pos, Finset.Nonempty]

/-- At a place with at most one thread, two threads are the same. -/
lemma eq_of_census_le_one (h : census f c ≤ 1) {i j : ι} (hi : f i = c) (hj : f j = c) : i = j := by
  rw [census, Finset.card_le_one] at h
  exact h i (by simp [hi]) j (by simp [hj])

/-- Every thread is counted once. -/
lemma sum_census_le (f : ι → κ) (cs : Finset κ) : ∑ c ∈ cs, census f c ≤ Fintype.card ι := by
  simp only [census]
  rw [Finset.sum_card_fiberwise_eq_card_filter]
  exact Finset.card_le_univ _

/-- **One thread moves**, from `f i` to `d`. -/
lemma census_update [DecidableEq ι] (f : ι → κ) (i : ι) (d c : κ) :
    census (Function.update f i d) c + (if f i = c then 1 else 0) =
      census f c + (if d = c then 1 else 0) := by
  have hsplit : ∀ g : ι → κ, census g c = (if g i = c then 1 else 0) +
      ∑ j ∈ Finset.univ.erase i, if g j = c then 1 else 0 := by
    intro g
    rw [census, Finset.card_filter]
    exact (Finset.add_sum_erase _ _ (Finset.mem_univ i)).symm
  have hrest : (∑ j ∈ Finset.univ.erase i, if Function.update f i d j = c then 1 else 0) =
      ∑ j ∈ Finset.univ.erase i, if f j = c then 1 else 0 := by
    apply Finset.sum_congr rfl
    intro j hj
    rw [Function.update_of_ne (Finset.ne_of_mem_erase hj)]
  rw [hsplit, hsplit f, hrest, Function.update_self]
  omega

end Ipcf
