import Mathlib.Data.Nat.Bitwise
import Mathlib.Data.Nat.Size

/-!
# Filling the bits below the highest one

`x | x >> 1`, then the same with 2, with 4 and so on, sets every bit below the highest bit of `x`.
After the shifts `1, .., w / 2` a bit is set if it or one of the `w - 1` bits above it was
(`Filled w`); each step doubles the window, and a window as wide as the number reaches its highest
bit from everywhere below it.
-/

namespace Ipcf

/-- The bits of `y` are those that have a bit of `x` in the window of `w` bits from them upwards. -/
def Filled (w x y : ℕ) : Prop := ∀ i, y.testBit i = true ↔ ∃ j < w, x.testBit (i + j) = true

lemma filled_one (x : ℕ) : Filled 1 x x := by
  intro i
  constructor
  · exact fun h => ⟨0, Nat.one_pos, h⟩
  · rintro ⟨j, hj, h⟩
    rw [Nat.lt_one_iff.1 hj] at h
    exact h

/-- Two windows side by side. -/
lemma Filled.double {w x y : ℕ} (h : Filled w x y) : Filled (2 * w) x (y ||| y >>> w) := by
  intro i
  rw [Nat.testBit_or, Nat.testBit_shiftRight, Bool.or_eq_true, h i, h (w + i)]
  constructor
  · rintro (⟨j, hj, hbit⟩ | ⟨j, hj, hbit⟩)
    · exact ⟨j, by omega, hbit⟩
    · refine ⟨w + j, by omega, ?_⟩
      rw [show i + (w + j) = w + i + j by omega]
      exact hbit
  · rintro ⟨j, hj, hbit⟩
    by_cases hlow : j < w
    · exact .inl ⟨j, hlow, hbit⟩
    · refine .inr ⟨j - w, by omega, ?_⟩
      rw [show w + i + (j - w) = i + j by omega]
      exact hbit

/-- A wide enough window. -/
lemma Filled.eq_two_pow {w x y : ℕ} (h : Filled w x y) (hx : x < 2 ^ w) : y = 2 ^ x.size - 1 := by
  apply Nat.eq_of_testBit_eq
  intro i
  rw [Bool.eq_iff_iff, h i, Nat.testBit_two_pow_sub_one, decide_eq_true_iff, Nat.lt_size]
  constructor
  · rintro ⟨j, -, hbit⟩
    exact le_trans (Nat.pow_le_pow_right Nat.two_pos (Nat.le_add_right i j))
      (Nat.ge_two_pow_of_testBit hbit)
  · intro hle
    have hpos : x ≠ 0 := fun h0 => by
      rw [h0] at hle
      exact absurd hle (Nat.not_le.2 (Nat.two_pow_pos i))
    have hlow : i ≤ Nat.log2 x := (Nat.le_log2 hpos).2 hle
    refine ⟨Nat.log2 x - i, ?_, ?_⟩
    · exact lt_of_le_of_lt (Nat.sub_le _ _) ((Nat.log2_lt hpos).2 hx)
    · rw [Nat.add_sub_cancel' hlow]
      exact Nat.testBit_log2 hpos

/-- All bits below the highest one: at least the number itself. -/
lemma le_two_pow_size_sub_one (x : ℕ) : x ≤ 2 ^ x.size - 1 := Nat.le_sub_one_of_lt x.lt_size_self

end Ipcf
