import Mathlib.Data.Nat.ModEq
import Mathlib.Tactic.Common
import Mathlib.Tactic.Ring

/-!
# Sums in one's complement

The words of one's complement arithmetic in base `B` are the residues of `B - 1`, with two names
for zero; a sum of words is folded into a word by adding what is above the base to what is below.
A checksum is the complement of the folded sum, so that the sum of all words, the checksum included,
is the zero whose digits are all ones (`AllOnes`).

One fold is enough to test for this zero (`checksum_eq_zero_iff`), but not to make the checksum: the
fold itself may have a carry, and if this is cut off the sum is one more than it should be
(`allOnes_add_checksum_iff`).

`sumLe` and `sumBe` are the sums of the 16-bit words in memory, in the two byte orders; which one is
taken does not matter (`allOnes_sumBe_iff`).
-/

namespace Ipcf

/-! ## Folding -/

/-- One fold of a sum in base `B`. -/
def foldCarry (B s : ℕ) : ℕ := s % B + s / B

/-- A sum is the zero that is not zero. -/
def AllOnes (B s : ℕ) : Prop := s % (B - 1) = 0 ∧ s ≠ 0

/-- The complement of one fold, cut to a word. -/
def checksum (B s : ℕ) : ℕ := B - 1 - foldCarry B s % B

section

variable {B s : ℕ}

lemma foldCarry_modEq (hB : 1 ≤ B) (s : ℕ) : foldCarry B s ≡ s [MOD B - 1] := by
  have hone : B ≡ 1 [MOD B - 1] := Nat.modEq_sub hB
  calc foldCarry B s = s % B + 1 * (s / B) := by rw [foldCarry, Nat.one_mul]
    _ ≡ s % B + B * (s / B) [MOD B - 1] := (hone.symm.mul_right _).add_left _
    _ = s := Nat.mod_add_div s B

lemma foldCarry_eq_zero_iff : foldCarry B s = 0 ↔ s = 0 := by
  constructor
  · intro h
    obtain ⟨hmod, hdiv⟩ := Nat.add_eq_zero_iff.1 h
    rw [← Nat.mod_add_div s B, hmod, hdiv, Nat.mul_zero]
  · rintro rfl
    rw [foldCarry, Nat.zero_mod, Nat.zero_div]

lemma allOnes_foldCarry (hB : 1 ≤ B) : AllOnes B (foldCarry B s) ↔ AllOnes B s := by
  rw [AllOnes, AllOnes, foldCarry_modEq hB s, ne_eq, foldCarry_eq_zero_iff]

/-- The words of a small sum are all ones in one way only. -/
lemma allOnes_iff_eq (hs : s < 2 * (B - 1)) : AllOnes B s ↔ s = B - 1 := by
  constructor
  · rintro ⟨hmod, hne⟩
    obtain ⟨q, rfl⟩ := Nat.dvd_of_mod_eq_zero hmod
    have hq : q < 2 := Nat.lt_of_mul_lt_mul_left (by rwa [Nat.mul_comm 2] at hs)
    have hq0 : q ≠ 0 := by
      rintro rfl
      exact hne (Nat.mul_zero _)
    rw [show q = 1 by omega, Nat.mul_one]
  · rintro rfl
    exact ⟨Nat.mod_self _, by omega⟩

/-- One fold tests for the zero. -/
lemma checksum_eq_zero_iff (hB : 2 ≤ B) (hs : s / B + 1 < B) : checksum B s = 0 ↔ AllOnes B s := by
  have hr := Nat.mod_lt s (show 0 < B by omega)
  have hfold : foldCarry B s < 2 * (B - 1) := by
    rw [foldCarry]
    omega
  rw [← allOnes_foldCarry (by omega), allOnes_iff_eq hfold, checksum]
  by_cases hlt : foldCarry B s < B
  · rw [Nat.mod_eq_of_lt hlt]
    omega
  · have hmod : foldCarry B s % B = foldCarry B s - B := by
      rw [Nat.mod_eq_sub_mod (Nat.not_lt.1 hlt), Nat.mod_eq_of_lt (by omega)]
    omega

/-- The checksum of one fold completes the sum just when the fold has no carry. -/
lemma allOnes_add_checksum_iff (hB : 2 < B) (hs : s / B < B) :
    AllOnes B (s + checksum B s) ↔ foldCarry B s < B := by
  have hr := Nat.mod_lt s (show 0 < B by omega)
  have hsplit := Nat.mod_add_div s B
  have hsucc : B * (s / B) = (B - 1) * (s / B) + s / B := by
    rw [Nat.sub_mul, Nat.one_mul, Nat.sub_add_cancel (Nat.le_mul_of_pos_left _ (by omega))]
  by_cases hlt : foldCarry B s < B
  · have htotal : s + checksum B s = (B - 1) * (s / B + 1) := by
      rw [checksum, Nat.mod_eq_of_lt hlt, Nat.mul_succ]
      rw [foldCarry] at hlt ⊢
      omega
    rw [htotal]
    refine iff_of_true ⟨Nat.mul_mod_right _ _, ?_⟩ hlt
    exact Nat.mul_ne_zero (by omega) (Nat.succ_ne_zero _)
  · have htotal : s + checksum B s = (B - 1) * (s / B + 2) + 1 := by
      have hmod : foldCarry B s % B = foldCarry B s - B := by
        rw [Nat.mod_eq_sub_mod (Nat.not_lt.1 hlt), Nat.mod_eq_of_lt]
        rw [foldCarry]
        omega
      rw [checksum, hmod, Nat.mul_add, Nat.mul_two]
      rw [foldCarry] at hlt ⊢
      omega
    refine iff_of_false (fun h => ?_) hlt
    rw [AllOnes, htotal, Nat.mul_add_mod, Nat.mod_eq_of_lt (by omega)] at h
    exact Nat.one_ne_zero h.1

end

/-! ## The words in memory -/

/-- The sum of the 16-bit words, the first byte of each the low one. -/
def sumLe : List UInt8 → ℕ
  | a :: b :: data => a.toNat + 256 * b.toNat + sumLe data
  | [a] => a.toNat
  | [] => 0

/-- The sum of the 16-bit words, the first byte of each the high one. -/
def sumBe : List UInt8 → ℕ
  | a :: b :: data => 256 * a.toNat + b.toNat + sumBe data
  | [a] => 256 * a.toNat
  | [] => 0

lemma sumLe_le (data : List UInt8) : sumLe data ≤ 65535 * data.length := by
  fun_induction sumLe data with
  | case1 a b data ih =>
    have ha := a.toNat_lt
    have hb := b.toNat_lt
    simp only [List.length_cons]
    omega
  | case2 a =>
    have ha := a.toNat_lt
    simp only [List.length_singleton]
    omega
  | case3 => exact Nat.zero_le _

/-- The other byte order is a factor. -/
lemma sumBe_modEq (data : List UInt8) : sumBe data ≡ 256 * sumLe data [MOD 65535] := by
  fun_induction sumLe data with
  | case1 a b data ih =>
    have hword : 256 * a.toNat + b.toNat ≡ 256 * (a.toNat + 256 * b.toNat) [MOD 65535] := by
      rw [Nat.ModEq]
      omega
    rw [sumBe, Nat.mul_add 256 (a.toNat + 256 * b.toNat)]
    exact hword.add ih
  | case2 a => exact Nat.ModEq.refl _
  | case3 => exact Nat.ModEq.refl _

lemma sumBe_eq_zero_iff (data : List UInt8) : sumBe data = 0 ↔ sumLe data = 0 := by
  fun_induction sumLe data with
  | case1 a b data ih =>
    rw [sumBe]
    omega
  | case2 a =>
    rw [sumBe]
    omega
  | case3 => exact Iff.rfl

/-- The byte order does not matter. -/
lemma allOnes_sumBe_iff (data : List UInt8) :
    AllOnes 65536 (sumBe data) ↔ AllOnes 65536 (sumLe data) := by
  have hmod := sumBe_modEq data
  rw [Nat.ModEq] at hmod
  rw [AllOnes, AllOnes, ne_eq, ne_eq, sumBe_eq_zero_iff]
  refine and_congr_left fun _ => ?_
  simp only [Nat.reduceSub]
  omega

end Ipcf
