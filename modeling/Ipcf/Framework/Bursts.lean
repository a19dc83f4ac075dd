import Mathlib.Data.List.Basic
import Mathlib.Tactic.Common

/-!
# Bursts

A register that is fed a string symbol by symbol, as a checksum is.  Where every symbol can be
undone (`Reversible`), two registers that differ keep differing whatever both are fed; where a block
of `k` symbols can be read off the register it leads to (`Separates`), a string that was changed
within `k` symbols in a row leads to another register than before (`eq_of_foldl_eq`).
-/

namespace Ipcf

variable {σ β : Type*} {step : σ → β → σ} {k : ℕ}

def Reversible (step : σ → β → σ) : Prop := ∀ b, Function.Injective fun s => step s b

/-- Blocks of `k` symbols that lead one register to the same are equal. -/
def Separates (step : σ → β → σ) (k : ℕ) : Prop :=
  ∀ s (w w' : List β), w.length = k → w'.length = k → w.foldl step s = w'.foldl step s → w = w'

lemma Reversible.foldl_injective (hstep : Reversible step) (bs : List β) :
    Function.Injective fun s => bs.foldl step s := by
  induction bs with
  | nil => exact fun _ _ h => h
  | cons b bs ih => exact fun _ _ h => hstep b (ih h)

/-- Whatever comes before and behind it, the block is seen. -/
lemma Reversible.block_eq (hstep : Reversible step) (hk : Separates step k) (s : σ)
    {pre w w' post : List β} (hw : w.length = k) (hw' : w'.length = k)
    (h : (pre ++ w ++ post).foldl step s = (pre ++ w' ++ post).foldl step s) : w = w' := by
  simp only [List.foldl_append] at h
  exact hk _ w w' hw hw' (hstep.foldl_injective post h)

/-- **Bursts are seen.** Strings of one length that agree outside a window of `k` symbols, and
lead to the same register, are equal. -/
lemma Reversible.eq_of_foldl_eq (hstep : Reversible step) (hk : Separates step k) {s : σ}
    {xs ys : List β} (hlen : xs.length = ys.length) {i : ℕ} (hi : i + k ≤ xs.length)
    (hout : ∀ j, j < i ∨ i + k ≤ j → xs[j]? = ys[j]?)
    (h : xs.foldl step s = ys.foldl step s) : xs = ys := by
  have htake : xs.take i = ys.take i := by
    apply List.ext_getElem?
    intro j
    rw [List.getElem?_take, List.getElem?_take]
    split_ifs with hj
    · exact hout j (.inl hj)
    · rfl
  have hdrop : xs.drop (i + k) = ys.drop (i + k) := by
    apply List.ext_getElem?
    intro j
    rw [List.getElem?_drop, List.getElem?_drop]
    exact hout _ (.inr (by omega))
  have hsplit : ∀ zs : List β, zs.take i ++ (zs.drop i).take k ++ zs.drop (i + k) = zs := by
    intro zs
    rw [← List.drop_drop, List.append_assoc, List.take_append_drop, List.take_append_drop]
  rw [← hsplit xs, ← hsplit ys, htake, hdrop] at h
  have hwin : (xs.drop i).take k = (ys.drop i).take k := by
    apply hstep.block_eq hk s _ _ h
    · rw [List.length_take, List.length_drop]
      omega
    · rw [List.length_take, List.length_drop]
      omega
  rw [← hsplit xs, ← hsplit ys, htake, hdrop, hwin]

end Ipcf
