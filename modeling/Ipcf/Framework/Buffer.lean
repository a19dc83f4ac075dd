import Mathlib.Data.List.Basic
import Mathlib.Tactic.Common

/-!
# Fixed-size buffers

A `Buffer α n` is an array of exactly `n` cells: the size is a field, so no operation can
produce an array of another size.  `write` copies a list into the buffer the way `memcpy`
does, except that cells past the end of the array are not written; `read` copies a range
out.  Whether a copy stays inside the array is a question about its offset and length alone
and is asked where the copy is made.

The two rules the rest of the development uses are `getElem?_write` (one cell after one copy)
and `read_write` (reading back what was copied).
-/

namespace Ipcf

/-- An array of exactly `n` cells. -/
structure Buffer (α : Type*) (n : ℕ) where
  cells : List α
  size_eq : cells.length = n

namespace Buffer

variable {α : Type*} {n : ℕ}

attribute [simp] size_eq

@[ext] lemma ext {b c : Buffer α n} (h : b.cells = c.cells) : b = c := by
  cases b
  cases c
  simpa using h

instance [DecidableEq α] : DecidableEq (Buffer α n) := fun b c =>
  decidable_of_iff (b.cells = c.cells) ⟨ext, congrArg cells⟩

/-- The array with every cell equal to `x`. -/
def fill (n : ℕ) (x : α) : Buffer α n := ⟨List.replicate n x, List.length_replicate⟩

@[simp] lemma cells_fill (x : α) : (fill n x).cells = List.replicate n x := rfl

/-- Copy `src` to the cells from `off` on; cells past the end of the array are not written. -/
def write (b : Buffer α n) (off : ℕ) (src : List α) : Buffer α n where
  cells := b.cells.take off ++ src.take (n - off) ++ b.cells.drop (off + src.length)
  size_eq := by
    simp only [List.length_append, List.length_take, List.length_drop, b.size_eq]
    omega

/-- Copy `len` cells out, starting at `off`. -/
def read (b : Buffer α n) (off len : ℕ) : List α := (b.cells.drop off).take len

/-- Replace the cell at `i` by its image under `f`; nothing happens past the end. -/
def modify (b : Buffer α n) (i : ℕ) (f : α → α) : Buffer α n :=
  ⟨b.cells.modify i f, by simp⟩

/-- The cell at `i`, or `x` past the end. -/
def get (b : Buffer α n) (i : ℕ) (x : α) : α := b.cells.getD i x

/-! ## One cell after one copy -/

/-- A copy changes exactly the cells it covers. -/
lemma getElem?_write (b : Buffer α n) (off : ℕ) (src : List α) (i : ℕ) :
    (b.write off src).cells[i]? =
      if off ≤ i ∧ i < off + src.length ∧ i < n then src[i - off]? else b.cells[i]? := by
  have hb := b.size_eq
  simp only [write, List.append_assoc]
  by_cases hlt : i < off
  · rw [if_neg (by omega), List.getElem?_append]
    by_cases hin : i < n
    · rw [if_pos (by simp only [List.length_take]; omega), List.getElem?_take, if_pos hlt]
    · rw [if_neg (by simp only [List.length_take]; omega), List.getElem?_eq_none,
        List.getElem?_eq_none (by omega)]
      simp only [List.length_append, List.length_take, List.length_drop]
      omega
  · rw [List.getElem?_append_right (by simp only [List.length_take]; omega), List.length_take, hb]
    by_cases hin : i < n
    · have hmin : min off n = off := by omega
      rw [hmin, List.getElem?_append, List.length_take]
      by_cases hcov : i < off + src.length
      · rw [if_pos (by omega), if_pos ⟨by omega, hcov, hin⟩, List.getElem?_take, if_pos (by omega)]
      · rw [if_neg (by omega), if_neg (by omega), List.getElem?_drop]
        congr 1
        omega
    · rw [if_neg (by omega), List.getElem?_eq_none (l := b.cells) (by omega),
        List.getElem?_eq_none]
      simp only [List.length_append, List.length_take, List.length_drop]
      omega

lemma get_modify (b : Buffer α n) (i : ℕ) (f : α → α) (j : ℕ) (x : α) :
    (b.modify i f).get j x = if i = j ∧ j < n then f (b.get j x) else b.get j x := by
  simp only [get, modify, List.getD_eq_getElem?_getD, List.getElem?_modify]
  by_cases hj : j < n
  · have hj' : j < b.cells.length := by rw [b.size_eq]; exact hj
    rw [List.getElem?_eq_getElem hj']
    by_cases hij : i = j <;> simp [hij, hj]
  · rw [List.getElem?_eq_none (by rw [b.size_eq]; omega), if_neg (by omega)]
    rfl

@[simp] lemma get_fill (x y : α) (i : ℕ) (h : i < n) : (fill n x).get i y = x := by
  simp [get, List.getD_eq_getElem?_getD, h]

/-! ## Reading a range -/

lemma length_read (b : Buffer α n) {off len : ℕ} (h : off + len ≤ n) :
    (b.read off len).length = len := by
  simp only [read, List.length_take, List.length_drop, b.size_eq]
  omega

lemma getElem?_read (b : Buffer α n) (off len i : ℕ) :
    (b.read off len)[i]? = if i < len then b.cells[off + i]? else none := by
  simp only [read, List.getElem?_take, List.getElem?_drop]

/-! ## Composing copies -/

/-- Two copies, one behind the other, are one copy. -/
lemma write_write_append (b : Buffer α n) {off : ℕ} {xs : List α} (h : off + xs.length ≤ n)
    (ys : List α) : (b.write off xs).write (off + xs.length) ys = b.write off (xs ++ ys) := by
  apply ext
  apply List.ext_getElem?
  intro i
  rw [getElem?_write, getElem?_write, getElem?_write, List.length_append]
  by_cases hx : off ≤ i ∧ i < off + xs.length
  · rw [if_neg (by omega), if_pos (by omega), if_pos (by omega),
      List.getElem?_append_left (by omega)]
  · by_cases hy : off + xs.length ≤ i ∧ i < off + xs.length + ys.length ∧ i < n
    · rw [if_pos hy, if_pos (by omega), List.getElem?_append_right (by omega)]
      congr 1
      omega
    · rw [if_neg hy, if_neg (by omega), if_neg (by omega)]

/-- The same when the second copy is the one in front. -/
lemma write_write_zero (b : Buffer α n) (xs ys : List α) :
    (b.write xs.length ys).write 0 xs = b.write 0 (xs ++ ys) := by
  apply ext
  apply List.ext_getElem?
  intro i
  rw [getElem?_write, getElem?_write, getElem?_write, List.length_append]
  by_cases hx : i < xs.length
  · by_cases hn : i < n
    · rw [if_pos (by omega), if_pos (by omega), Nat.sub_zero, List.getElem?_append_left hx]
    · rw [if_neg (by omega), if_neg (by omega), if_neg (by omega)]
  · by_cases hy : i < xs.length + ys.length ∧ i < n
    · rw [if_neg (by omega), if_pos (by omega), if_pos (by omega),
        List.getElem?_append_right (by omega), Nat.sub_zero]
    · rw [if_neg (by omega), if_neg (by omega), if_neg (by omega)]

/-- Copying nothing changes nothing. -/
@[simp] lemma write_nil (b : Buffer α n) (off : ℕ) : b.write off [] = b := by
  apply ext
  apply List.ext_getElem?
  intro i
  rw [getElem?_write, if_neg (by simp only [List.length_nil]; omega)]

/-- Copying a range onto itself changes nothing. -/
lemma write_read (b : Buffer α n) (off len : ℕ) : b.write off (b.read off len) = b := by
  apply ext
  apply List.ext_getElem?
  intro i
  rw [getElem?_write]
  split_ifs with h
  · obtain ⟨h1, h2, h3⟩ := h
    have hlen : i - off < len := by
      simp only [read, List.length_take] at h2
      omega
    rw [getElem?_read, if_pos hlen]
    congr 1
    omega
  · rfl

/-- A copy does not reach a range behind it. -/
lemma read_write_of_le (b : Buffer α n) {off off' : ℕ} (len : ℕ) {src : List α}
    (h : off + src.length ≤ off') : (b.write off src).read off' len = b.read off' len := by
  apply List.ext_getElem?
  intro i
  have hcell : (b.write off src).cells[off' + i]? = b.cells[off' + i]? := by
    rw [getElem?_write, if_neg (by omega)]
  rw [getElem?_read, getElem?_read, hcell]

/-- Nor one before it. -/
lemma read_write_of_ge (b : Buffer α n) {off off' len : ℕ} {src : List α}
    (h : off' + len ≤ off) : (b.write off src).read off' len = b.read off' len := by
  apply List.ext_getElem?
  intro i
  rw [getElem?_read, getElem?_read]
  split_ifs with hi
  · rw [getElem?_write, if_neg (by omega)]
  · rfl

/-- What was copied is read back from where it was copied to. -/
lemma read_write (b : Buffer α n) {off : ℕ} {src : List α} (h : off + src.length ≤ n) :
    (b.write off src).read off src.length = src := by
  apply List.ext_getElem?
  intro i
  rw [getElem?_read]
  split_ifs with hi
  · rw [getElem?_write, if_pos (by omega), Nat.add_sub_cancel_left]
  · rw [List.getElem?_eq_none (by omega)]

/-- The front of what was copied to the front. -/
lemma read_write_zero (b : Buffer α n) {src : List α} {len : ℕ} (hlen : len ≤ src.length)
    (h : src.length ≤ n) : (b.write 0 src).read 0 len = src.take len := by
  apply List.ext_getElem?
  intro i
  rw [getElem?_read, List.getElem?_take]
  split_ifs with hi
  · rw [getElem?_write, if_pos (by omega), Nat.zero_add, Nat.sub_zero]
  · rfl

end Buffer

end Ipcf
