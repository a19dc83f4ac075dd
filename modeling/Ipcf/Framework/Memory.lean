import Ipcf.Framework.Endian

/-!
# Memory behind a pointer

A `Mem` is what a function sees behind a pointer that it is given without a bound: a byte for every
offset, whether or not the array that the caller had in mind goes that far.  `read` is a copy out of
it.  `overlay` is what an array contains after a copy to its front: the copied bytes, and behind
them whatever was there before.
-/

namespace Ipcf

/-- The bytes behind a pointer, by offset. -/
abbrev Mem := ℕ → UInt8

namespace Mem

variable (m : Mem)

/-- The bytes behind the pointer moved by `off`. -/
def drop (off : ℕ) : Mem := fun i => m (off + i)

/-- Copy `len` bytes out, starting at `off`. -/
def read (off len : ℕ) : List UInt8 := (List.range len).map fun i => m (off + i)

def be16 (off : ℕ) : UInt16 := ofBe16 (m off) (m (off + 1))

def le32 (off : ℕ) : UInt32 := ofLe32 (m off) (m (off + 1)) (m (off + 2)) (m (off + 3))

/-- The bytes `bs`, and behind them what was there. -/
def overlay (bs : List UInt8) : Mem := fun i => bs.getD i (m i)

@[simp] lemma length_read (off len : ℕ) : (m.read off len).length = len := by
  rw [read, List.length_map, List.length_range]

lemma getElem?_read (off len i : ℕ) :
    (m.read off len)[i]? = if i < len then some (m (off + i)) else none := by
  rw [read, List.getElem?_map]
  split_ifs with hi
  · rw [List.getElem?_range hi]
    rfl
  · rw [List.getElem?_eq_none (by rw [List.length_range]; exact Nat.le_of_not_lt hi)]
    rfl

variable {m}

lemma overlay_apply {bs : List UInt8} {i : ℕ} (hi : i < bs.length) : m.overlay bs i = bs[i] := by
  rw [overlay, List.getD_eq_getElem?_getD, List.getElem?_eq_getElem hi]
  rfl

lemma overlay_apply_of_ge {bs : List UInt8} {i : ℕ} (hi : bs.length ≤ i) :
    m.overlay bs i = m i := by
  rw [overlay, List.getD_eq_getElem?_getD, List.getElem?_eq_none hi]
  rfl

/-- Two memories that agree where a copy reads give the same copy. -/
lemma read_congr {m m' : Mem} {off len : ℕ} (h : ∀ i < len, m (off + i) = m' (off + i)) :
    m.read off len = m'.read off len := by
  apply List.map_congr_left
  exact fun i hi => h i (List.mem_range.1 hi)

/-- Reading back what was copied in. -/
lemma read_overlay (m : Mem) {bs : List UInt8} {len : ℕ} (h : len ≤ bs.length) :
    (m.overlay bs).read 0 len = bs.take len := by
  apply List.ext_getElem?
  intro i
  rw [getElem?_read, List.getElem?_take]
  split_ifs with hi
  · rw [Nat.zero_add, overlay_apply (Nat.lt_of_lt_of_le hi h), List.getElem?_eq_getElem]
  · rfl

/-- Behind the first bytes of a copy. -/
lemma drop_overlay (m : Mem) (bs bs' : List UInt8) :
    (m.overlay (bs ++ bs')).drop bs.length = (m.drop bs.length).overlay bs' := by
  funext i
  rw [drop, overlay, overlay, drop, List.getD_eq_getElem?_getD,
    List.getElem?_append_right (Nat.le_add_right _ _), Nat.add_sub_cancel_left,
    List.getD_eq_getElem?_getD]

lemma read_drop (m : Mem) (off len : ℕ) : (m.drop off).read 0 len = m.read off len := by
  simp only [read, drop, Nat.zero_add]

/-- The first of two copies, one behind the other. -/
lemma overlay_append_apply (m : Mem) {bs : List UInt8} (bs' : List UInt8) {i : ℕ}
    (hi : i < bs.length) : m.overlay (bs ++ bs') i = bs.getD i 0 := by
  rw [overlay, List.getD_eq_getElem?_getD, List.getElem?_append_left hi,
    List.getD_eq_getElem?_getD, List.getElem?_eq_getElem hi]
  rfl

/-- The second. -/
lemma read_overlay_append (m : Mem) (bs bs' : List UInt8) :
    (m.overlay (bs ++ bs')).read bs.length bs'.length = bs' := by
  rw [← read_drop, drop_overlay, read_overlay _ (Nat.le_refl _), List.take_length]

/-- A 16-bit integer that was copied in. -/
lemma be16_overlay (m : Mem) {bs front rest : List UInt8} {x : UInt16} {off : ℕ}
    (hbs : bs = front ++ (Ipcf.be16 x ++ rest)) (hoff : front.length = off) :
    (m.overlay bs).be16 off = x := by
  have hcell : ∀ i < 2, m.overlay bs (off + i) = (Ipcf.be16 x).getD i 0 := by
    intro i hi
    rw [hbs, ← hoff]
    exact (congrFun (m.drop_overlay front _) i).trans (overlay_append_apply _ _ hi)
  rw [be16, ← Nat.add_zero off, hcell 0 (by decide), Nat.add_zero, hcell 1 (by decide)]
  exact ofBe16_be16 x

/-- A 32-bit integer that was copied in. -/
lemma le32_overlay (m : Mem) {bs front rest : List UInt8} {x : UInt32} {off : ℕ}
    (hbs : bs = front ++ (Ipcf.le32 x ++ rest)) (hoff : front.length = off) :
    (m.overlay bs).le32 off = x := by
  have hcell : ∀ i < 4, m.overlay bs (off + i) = (Ipcf.le32 x).getD i 0 := by
    intro i hi
    rw [hbs, ← hoff]
    exact (congrFun (m.drop_overlay front _) i).trans (overlay_append_apply _ _ hi)
  rw [le32, ← Nat.add_zero off, hcell 0 (by decide), Nat.add_zero, hcell 1 (by decide),
    hcell 2 (by decide), hcell 3 (by decide)]
  exact ofLe32_le32 x

lemma take_read (m : Mem) (off : ℕ) {r len : ℕ} (h : r ≤ len) :
    (m.read off len).take r = m.read off r := by
  rw [read, ← List.map_take, List.take_range, Nat.min_eq_left h, read]

/-- A copy of the front puts the front in place. -/
lemma overlay_read_apply {m m' : Mem} {len i : ℕ} (hi : i < len) :
    m.overlay (m'.read 0 len) i = m' i := by
  rw [overlay_apply (by rw [length_read]; exact hi)]
  have h := getElem?_read m' 0 len i
  rw [if_pos hi, Nat.zero_add, List.getElem?_eq_getElem (by rw [length_read]; exact hi)] at h
  exact Option.some.inj h

end Mem

end Ipcf
