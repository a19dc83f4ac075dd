import Ipcf.Framework.Memory

/-!
# What a computation reads

A `Traced` value comes with the offsets that were read from memory to compute it.  They are put
together by `bind`, and the reads of the kinds the program makes are the primitives: a byte, an
integer, a copy, and an object of a given size.  `Inside n` says that every offset is below `n`; it
is settled piece by piece (the `inside` lemmas are the simp set).
-/

namespace Ipcf

universe u

/-- A value, and the offsets that were read for it. -/
structure Traced (α : Type u) where
  val : α
  reads : List ℕ

namespace Traced

variable {α β : Type u}

instance : Monad Traced where
  pure a := ⟨a, []⟩
  bind t f := ⟨(f t.val).val, t.reads ++ (f t.val).reads⟩

@[simp] lemma val_pure (a : α) : (pure a : Traced α).val = a := rfl

@[simp] lemma val_bind (t : Traced α) (f : α → Traced β) : (t >>= f).val = (f t.val).val := rfl

@[simp] lemma val_ite (c : Prop) [Decidable c] (t t' : Traced α) :
    (if c then t else t').val = if c then t.val else t'.val := apply_ite val c t t'

/-! ## Reads -/

variable (m : Mem)

def byte (i : ℕ) : Traced UInt8 := ⟨m i, [i]⟩

def be16 (off : ℕ) : Traced UInt16 := ⟨m.be16 off, List.range' off 2⟩

def le32 (off : ℕ) : Traced UInt32 := ⟨m.le32 off, List.range' off 4⟩

def copy (off len : ℕ) : Traced (List UInt8) := ⟨m.read off len, List.range' off len⟩

/-- An object of `size` bytes. -/
def load (read : Mem → α) (size off : ℕ) : Traced α := ⟨read (m.drop off), List.range' off size⟩

@[simp] lemma val_byte (i : ℕ) : (byte m i).val = m i := rfl

@[simp] lemma val_be16 (off : ℕ) : (be16 m off).val = m.be16 off := rfl

@[simp] lemma val_le32 (off : ℕ) : (le32 m off).val = m.le32 off := rfl

@[simp] lemma val_copy (off len : ℕ) : (copy m off len).val = m.read off len := rfl

@[simp] lemma val_load (read : Mem → α) (size off : ℕ) :
    (load m read size off).val = read (m.drop off) := rfl

/-! ## Reads below a bound -/

/-- Every offset is below `n`. -/
def Inside (n : ℕ) (t : Traced α) : Prop := ∀ i ∈ t.reads, i < n

variable {m} {n : ℕ}

@[simp] lemma inside_pure (a : α) : Inside n (pure a : Traced α) := by
  intro i hi
  cases hi

@[simp] lemma inside_bind (t : Traced α) (f : α → Traced β) :
    Inside n (t >>= f) ↔ Inside n t ∧ Inside n (f t.val) := List.forall_mem_append

@[simp] lemma inside_ite (c : Prop) [Decidable c] (t t' : Traced α) :
    Inside n (if c then t else t') ↔ if c then Inside n t else Inside n t' := by
  split_ifs <;> exact Iff.rfl

@[simp] lemma inside_byte (i : ℕ) : Inside n (byte m i) ↔ i < n := List.forall_mem_singleton

lemma forall_range'_lt {off len : ℕ} : (∀ i ∈ List.range' off len, i < n) ↔
    len = 0 ∨ off + len ≤ n := by
  simp only [List.mem_range'_1]
  constructor
  · intro h
    by_contra hout
    have := h (off + len - 1) (by omega)
    omega
  · rintro h i ⟨hle, hlt⟩
    omega

@[simp] lemma inside_copy (off len : ℕ) : Inside n (copy m off len) ↔ len = 0 ∨ off + len ≤ n :=
  forall_range'_lt

@[simp] lemma inside_be16 (off : ℕ) : Inside n (be16 m off) ↔ off + 2 ≤ n := by
  rw [Inside, be16, forall_range'_lt]
  omega

@[simp] lemma inside_le32 (off : ℕ) : Inside n (le32 m off) ↔ off + 4 ≤ n := by
  rw [Inside, le32, forall_range'_lt]
  omega

lemma inside_load {read : Mem → α} {size off : ℕ} (hsize : 0 < size) :
    Inside n (load m read size off) ↔ off + size ≤ n := by
  rw [Inside, load, forall_range'_lt]
  omega

end Traced

end Ipcf
