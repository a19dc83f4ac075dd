import Mathlib.Data.List.Basic
import Mathlib.Tactic.Common

/-!
# Integers in memory

The bytes of 16- and 32-bit integers in the two orders the program meets: `le16` and `le32` are
the in-memory form on the little-endian host (`config.h`), `be16` the wire form of an IP header
field.  Each comes with its reader, the two are inverse to each other, and the length of the
written form is a `simp` lemma.
-/

namespace Ipcf

/-! ## Little endian -/

def le16 (x : UInt16) : List UInt8 := [x.toUInt8, UInt8.ofNat (x.toNat / 256)]

def ofLe16 (a b : UInt8) : UInt16 := UInt16.ofNat (a.toNat + 256 * b.toNat)

def le32 (x : UInt32) : List UInt8 :=
  [x.toUInt8, UInt8.ofNat (x.toNat / 256), UInt8.ofNat (x.toNat / 65536),
    UInt8.ofNat (x.toNat / 16777216)]

def ofLe32 (a b c d : UInt8) : UInt32 :=
  UInt32.ofNat (a.toNat + 256 * b.toNat + 65536 * c.toNat + 16777216 * d.toNat)

@[simp] lemma length_le16 (x : UInt16) : (le16 x).length = 2 := rfl

@[simp] lemma length_le32 (x : UInt32) : (le32 x).length = 4 := rfl

@[simp] lemma toNat_ofLe16 (a b : UInt8) : (ofLe16 a b).toNat = a.toNat + 256 * b.toNat := by
  have ha := a.toNat_lt
  have hb := b.toNat_lt
  simp only [ofLe16, UInt16.toNat_ofNat']
  omega

lemma ofLe16_inj {a b c d : UInt8} : ofLe16 a b = ofLe16 c d ↔ a = c ∧ b = d := by
  constructor
  · intro h
    have ha := a.toNat_lt
    have hc := c.toNat_lt
    have hnat := congrArg UInt16.toNat h
    rw [toNat_ofLe16, toNat_ofLe16] at hnat
    exact ⟨UInt8.toNat_inj.1 (by omega), UInt8.toNat_inj.1 (by omega)⟩
  · rintro ⟨rfl, rfl⟩
    rfl

@[simp] lemma ofLe16_le16 (x : UInt16) :
    ofLe16 x.toUInt8 (UInt8.ofNat (x.toNat / 256)) = x := by
  have hx := x.toNat_lt
  apply UInt16.toNat_inj.1
  simp only [toNat_ofLe16, UInt8.toNat_ofNat', UInt16.toNat_toUInt8]
  omega

@[simp] lemma le16_ofLe16 (a b : UInt8) : le16 (ofLe16 a b) = [a, b] := by
  have ha := a.toNat_lt
  have hb := b.toNat_lt
  rw [le16, List.cons.injEq, List.cons.injEq, and_iff_left rfl]
  constructor
  · apply UInt8.toNat_inj.1
    rw [UInt16.toNat_toUInt8, toNat_ofLe16]
    omega
  · apply UInt8.toNat_inj.1
    rw [UInt8.toNat_ofNat', toNat_ofLe16]
    omega

lemma le16_injective : Function.Injective le16 := by
  intro x y h
  obtain ⟨hlow, hrest⟩ := List.cons.inj h
  rw [← ofLe16_le16 x, ← ofLe16_le16 y, hlow, (List.cons.inj hrest).1]

@[simp] lemma le32_ofLe32 (a b c d : UInt8) : le32 (ofLe32 a b c d) = [a, b, c, d] := by
  have ha := a.toNat_lt
  have hb := b.toNat_lt
  have hc := c.toNat_lt
  have hd := d.toNat_lt
  have hnat : (ofLe32 a b c d).toNat =
      a.toNat + 256 * b.toNat + 65536 * c.toNat + 16777216 * d.toNat := by
    rw [ofLe32, UInt32.toNat_ofNat']
    omega
  simp only [le32, hnat, List.cons.injEq, and_true]
  refine ⟨?_, ?_, ?_, ?_⟩
  all_goals
    apply UInt8.toNat_inj.1
    simp only [UInt32.toNat_toUInt8, UInt8.toNat_ofNat', hnat]
    omega

@[simp] lemma ofLe32_le32 (x : UInt32) :
    ofLe32 x.toUInt8 (UInt8.ofNat (x.toNat / 256)) (UInt8.ofNat (x.toNat / 65536))
      (UInt8.ofNat (x.toNat / 16777216)) = x := by
  have hx := x.toNat_lt
  apply UInt32.toNat_inj.1
  simp only [ofLe32, UInt32.toNat_ofNat', UInt8.toNat_ofNat', UInt32.toNat_toUInt8]
  omega

/-! ## Big endian -/

def be16 (x : UInt16) : List UInt8 := [UInt8.ofNat (x.toNat / 256), x.toUInt8]

def ofBe16 (a b : UInt8) : UInt16 := UInt16.ofNat (256 * a.toNat + b.toNat)

@[simp] lemma length_be16 (x : UInt16) : (be16 x).length = 2 := rfl

@[simp] lemma toNat_ofBe16 (a b : UInt8) : (ofBe16 a b).toNat = 256 * a.toNat + b.toNat := by
  have ha := a.toNat_lt
  have hb := b.toNat_lt
  simp only [ofBe16, UInt16.toNat_ofNat']
  omega

@[simp] lemma ofBe16_be16 (x : UInt16) :
    ofBe16 (UInt8.ofNat (x.toNat / 256)) x.toUInt8 = x := by
  have hx := x.toNat_lt
  apply UInt16.toNat_inj.1
  simp only [toNat_ofBe16, UInt8.toNat_ofNat', UInt16.toNat_toUInt8]
  omega

@[simp] lemma be16_ofBe16 (a b : UInt8) : be16 (ofBe16 a b) = [a, b] := by
  have ha := a.toNat_lt
  have hb := b.toNat_lt
  rw [be16, List.cons.injEq, List.cons.injEq, and_iff_left rfl]
  constructor
  · apply UInt8.toNat_inj.1
    rw [UInt8.toNat_ofNat', toNat_ofBe16]
    omega
  · apply UInt8.toNat_inj.1
    rw [UInt16.toNat_toUInt8, toNat_ofBe16]
    omega

end Ipcf
