import Ipcf.Crc
import Ipcf.Framework.Endian
import Ipcf.Framework.Errors

/-!
# Flipped bits and checksums

What `crc8` and `crc16` see of a word whose bits were flipped on the way.  Both are linear: the
tables are additive, which is checked on their 256 entries, so a flipped bit adds its syndrome to
the checksum.  The syndromes of the 88 bits of 11 bytes are different for `crc8`, and those of the
304 bits of 38 bytes for `crc16`, and all of them have odd parity; so up to three flipped bits are
seen in words of these lengths, and one byte that was replaced in words of any length.
-/

namespace Ipcf

/-- The bit that is flipped. -/
def flip (e : Fin 8) (b : UInt8) : UInt8 := b ^^^ UInt8.ofNat (2 ^ e.val)

/-- One bit is not the same. -/
def Flipped (a b : UInt8) : Prop := ∃ e, b = flip e a

lemma flip_flip (e : Fin 8) (b : UInt8) : flip e (flip e b) = b := by
  rw [flip, flip, UInt8.xor_assoc, UInt8.xor_self, UInt8.xor_zero]

/-- What arrives of a word: up to three bits were flipped, or one byte replaced. -/
def Blurred (xs ys : Bytes) : Prop :=
  UpTo (Altered Flipped) 3 xs ys ∨ Altered (fun _ _ => True) xs ys

lemma Blurred.length_eq {xs ys : Bytes} (h : Blurred xs ys) : xs.length = ys.length := by
  rcases h with h | h
  · exact h.length_eq
  · exact h.length_eq

lemma Blurred.map {f : Bytes → Bytes} (hf : Local f) {xs ys : Bytes} (h : Blurred xs ys) :
    Blurred (f xs) (f ys) := by
  rcases h with h | h
  · exact .inl (h.map (hf Flipped))
  · rcases hf _ _ _ h with heq | halt
    · left
      rw [heq]
      exact .refl 3 _
    · exact .inr halt

/-! ## CRC-8 -/

/-- The entry of the table that the octet `i` looks up. -/
def crc8Entry (i : UInt8) : UInt8 := (crc8Table.getD i.toNat 0).toUInt8

def crc8Byte (crc data : UInt8) : UInt8 := crc8Entry (crc ^^^ data)

lemma crc8_eq_foldl (crc : UInt8) (buffer : Bytes) :
    crc8 crc buffer = buffer.foldl crc8Byte crc := by
  induction buffer generalizing crc with
  | nil => rfl
  | cons b buffer ih => exact ih _

/-- Where a bit is, in a word of `n` bytes: the bytes behind its own, and its place there. -/
def places (n : ℕ) : List (ℕ × Fin 8) := (List.range n).product (List.finRange 8)

lemma mem_places {n k : ℕ} (hk : k < n) (e : Fin 8) : (k, e) ∈ places n := by
  simp [places, hk]

def crc8Syndrome (p : ℕ × Fin 8) : UInt8 :=
  syndrome crc8Entry (fun e : Fin 8 => crc8Entry (UInt8.ofNat (2 ^ e.val))) p.1 p.2

/-- What is checked on the table: the entries are additive, only the first is zero, and the
syndromes of 11 bytes are different and odd. -/
lemma crc8Table_checked :
    (∀ n < 2 ^ 8, (crc8Table.getD n 0).toUInt8.toNat =
      spanned (fun n => (crc8Table.getD n 0).toUInt8.toNat) 8 n) ∧
    (∀ n < 256, crc8Entry (UInt8.ofNat n) = 0 → n = 0) ∧
    distinct 0 (((places 11).map crc8Syndrome).map UInt8.toNat) = true ∧
    ∀ p ∈ places 11, bitParity 8 (crc8Syndrome p).toNat = true := by
  decide +kernel

lemma crc8Entry_xor (i j : UInt8) : crc8Entry (i ^^^ j) = crc8Entry i ^^^ crc8Entry j := by
  apply UInt8.toNat_inj.1
  rw [crc8Entry, UInt8.toNat_xor, UInt8.toNat_xor]
  exact entry_xor_of_spanned crc8Table_checked.1 i.toNat_lt j.toNat_lt

lemma crc8Entry_injective : Function.Injective crc8Entry := by
  obtain ⟨-, hzero, -⟩ := crc8Table_checked
  intro i j h
  have hxor : crc8Entry (i ^^^ j) = 0 := by rw [crc8Entry_xor, h, UInt8.xor_self]
  have hnat := hzero (i ^^^ j).toNat (i ^^^ j).toNat_lt (by rw [UInt8.ofNat_toNat]; exact hxor)
  exact UInt8.xor_eq_zero_iff.1 (UInt8.toNat_inj.1 hnat)

lemma linear_crc8Byte :
    Linear crc8Byte crc8Entry (fun e : Fin 8 => crc8Entry (UInt8.ofNat (2 ^ e.val))) flip where
  carry s t b := by
    rw [crc8Byte, crc8Byte, ← crc8Entry_xor]
    congr 1
    ac_rfl
  start s b e := by
    rw [crc8Byte, crc8Byte, ← crc8Entry_xor, flip, UInt8.xor_assoc]
  twice := flip_flip
  undo s t := by rw [UInt8.xor_assoc, UInt8.xor_self, UInt8.xor_zero]
  cancel s t t' h := (UInt8.xor_right_inj s).1 h

lemma crc8Syndrome_inj {p q : ℕ × Fin 8} (hp : p ∈ places 11) (hq : q ∈ places 11)
    (h : crc8Syndrome p = crc8Syndrome q) : p = q := by
  obtain ⟨-, -, hdistinct, -⟩ := crc8Table_checked
  exact List.inj_on_of_nodup_map ((nodup_of_distinct hdistinct).of_map _) hp hq h

lemma reversible_crc8Byte : Reversible crc8Byte :=
  fun _ _ _ h => (UInt8.xor_left_inj _).1 (crc8Entry_injective h)

lemma crc8Byte_injective (crc : UInt8) : Function.Injective (crc8Byte crc) :=
  fun _ _ h => (UInt8.xor_right_inj _).1 (crc8Entry_injective h)

/-- Fed with its own value, the register becomes zero. -/
lemma crc8_concat_self (crc : UInt8) (buffer : Bytes) :
    crc8 crc (buffer ++ [crc8 crc buffer]) = 0 := by
  have hzero : crc8Entry 0 = 0 := rfl
  rw [crc8_eq_foldl, crc8_eq_foldl, List.foldl_append, List.foldl_cons, List.foldl_nil, crc8Byte,
    UInt8.xor_self, hzero]

/-- A replaced byte is seen, wherever it is. -/
lemma crc8_altered {crc : UInt8} {xs ys : Bytes} {R : UInt8 → UInt8 → Prop} (h : Altered R xs ys)
    (hsame : crc8 crc xs = crc8 crc ys) : xs = ys := by
  rw [crc8_eq_foldl, crc8_eq_foldl] at hsame
  exact reversible_crc8Byte.eq_of_altered crc8Byte_injective h crc hsame

/-- **A CRC-8 sees three flipped bits in 11 bytes.** -/
lemma crc8_blurred {crc : UInt8} {xs ys : Bytes} (hlen : xs.length ≤ 11) (h : Blurred xs ys)
    (hsame : crc8 crc xs = crc8 crc ys) : xs = ys := by
  rcases h with hbits | hbyte
  · obtain ⟨-, -, -, hodd⟩ := crc8Table_checked
    rw [crc8_eq_foldl, crc8_eq_foldl] at hsame
    refine linear_crc8Byte.eq_of_upTo_three 11 (fun s => bitParity 8 s.toNat)
      (fun s t => ?_) (fun k hk e => hodd (k, e) (mem_places hk e)) ?_ hlen hbits crc
      hsame
    · rw [UInt8.toNat_xor]
      exact bitParity_xor 8 _ _
    · intro k hk k' hk' e e' heq
      exact Prod.mk.inj (crc8Syndrome_inj (mem_places hk e) (mem_places hk' e') heq)
  · exact crc8_altered hbyte hsame

/-! ## CRC-16 -/

/-- The next value, for an octet that is zero. -/
def crc16Shift (crc : UInt16) : UInt16 := (crc >>> 8) ^^^ crc16Entry crc.toUInt8

def crc16Syndrome (p : ℕ × Fin 8) : UInt16 :=
  syndrome crc16Shift (fun e : Fin 8 => crc16Entry (UInt8.ofNat (2 ^ e.val))) p.1 p.2

/-- What is checked on the table: the entries are additive, and the syndromes of 38 bytes are
different and odd. -/
lemma crc16Table_checked :
    (∀ n < 2 ^ 8, (crc16Table.getD n 0).toNat =
      spanned (fun n => (crc16Table.getD n 0).toNat) 8 n) ∧
    distinct 0 (((places 38).map crc16Syndrome).map UInt16.toNat) = true ∧
    ∀ p ∈ places 38, bitParity 16 (crc16Syndrome p).toNat = true := by
  decide +kernel

lemma crc16Entry_xor (i j : UInt8) : crc16Entry (i ^^^ j) = crc16Entry i ^^^ crc16Entry j := by
  apply UInt16.toNat_inj.1
  rw [crc16Entry, UInt8.toNat_xor, UInt16.toNat_xor]
  exact entry_xor_of_spanned crc16Table_checked.1 i.toNat_lt j.toNat_lt

lemma linear_crc16Byte :
    Linear crc16Byte crc16Shift (fun e : Fin 8 => crc16Entry (UInt8.ofNat (2 ^ e.val))) flip where
  carry s t b := by
    have hlow : (s ^^^ t).toUInt8 ^^^ b = (s.toUInt8 ^^^ b) ^^^ t.toUInt8 := by
      rw [UInt16.toUInt8_xor]
      ac_rfl
    rw [crc16Byte_eq, crc16Byte_eq, hlow, crc16Entry_xor, UInt16.shiftRight_xor, crc16Shift]
    ac_rfl
  start s b e := by
    rw [crc16Byte_eq, crc16Byte_eq, flip, ← UInt8.xor_assoc, crc16Entry_xor, UInt16.xor_assoc]
  twice := flip_flip
  undo s t := by rw [UInt16.xor_assoc, UInt16.xor_self, UInt16.xor_zero]
  cancel s t t' h := (UInt16.xor_right_inj s).1 h

lemma crc16Syndrome_inj {p q : ℕ × Fin 8} (hp : p ∈ places 38) (hq : q ∈ places 38)
    (h : crc16Syndrome p = crc16Syndrome q) : p = q := by
  obtain ⟨-, hdistinct, -⟩ := crc16Table_checked
  exact List.inj_on_of_nodup_map ((nodup_of_distinct hdistinct).of_map _) hp hq h

lemma crc16Byte_injective (crc : UInt16) : Function.Injective (crc16Byte crc) :=
  fun _ _ h => (UInt8.xor_right_inj _).1 (crc16Byte_index (congrArg highOctet h))

lemma crc16_concat_self (crc : UInt16) (buffer : Bytes) :
    crc16 crc (buffer ++ le16 (crc16 crc buffer)) = 0 := by
  have hzero : crc16Entry 0 = 0 := rfl
  have hlow : ∀ x : UInt16, crc16Byte x x.toUInt8 = highOctet x := by
    intro x
    rw [crc16Byte_eq, UInt8.xor_self, hzero, UInt16.xor_zero, highOctet]
  have hhigh : ∀ x : UInt16, UInt8.ofNat (x.toNat / 256) = (highOctet x).toUInt8 := by
    intro x
    apply UInt8.toNat_inj.1
    rw [UInt8.toNat_ofNat', UInt16.toNat_toUInt8, toNat_highOctet]
  rw [crc16_eq_foldl, crc16_eq_foldl, List.foldl_append, le16, List.foldl_cons, List.foldl_cons,
    List.foldl_nil, hlow, hhigh, hlow]
  apply UInt16.toNat_inj.1
  have hlt := (buffer.foldl crc16Byte crc).toNat_lt
  rw [toNat_highOctet, toNat_highOctet, UInt16.toNat_zero]
  omega

/-- **A CRC-16 sees three flipped bits in 38 bytes.** -/
lemma crc16_blurred {crc : UInt16} {xs ys : Bytes} (hlen : xs.length ≤ 38) (h : Blurred xs ys)
    (hsame : crc16 crc xs = crc16 crc ys) : xs = ys := by
  rw [crc16_eq_foldl, crc16_eq_foldl] at hsame
  rcases h with hbits | hbyte
  · obtain ⟨-, -, hodd⟩ := crc16Table_checked
    refine linear_crc16Byte.eq_of_upTo_three 38 (fun s => bitParity 16 s.toNat)
      (fun s t => ?_) (fun k hk e => hodd (k, e) (mem_places hk e)) ?_ hlen hbits crc
      hsame
    · rw [UInt16.toNat_xor]
      exact bitParity_xor 16 _ _
    · intro k hk k' hk' e e' heq
      exact Prod.mk.inj (crc16Syndrome_inj (mem_places hk e) (mem_places hk' e') heq)
  · exact reversible_crc16Byte.eq_of_altered crc16Byte_injective hbyte crc hsame

end Ipcf
