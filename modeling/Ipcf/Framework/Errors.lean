import Ipcf.Framework.Bursts
import Mathlib.Data.List.Nodup
import Mathlib.Data.Nat.Bitwise
import Mathlib.Logic.Function.Iterate

/-!
# Errors in a word

A word is damaged: a symbol of it is replaced (`Altered`), and that up to `k` times (`UpTo`).  What
cuts pieces out of a word and puts them together again is `Local`, if it takes one damaged symbol to
one at most; then what is damaged up to `k` times comes out damaged up to `k` times.

A register is linear if an error in the symbols that it is fed adds something to it that depends on
the error and on the number of symbols behind it, and on nothing else: the syndrome of the error.
Where these are different and odd, up to three errors are seen (`Linear.eq_of_upTo_three`).
-/

namespace Ipcf

/-! ## Damage -/

/-- One symbol is replaced by one that `R` allows for it. -/
inductive Altered {α : Type*} (R : α → α → Prop) : List α → List α → Prop
  | head {a b : α} (h : R a b) (xs : List α) : Altered R (a :: xs) (b :: xs)
  | tail (a : α) {xs ys : List α} (h : Altered R xs ys) : Altered R (a :: xs) (a :: ys)

/-- At most `k` steps lead from `x` to `y`. -/
inductive UpTo {α : Type*} (R : α → α → Prop) : (k : ℕ) → (x y : α) → Prop
  | refl (k : ℕ) (x : α) : UpTo R k x x
  | step {k : ℕ} {x y z : α} (h : UpTo R k x y) (h' : R y z) : UpTo R (k + 1) x z

/-- What is made of a word has one damaged symbol at most, if the word has. -/
def Local {α : Type*} (f : List α → List α) : Prop :=
  ∀ (R : α → α → Prop) (xs ys : List α), Altered R xs ys → f xs = f ys ∨ Altered R (f xs) (f ys)

section

variable {α : Type*} {R : α → α → Prop} {xs ys : List α} {k : ℕ}

lemma Altered.length_eq (h : Altered R xs ys) : xs.length = ys.length := by
  induction h with
  | head h xs => rfl
  | tail a h ih => rw [List.length_cons, List.length_cons, ih]

lemma Altered.split (h : Altered R xs ys) :
    ∃ pre a b post, R a b ∧ xs = pre ++ a :: post ∧ ys = pre ++ b :: post := by
  induction h with
  | @head a b h xs => exact ⟨[], a, b, xs, h, rfl, rfl⟩
  | tail c h ih =>
    obtain ⟨pre, a, b, post, hab, rfl, rfl⟩ := ih
    exact ⟨c :: pre, a, b, post, hab, rfl, rfl⟩

lemma Altered.append_left (h : Altered R xs ys) (zs : List α) :
    Altered R (zs ++ xs) (zs ++ ys) := by
  induction zs with
  | nil => exact h
  | cons z zs ih => exact ih.tail z

lemma Altered.append_right (h : Altered R xs ys) (zs : List α) :
    Altered R (xs ++ zs) (ys ++ zs) := by
  induction h with
  | head h xs => exact .head h (xs ++ zs)
  | tail a h ih => exact ih.tail a

/-- The damaged symbol is in front or behind. -/
lemma Altered.parts (h : Altered R xs ys) (n : ℕ) :
    (Altered R (xs.take n) (ys.take n) ∧ xs.drop n = ys.drop n) ∨
      (xs.take n = ys.take n ∧ Altered R (xs.drop n) (ys.drop n)) := by
  induction h generalizing n with
  | @head a b h xs =>
    cases n with
    | zero => exact .inr ⟨rfl, .head h xs⟩
    | succ n => exact .inl ⟨.head h (xs.take n), rfl⟩
  | tail a h ih =>
    cases n with
    | zero => exact .inr ⟨rfl, h.tail a⟩
    | succ n =>
      rcases ih n with ⟨hfront, hback⟩ | ⟨hfront, hback⟩
      · exact .inl ⟨hfront.tail a, hback⟩
      · right
        refine ⟨?_, hback⟩
        rw [List.take_succ_cons, List.take_succ_cons, hfront]

lemma local_take (n : ℕ) : Local fun xs : List α => xs.take n := by
  intro R xs ys h
  rcases h.parts n with ⟨hfront, -⟩ | ⟨hfront, -⟩
  · exact .inr hfront
  · exact .inl hfront

lemma local_drop (n : ℕ) : Local fun xs : List α => xs.drop n := by
  intro R xs ys h
  rcases h.parts n with ⟨-, hback⟩ | ⟨-, hback⟩
  · exact .inl hback
  · exact .inr hback

lemma Local.comp {f g : List α → List α} (hf : Local f) (hg : Local g) :
    Local fun xs => f (g xs) := by
  intro R xs ys h
  rcases hg R xs ys h with heq | halt
  · exact .inl (congrArg f heq)
  · exact hf R _ _ halt

/-- Symbols are taken from the front of a word, and, behind others that are fixed, from what
follows. -/
lemma Local.preset {f : List α → List α} (hf : Local f) (n : ℕ) (mid : List α) :
    Local fun xs => xs.take n ++ mid ++ f (xs.drop n) := by
  intro R xs ys h
  rcases h.parts n with ⟨hfront, hback⟩ | ⟨hfront, hback⟩
  · right
    simp only [hback]
    exact (hfront.append_right mid).append_right _
  · simp only [hfront]
    rcases hf R _ _ hback with heq | halt
    · exact .inl (by rw [heq])
    · exact .inr (halt.append_left _)

/-- The symbol in front goes to the end. -/
lemma local_rotate (mid : List α) : Local fun xs : List α => mid ++ (xs.drop 1 ++ xs.take 1) := by
  intro R xs ys h
  right
  refine Altered.append_left ?_ mid
  rcases h.parts 1 with ⟨hfront, hback⟩ | ⟨hfront, hback⟩
  · rw [hback]
    exact hfront.append_left _
  · rw [hfront]
    exact hback.append_right _

end

section

variable {α β : Type*} {R : α → α → Prop} {S : β → β → Prop} {k : ℕ}

lemma UpTo.mono {x y : α} (h : UpTo R k x y) {j : ℕ} (hj : k ≤ j) : UpTo R j x y := by
  induction h generalizing j with
  | refl k x => exact .refl j x
  | step h h' ih =>
    obtain ⟨j, rfl⟩ := Nat.exists_eq_add_of_le hj
    rw [show ∀ n, n + 1 + j = n + j + 1 by omega]
    exact .step (ih (Nat.le_add_right _ _)) h'

/-- What turns a step into a step or into nothing turns `k` of them into `k` at most. -/
lemma UpTo.map {f : α → β} (hf : ∀ x y, R x y → f x = f y ∨ S (f x) (f y)) {x y : α}
    (h : UpTo R k x y) : UpTo S k (f x) (f y) := by
  induction h with
  | refl k x => exact .refl k (f x)
  | step h h' ih =>
    rcases hf _ _ h' with heq | hstep
    · rw [← heq]
      exact ih.mono (Nat.le_succ _)
    · exact .step ih hstep

lemma UpTo.length_eq {xs ys : List α} (h : UpTo (Altered R) k xs ys) : xs.length = ys.length := by
  induction h with
  | refl k xs => rfl
  | step h h' ih => exact ih.trans h'.length_eq

end

/-! ## One symbol -/

/-- Where a symbol can be read off the register it leads to, one that was replaced is seen. -/
lemma Reversible.eq_of_altered {σ β : Type*} {step : σ → β → σ} (hstep : Reversible step)
    (hone : ∀ s, Function.Injective (step s)) {R : β → β → Prop} {xs ys : List β}
    (h : Altered R xs ys) (s : σ) (hsame : xs.foldl step s = ys.foldl step s) : xs = ys := by
  obtain ⟨pre, a, b, post, -, rfl, rfl⟩ := h.split
  rw [List.foldl_append, List.foldl_append, List.foldl_cons, List.foldl_cons] at hsame
  rw [hone _ (hstep.foldl_injective post hsame)]

/-! ## Linear registers -/

/-- The error `e` turns `b` into `err e b`, and twice it turns it back.  What it adds to the
register is `start e`, and `shift` moves this on with each symbol that follows. -/
structure Linear {σ β ε : Type*} [XorOp σ] (step : σ → β → σ) (shift : σ → σ) (start : ε → σ)
    (err : ε → β → β) : Prop where
  carry : ∀ s t b, step (s ^^^ t) b = step s b ^^^ shift t
  start : ∀ s b e, step s (err e b) = step s b ^^^ start e
  twice : ∀ e b, err e (err e b) = b
  undo : ∀ s t : σ, s ^^^ t ^^^ t = s
  cancel : ∀ s t t' : σ, s ^^^ t = s ^^^ t' → t = t'

/-- What the error `e` has added when `k` symbols have followed. -/
def syndrome {σ ε : Type*} (shift : σ → σ) (start : ε → σ) (k : ℕ) (e : ε) : σ :=
  shift^[k] (start e)

/-- `ys` is `xs` with the error `e` in a symbol that `k` others follow. -/
def HitBy {β ε : Type*} (err : ε → β → β) (k : ℕ) (e : ε) (xs ys : List β) : Prop :=
  ∃ pre a post, post.length = k ∧ xs = pre ++ a :: post ∧ ys = pre ++ err e a :: post

section

variable {σ β ε : Type*} [XorOp σ] {step : σ → β → σ} {shift : σ → σ} {start : ε → σ}
  {err : ε → β → β} {xs ys zs : List β}

lemma Altered.hitBy (h : Altered (fun a b => ∃ e, b = err e a) xs ys) :
    ∃ k < xs.length, ∃ e, HitBy err k e xs ys := by
  obtain ⟨pre, a, b, post, ⟨e, rfl⟩, rfl, rfl⟩ := h.split
  refine ⟨post.length, ?_, e, pre, a, post, rfl, rfl, rfl⟩
  rw [List.length_append, List.length_cons]
  omega

namespace Linear

lemma foldl_carry (h : Linear step shift start err) (s t : σ) (bs : List β) :
    bs.foldl step (s ^^^ t) = bs.foldl step s ^^^ shift^[bs.length] t := by
  induction bs generalizing s t with
  | nil => rfl
  | cons b bs ih =>
    rw [List.foldl_cons, List.foldl_cons, h.carry, ih, List.length_cons,
      Function.iterate_succ_apply]

lemma foldl_hit (h : Linear step shift start err) {k : ℕ} {e : ε} (hhit : HitBy err k e xs ys)
    (s : σ) : ys.foldl step s = xs.foldl step s ^^^ syndrome shift start k e := by
  obtain ⟨pre, a, post, rfl, rfl, rfl⟩ := hhit
  rw [List.foldl_append, List.foldl_append, List.foldl_cons, List.foldl_cons, h.start,
    h.foldl_carry, syndrome]

/-- The same error twice is none. -/
lemma eq_of_hit_twice (h : Linear step shift start err) {k : ℕ} {e : ε}
    (hxy : HitBy err k e xs ys) (hyz : HitBy err k e ys zs) : xs = zs := by
  obtain ⟨pre, a, post, hlen, rfl, rfl⟩ := hxy
  obtain ⟨pre', a', post', hlen', heq, rfl⟩ := hyz
  have hlengths : (err e a :: post).length = (a' :: post').length := by
    rw [List.length_cons, List.length_cons, hlen, hlen']
  obtain ⟨rfl, hback⟩ := List.append_inj' heq hlengths
  obtain ⟨rfl, rfl⟩ := List.cons.inj hback
  rw [h.twice]

/-- **Three errors are seen.**  Words with at most `n` symbols, of which the second is the first
with up to three errors, are equal if they lead to the same register: one or three errors change the
parity, and two errors with the same syndrome are in the same place. -/
lemma eq_of_upTo_three (h : Linear step shift start err) (n : ℕ) (parity : σ → Bool)
    (hparity : ∀ s t, parity (s ^^^ t) = (parity s ^^ parity t))
    (hodd : ∀ k < n, ∀ e, parity (syndrome shift start k e) = true)
    (hinj : ∀ k < n, ∀ k' < n, ∀ e e',
      syndrome shift start k e = syndrome shift start k' e' → k = k' ∧ e = e')
    (hlen : xs.length ≤ n) (hxy : UpTo (Altered fun a b => ∃ e, b = err e a) 3 xs ys) (s : σ)
    (hsame : xs.foldl step s = ys.foldl step s) : xs = ys := by
  cases hxy with
  | refl => rfl
  | @step _ _ xs₁ _ hxy h₁ =>
    have hlen₁ := hxy.length_eq
    obtain ⟨k₁, hk₁, e₁, hhit₁⟩ := h₁.hitBy
    rw [h.foldl_hit hhit₁] at hsame
    have hodd₁ := hodd k₁ (by omega) e₁
    cases hxy with
    | refl =>
      have hflip := congrArg parity hsame
      rw [hparity, hodd₁] at hflip
      cases hp : parity (xs.foldl step s) <;> simp [hp] at hflip
    | @step _ _ xs₂ _ hxy h₂ =>
      have hlen₂ := hxy.length_eq
      obtain ⟨k₂, hk₂, e₂, hhit₂⟩ := h₂.hitBy
      rw [h.foldl_hit hhit₂] at hsame
      have hodd₂ := hodd k₂ (by omega) e₂
      cases hxy with
      | refl =>
        have htwo : syndrome shift start k₂ e₂ = syndrome shift start k₁ e₁ := by
          have hundo := h.undo (xs.foldl step s ^^^ syndrome shift start k₂ e₂)
            (syndrome shift start k₁ e₁)
          rw [← hsame] at hundo
          exact h.cancel _ _ _ hundo.symm
        obtain ⟨rfl, rfl⟩ := hinj k₂ (by omega) k₁ (by omega) e₂ e₁ htwo
        exact h.eq_of_hit_twice hhit₂ hhit₁
      | @step _ _ xs₃ _ hxy h₃ =>
        obtain ⟨k₃, hk₃, e₃, hhit₃⟩ := h₃.hitBy
        have hodd₃ := hodd k₃ (by have := hxy.length_eq; omega) e₃
        cases hxy with
        | refl =>
          rw [h.foldl_hit hhit₃] at hsame
          have hflip := congrArg parity hsame
          rw [hparity, hparity, hparity, hodd₁, hodd₂, hodd₃] at hflip
          cases hp : parity (xs.foldl step s) <;> simp [hp] at hflip

end Linear

end

/-! ## Bits -/

/-- Whether an odd number of the first `w` bits is set. -/
def bitParity : (w n : ℕ) → Bool
  | 0, _ => false
  | w + 1, n => n.testBit w ^^ bitParity w n

lemma bitParity_xor (w m n : ℕ) : bitParity w (m ^^^ n) = (bitParity w m ^^ bitParity w n) := by
  induction w with
  | zero => rfl
  | succ w ih =>
    rw [bitParity, bitParity, bitParity, ih, Nat.testBit_xor]
    cases m.testBit w <;> cases n.testBit w <;> simp

/-- The entries for the single bits of `n`, the first `w` of them, added up. -/
def spanned (entry : ℕ → ℕ) : (w n : ℕ) → ℕ
  | 0, _ => 0
  | w + 1, n => (if n.testBit w then entry (2 ^ w) else 0) ^^^ spanned entry w n

lemma spanned_xor (entry : ℕ → ℕ) (w m n : ℕ) :
    spanned entry w (m ^^^ n) = spanned entry w m ^^^ spanned entry w n := by
  induction w with
  | zero => exact (Nat.xor_self 0).symm
  | succ w ih =>
    have hbit : (if (m ^^^ n).testBit w then entry (2 ^ w) else 0) =
        (if m.testBit w then entry (2 ^ w) else 0) ^^^
          (if n.testBit w then entry (2 ^ w) else 0) := by
      rw [Nat.testBit_xor]
      cases m.testBit w <;> cases n.testBit w <;> simp
    rw [spanned, spanned, spanned, ih, hbit]
    ac_rfl

/-- A table is additive if each entry is what the single bits of its index add up to. -/
lemma entry_xor_of_spanned {entry : ℕ → ℕ} {w : ℕ}
    (h : ∀ n < 2 ^ w, entry n = spanned entry w n) {m n : ℕ} (hm : m < 2 ^ w) (hn : n < 2 ^ w) :
    entry (m ^^^ n) = entry m ^^^ entry n := by
  rw [h m hm, h n hn, h _ (Nat.xor_lt_two_pow hm hn), spanned_xor]

end Ipcf
