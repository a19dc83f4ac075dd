import Mathlib.Data.List.Basic
import Mathlib.Tactic.Common

/-!
# Byte stuffing

The framing discipline in which one symbol, the delimiter, may occur only at the two ends of a
frame: inside, the delimiter and the escape symbol itself are written as two symbols, the
escape symbol followed by a code.  `Code` collects the four symbols and the three facts about
them that decoding needs.

`stuff` is the transparent form of a payload, `unstuff` the reader that starts behind an opening
delimiter and says why it stopped.  The reader undoes the writer from left to right
(`unstuff_stuff_append`), so it recovers a whole payload from a closed frame and a prefix of it
from one that was cut anywhere.  `fit` is how many symbols of a payload a given room takes;
`le_fit_iff` is its defining property.
-/

namespace Ipcf

/-- The symbols of a stuffing code. -/
structure Stuffing (α : Type*) where
  delim : α
  esc : α
  escDelim : α
  escEsc : α
  esc_ne_delim : esc ≠ delim
  escDelim_ne_delim : escDelim ≠ delim
  escEsc_ne_delim : escEsc ≠ delim
  escEsc_ne_escDelim : escEsc ≠ escDelim

namespace Stuffing

/-- Why the reader stopped: at a closing delimiter, at the end of the input, at an escape symbol
with nothing behind it, or at one followed by an unknown code. -/
inductive Stop
  | closed
  | cut
  | dangling
  | unknown
  deriving DecidableEq, Repr

variable {α : Type*} [DecidableEq α] (c : Stuffing α)

/-! ## Writing -/

/-- The transparent form of one symbol. -/
def stuff1 (x : α) : List α :=
  if x = c.delim then [c.esc, c.escDelim] else if x = c.esc then [c.esc, c.escEsc] else [x]

/-- The transparent form of a payload. -/
def stuff (xs : List α) : List α := xs.flatMap c.stuff1

@[simp] lemma stuff_nil : c.stuff [] = [] := rfl

@[simp] lemma stuff_cons (x : α) (xs : List α) : c.stuff (x :: xs) = c.stuff1 x ++ c.stuff xs := by
  simp [stuff]

@[simp] lemma stuff_append (xs ys : List α) : c.stuff (xs ++ ys) = c.stuff xs ++ c.stuff ys := by
  simp [stuff]

lemma length_stuff1_pos (x : α) : 1 ≤ (c.stuff1 x).length := by
  unfold stuff1
  split_ifs <;> simp

lemma length_stuff1_le (x : α) : (c.stuff1 x).length ≤ 2 := by
  unfold stuff1
  split_ifs <;> simp

/-- A symbol takes two places exactly when it is one of the two reserved ones. -/
lemma length_stuff1_eq_two_iff (x : α) :
    (c.stuff1 x).length = 2 ↔ x = c.delim ∨ x = c.esc := by
  unfold stuff1
  split_ifs <;> simp_all

lemma length_le_length_stuff (xs : List α) : xs.length ≤ (c.stuff xs).length := by
  induction xs with
  | nil => simp
  | cons x xs ih =>
    have := c.length_stuff1_pos x
    simp only [List.length_cons, stuff_cons, List.length_append]
    omega

lemma length_stuff_le (xs : List α) : (c.stuff xs).length ≤ 2 * xs.length := by
  induction xs with
  | nil => simp
  | cons x xs ih =>
    have := c.length_stuff1_le x
    simp only [List.length_cons, stuff_cons, List.length_append]
    omega

/-- The transparent form contains no delimiter. -/
lemma delim_notMem_stuff (xs : List α) : c.delim ∉ c.stuff xs := by
  simp only [stuff, List.mem_flatMap, not_exists, not_and]
  intro x _
  unfold stuff1
  split_ifs with hd he
  · simp [c.esc_ne_delim.symm, c.escDelim_ne_delim.symm]
  · simp [c.esc_ne_delim.symm, c.escEsc_ne_delim.symm]
  · simpa using fun h => hd h.symm

/-! ## Reading -/

/-- Read a stream that starts behind an opening delimiter. -/
def unstuff : List α → List α × Stop
  | [] => ([], .cut)
  | x :: xs =>
    if x = c.delim then ([], .closed)
    else if x = c.esc then
      match xs with
      | [] => ([], .dangling)
      | y :: ys =>
        if y = c.escDelim then ((unstuff ys).1.cons c.delim, (unstuff ys).2)
        else if y = c.escEsc then ((unstuff ys).1.cons c.esc, (unstuff ys).2)
        else ([], .unknown)
    else ((unstuff xs).1.cons x, (unstuff xs).2)

@[simp] lemma unstuff_nil : c.unstuff [] = ([], .cut) := by simp [unstuff]

@[simp] lemma unstuff_delim (xs : List α) : c.unstuff (c.delim :: xs) = ([], .closed) := by
  rw [unstuff.eq_def]
  simp

lemma unstuff_stuff1_append (x : α) (ys : List α) :
    c.unstuff (c.stuff1 x ++ ys) = (x :: (c.unstuff ys).1, (c.unstuff ys).2) := by
  unfold stuff1
  split_ifs with hd he
  · simp [unstuff, c.esc_ne_delim, hd]
  · simp [unstuff, c.esc_ne_delim, c.escEsc_ne_escDelim, he]
  · rw [List.singleton_append]
    conv_lhs => rw [unstuff.eq_def]
    simp [hd, he]

/-- The reader undoes the writer and goes on behind it. -/
lemma unstuff_stuff_append (xs ys : List α) :
    c.unstuff (c.stuff xs ++ ys) = (xs ++ (c.unstuff ys).1, (c.unstuff ys).2) := by
  induction xs with
  | nil => simp
  | cons x xs ih => rw [stuff_cons, List.append_assoc, unstuff_stuff1_append, ih, List.cons_append]

/-- A closed frame is read back whole, whatever follows it. -/
lemma unstuff_closed (xs ys : List α) :
    c.unstuff (c.stuff xs ++ c.delim :: ys) = (xs, .closed) := by
  simp [unstuff_stuff_append]

/-- Nothing else is read as a closed frame: what the reader took is the transparent form of what
it recovered, and the delimiter behind it. -/
lemma eq_stuff_of_closed {xs ys : List α} (h : c.unstuff xs = (ys, .closed)) :
    ∃ rest, xs = c.stuff ys ++ c.delim :: rest := by
  fun_induction unstuff c xs generalizing ys with
  | case1 => simp at h
  | case2 xs =>
    obtain rfl : [] = ys := congrArg Prod.fst h
    exact ⟨xs, rfl⟩
  | case3 hd => simp at h
  | case4 hd zs ih =>
    obtain ⟨hys, hclosed⟩ := Prod.mk.inj h
    obtain ⟨rest, hrest⟩ := ih (Prod.ext rfl hclosed)
    refine ⟨rest, ?_⟩
    rw [← hys, stuff_cons, stuff1, if_pos rfl, List.append_assoc, ← hrest]
    rfl
  | case5 hd zs hcode ih =>
    obtain ⟨hys, hclosed⟩ := Prod.mk.inj h
    obtain ⟨rest, hrest⟩ := ih (Prod.ext rfl hclosed)
    refine ⟨rest, ?_⟩
    rw [← hys, stuff_cons, stuff1, if_neg c.esc_ne_delim, if_pos rfl, List.append_assoc, ← hrest]
    rfl
  | case6 hd y zs hy hy' => simp at h
  | case7 x xs hd he ih =>
    obtain ⟨hys, hclosed⟩ := Prod.mk.inj h
    obtain ⟨rest, hrest⟩ := ih (Prod.ext rfl hclosed)
    refine ⟨rest, ?_⟩
    rw [← hys, stuff_cons, stuff1, if_neg hd, if_neg he, List.append_assoc, ← hrest]
    rfl

/-- A cut frame is read back as a prefix of its payload, and the reader stops at the end of the
input or inside an escape pair. -/
lemma unstuff_of_prefix {xs zs : List α} (h : zs <+: c.stuff xs) :
    (c.unstuff zs).1 <+: xs ∧ ((c.unstuff zs).2 = .cut ∨ (c.unstuff zs).2 = .dangling) := by
  induction xs generalizing zs with
  | nil =>
    rw [stuff_nil, List.prefix_nil] at h
    simp [h]
  | cons x xs ih =>
    rw [stuff_cons] at h
    by_cases hlen : (c.stuff1 x).length ≤ zs.length
    · -- the first symbol arrived whole
      obtain ⟨zs', rfl⟩ := List.prefix_of_prefix_length_le (List.prefix_append _ _) h hlen
      obtain ⟨hpre, hstop⟩ := ih ((List.prefix_append_right_inj _).1 h)
      rw [unstuff_stuff1_append]
      exact ⟨List.cons_prefix_cons.2 ⟨rfl, hpre⟩, hstop⟩
    · have hcut : zs <+: c.stuff1 x :=
        List.prefix_of_prefix_length_le h (List.prefix_append _ _) (by omega)
      have hshort := c.length_stuff1_le x
      match zs, hcut with
      | [], _ => simp
      | [z], hcut =>
        have hz : z = c.esc := by
          obtain hres := (c.length_stuff1_eq_two_iff x).1 (by simp at hlen; omega)
          unfold stuff1 at hcut
          rcases hres with rfl | rfl
          · simpa using hcut
          · simpa [c.esc_ne_delim] using hcut
        subst hz
        rw [unstuff.eq_def]
        simp [c.esc_ne_delim]
      | _ :: _ :: _, _ =>
        simp only [List.length_cons] at hlen
        omega

/-- One symbol behind a cut payload contributes itself or nothing: a reserved symbol is never
read out of a single place. -/
lemma unstuff_singleton (x : α) :
    (c.unstuff [x]).1 = [] ∨ (c.unstuff [x]).1 = [x] ∧ x ≠ c.delim ∧ x ≠ c.esc := by
  rw [unstuff.eq_def]
  by_cases hd : x = c.delim
  · simp [hd]
  · by_cases he : x = c.esc
    · simp [he, c.esc_ne_delim]
    · simp [hd, he]

/-! ## How much fits -/

/-- How many symbols of a payload fit into `room` places. -/
def fit : ℕ → List α → ℕ
  | _, [] => 0
  | room, x :: xs =>
    if (c.stuff1 x).length ≤ room then fit (room - (c.stuff1 x).length) xs + 1 else 0

lemma fit_le_length (room : ℕ) (xs : List α) : c.fit room xs ≤ xs.length := by
  induction xs generalizing room with
  | nil => simp [fit]
  | cons x xs ih =>
    simp only [fit]
    split_ifs
    · simpa using ih _
    · simp

/-- `fit` is the longest prefix that fits. -/
lemma le_fit_iff (room : ℕ) (xs : List α) {k : ℕ} (hk : k ≤ xs.length) :
    k ≤ c.fit room xs ↔ (c.stuff (xs.take k)).length ≤ room := by
  induction xs generalizing room k with
  | nil =>
    have : k = 0 := by simpa using hk
    simp [this]
  | cons x xs ih =>
    cases k with
    | zero => simp
    | succ k =>
      have hk' : k ≤ xs.length := by simpa using hk
      simp only [fit, List.take_succ_cons, stuff_cons, List.length_append]
      split_ifs with hx
      · rw [Nat.add_le_add_iff_right, ih _ hk']
        omega
      · constructor <;> intro h <;> omega

lemma length_stuff_take_fit (room : ℕ) (xs : List α) :
    (c.stuff (xs.take (c.fit room xs))).length ≤ room :=
  (c.le_fit_iff room xs (c.fit_le_length room xs)).1 (Nat.le_refl _)

lemma fit_eq_length_iff (room : ℕ) (xs : List α) :
    c.fit room xs = xs.length ↔ (c.stuff xs).length ≤ room := by
  have h := c.le_fit_iff room xs (Nat.le_refl xs.length)
  rw [List.take_length] at h
  rw [← h]
  have := c.fit_le_length room xs
  omega

/-- The first symbol that does not fit needs more places than are left; so at most one place is
left, and when one is, that symbol is a reserved one. -/
lemma fit_gap {room : ℕ} {xs : List α} (h : c.fit room xs < xs.length) :
    room < (c.stuff (xs.take (c.fit room xs))).length + (c.stuff1 xs[c.fit room xs]).length := by
  by_contra hle
  have hsucc : c.fit room xs + 1 ≤ c.fit room xs := by
    rw [c.le_fit_iff room xs h, List.take_add_one, List.getElem?_eq_getElem h, stuff_append]
    simpa using Nat.le_of_not_lt hle
  omega

end Stuffing

end Ipcf
