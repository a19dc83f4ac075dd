import Mathlib.Logic.Relation

/-!
# Forward simulation

One transition system simulates another when every step of the second is answered by steps of the
first, perhaps none, perhaps many (`Simulates`); then every run is answered by a run
(`Simulates.run`), and what holds of the one holds of the other.  A system can be answered by two
systems side by side (`Beside`), whose runs are just a run of each.
-/

namespace Ipcf

open Relation

variable {α β γ : Type*} {a a' : α} {b b' : β}

/-- Each step of `step` is answered by steps of `step'`, between related states. -/
def Simulates (R : α → β → Prop) (step : α → α → Prop) (step' : β → β → Prop) : Prop :=
  ∀ a a' b, R a b → step a a' → ∃ b', ReflTransGen step' b b' ∧ R a' b'

section

variable {R : α → β → Prop} {step : α → α → Prop} {step' : β → β → Prop}

lemma Simulates.run (h : Simulates R step step') (hR : R a b) (hrun : ReflTransGen step a a') :
    ∃ b', ReflTransGen step' b b' ∧ R a' b' := by
  induction hrun with
  | refl => exact ⟨b, .refl, hR⟩
  | tail _ hstep ih =>
    obtain ⟨b₁, hb₁, hR₁⟩ := ih
    obtain ⟨b₂, hb₂, hR₂⟩ := h _ _ _ hR₁ hstep
    exact ⟨b₂, hb₁.trans hb₂, hR₂⟩

/-- Simulations compose. -/
lemma Simulates.comp {S : β → γ → Prop} {step'' : γ → γ → Prop} (h : Simulates R step step')
    (h' : Simulates S step' step'') :
    Simulates (fun a c => ∃ b, R a b ∧ S b c) step step'' := by
  rintro a a' c ⟨b, hR, hS⟩ hstep
  obtain ⟨b', hrun, hR'⟩ := h a a' b hR hstep
  obtain ⟨c', hrun', hS'⟩ := h'.run hS hrun
  exact ⟨c', hrun', b', hR', hS'⟩

/-- An invariant of the runs that answer, seen through the relation. -/
lemma Simulates.invariant (h : Simulates R step step') (hR : R a b) {P : β → Prop} {Q : α → Prop}
    (hP : ∀ b', ReflTransGen step' b b' → P b') (hPQ : ∀ a b, R a b → P b → Q a)
    (hrun : ReflTransGen step a a') : Q a' := by
  obtain ⟨b', hb', hR'⟩ := h.run hR hrun
  exact hPQ a' b' hR' (hP b' hb')

end

/-! ## Two systems side by side -/

/-- A step of one of the two systems. -/
inductive Beside (step : α → α → Prop) (step' : β → β → Prop) : α × β → α × β → Prop
  | left {a a' : α} (b : β) (h : step a a') : Beside step step' (a, b) (a', b)
  | right (a : α) {b b' : β} (h : step' b b') : Beside step step' (a, b) (a, b')

section

variable {step : α → α → Prop} {step' : β → β → Prop}

lemma Beside.runLeft (b : β) (h : ReflTransGen step a a') :
    ReflTransGen (Beside step step') (a, b) (a', b) := by
  induction h with
  | refl => exact .refl
  | tail _ hstep ih => exact ih.tail (.left b hstep)

lemma Beside.runRight (a : α) (h : ReflTransGen step' b b') :
    ReflTransGen (Beside step step') (a, b) (a, b') := by
  induction h with
  | refl => exact .refl
  | tail _ hstep ih => exact ih.tail (.right a hstep)

/-- **A run side by side is a run of each.** -/
lemma beside_iff {p q : α × β} :
    ReflTransGen (Beside step step') p q ↔
      ReflTransGen step p.1 q.1 ∧ ReflTransGen step' p.2 q.2 := by
  constructor
  · intro h
    induction h with
    | refl => exact ⟨.refl, .refl⟩
    | tail _ hstep ih =>
      cases hstep with
      | left b h => exact ⟨ih.1.tail h, ih.2⟩
      | right a h => exact ⟨ih.1, ih.2.tail h⟩
  · rintro ⟨h, h'⟩
    exact (Beside.runLeft p.2 h).trans (Beside.runRight q.1 h')

lemma Beside.runSwap {p q : α × β} (h : ReflTransGen (Beside step step') p q) :
    ReflTransGen (Beside step' step) p.swap q.swap :=
  beside_iff.2 (beside_iff.1 h).symm

end

end Ipcf
