import Mathlib.Data.List.Basic
import Mathlib.Logic.Relation
import Mathlib.Tactic.Common

/-!
# Loops without a counter

A loop whose body, run on a state, either leaves the loop with a result or leaves the state of the
next iteration.  Nothing bounds the number of iterations: `Reaches` are the states in which
iterations begin, and `runLoop n` is the result when `n` iterations are enough.

`returns_of_measure` is the rule for total correctness: where an invariant holds in the first state
and every iteration that does not leave the loop keeps it and lowers a measure, the loop is left
after at most as many iterations as the measure allows, in a state that has the invariant.
-/

namespace Ipcf

variable {σ ρ : Type*}

/-- The result of the loop, if it is left within `n` iterations. -/
def runLoop (body : σ → ρ ⊕ σ) : (n : ℕ) → (s : σ) → Option ρ
  | 0, _ => none
  | n + 1, s =>
    match body s with
    | .inl r => some r
    | .inr s' => runLoop body n s'

/-- An iteration that begins in `s` does not leave the loop, and the next begins in `s'`. -/
def Continues (body : σ → ρ ⊕ σ) (s s' : σ) : Prop := body s = .inr s'

/-- In a loop that is entered in the first state, some iteration begins in the second. -/
def Reaches (body : σ → ρ ⊕ σ) : σ → σ → Prop := Relation.ReflTransGen (Continues body)

section

variable {body : σ → ρ ⊕ σ} {s s' : σ} {n : ℕ} {r : ρ}

lemma runLoop_inl (h : body s = .inl r) : runLoop body (n + 1) s = some r := by
  rw [runLoop, h]

lemma runLoop_inr (h : body s = .inr s') : runLoop body (n + 1) s = runLoop body n s' := by
  rw [runLoop, h]

/-- More iterations than enough change nothing. -/
lemma runLoop_mono {m : ℕ} (hn : n ≤ m) (h : runLoop body n s = some r) :
    runLoop body m s = some r := by
  induction n generalizing m s with
  | zero => cases h
  | succ n ih =>
    obtain ⟨m, rfl⟩ : ∃ k, m = k + 1 := ⟨m - 1, by omega⟩
    cases hbody : body s with
    | inl r' =>
      rw [runLoop_inl hbody] at h ⊢
      exact h
    | inr s' =>
      rw [runLoop_inr hbody] at h ⊢
      exact ih (by omega) h

/-- The last iteration begins in a state that is reached. -/
lemma runLoop_last (h : runLoop body n s = some r) :
    ∃ s', Reaches body s s' ∧ body s' = .inl r := by
  induction n generalizing s with
  | zero => cases h
  | succ n ih =>
    cases hbody : body s with
    | inl r' =>
      rw [runLoop_inl hbody] at h
      obtain rfl := Option.some.inj h
      exact ⟨s, .refl, hbody⟩
    | inr s' =>
      rw [runLoop_inr hbody] at h
      obtain ⟨t, hreach, ht⟩ := ih h
      exact ⟨t, .head hbody hreach, ht⟩

/-- An invariant holds whenever an iteration begins. -/
lemma Reaches.invariant {Inv : σ → Prop} (hkeep : ∀ s s', Inv s → Continues body s s' → Inv s')
    (h : Reaches body s s') (hs : Inv s) : Inv s' := by
  induction h with
  | refl => exact hs
  | tail _ hstep ih => exact hkeep _ _ ih hstep

/-- **Total correctness of a loop.** -/
lemma returns_of_measure {Inv : σ → Prop} (measure : σ → ℕ)
    (hkeep : ∀ s s', Inv s → Continues body s s' → Inv s' ∧ measure s' < measure s)
    (hs : Inv s) :
    ∃ r, runLoop body (measure s + 1) s = some r := by
  induction hm : measure s using Nat.strongRecOn generalizing s with
  | ind m ih =>
    cases hbody : body s with
    | inl r => exact ⟨r, runLoop_inl hbody⟩
    | inr s' =>
      obtain ⟨hs', hlt⟩ := hkeep s s' hs hbody
      obtain ⟨r, hr⟩ := ih (measure s') (by omega) hs' rfl
      refine ⟨r, ?_⟩
      rw [runLoop_inr hbody]
      exact runLoop_mono (by omega) hr

end

end Ipcf
