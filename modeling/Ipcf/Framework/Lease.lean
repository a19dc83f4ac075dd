import Mathlib.Data.Int.Notation
import Mathlib.Data.List.Induction
import Mathlib.Tactic.Common

/-!
# Leases

A thing that is kept as long as it is used.  A use makes it, if it is not there, and gives it a
lease of `term`; a check that finds the lease at its end takes it away; nothing else touches it.
`Leased` says so of one event after any history, and `Lease` is what this comes to for a whole
history, in terms of the events alone: the last use, and no check since then that came too late.
-/

namespace Ipcf

section

variable {ε σ : Type*} (now : ε → ℤ) (uses : List ε → ε → Bool) (checks : ε → Bool) (term : ℤ)

/-- In the history `es` the last use was at `t`, and every check since then came before the end of
the lease that it gave. -/
def Lease (es : List ε) (t : ℤ) : Prop :=
  ∃ pre e post, es = pre ++ e :: post ∧ uses pre e = true ∧ now e = t ∧
    ∀ mid c rest, post = mid ++ c :: rest →
      uses (pre ++ e :: mid) c = false ∧ (checks c = true → now c < t + term)

/-- What an event does, after any history, to a thing that is leased: `thing es` is the thing after
`es`, with the end of its lease. -/
structure Leased (thing : List ε → Option σ) (expiry : σ → ℤ) : Prop where
  start : thing [] = none
  used : ∀ es e, uses es e = true → ∃ s, thing (es ++ [e]) = some s ∧ expiry s = now e + term
  absent : ∀ es e, uses es e = false → thing es = none → thing (es ++ [e]) = none
  kept : ∀ es e s, uses es e = false → thing es = some s → (checks e = true → now e < expiry s) →
    ∃ s', thing (es ++ [e]) = some s' ∧ expiry s' = expiry s
  expired : ∀ es e s, uses es e = false → thing es = some s → checks e = true →
    expiry s ≤ now e → thing (es ++ [e]) = none

variable {now uses checks term} {es : List ε} {e : ε} {t : ℤ}

lemma not_lease_nil : ¬ Lease now uses checks term [] t := by
  rintro ⟨pre, e, post, hes, -⟩
  simp at hes

/-- One more event: it is a use, or it leaves the lease that there is. -/
lemma lease_concat : Lease now uses checks term (es ++ [e]) t ↔
    uses es e = true ∧ now e = t ∨
      uses es e = false ∧ Lease now uses checks term es t ∧
        (checks e = true → now e < t + term) := by
  constructor
  · rintro ⟨pre, e', post, hes, huse, ht, hpost⟩
    rcases List.eq_nil_or_concat post with rfl | ⟨post, c, rfl⟩
    · obtain ⟨rfl, he⟩ := List.append_inj' hes rfl
      cases he
      exact .inl ⟨huse, ht⟩
    · rw [List.concat_eq_append] at hes hpost
      rw [← List.cons_append, ← List.append_assoc] at hes
      obtain ⟨rfl, he⟩ := List.append_inj' hes rfl
      cases he
      obtain ⟨hunused, hcheck⟩ := hpost post e [] rfl
      refine .inr ⟨hunused, ⟨pre, e', post, rfl, huse, ht, fun mid c rest hmid => ?_⟩, hcheck⟩
      exact hpost mid c (rest ++ [e]) (by rw [hmid, List.append_assoc, List.cons_append])
  · rintro (⟨huse, ht⟩ | ⟨hunused, ⟨pre, e', post, rfl, huse, ht, hpost⟩, hcheck⟩)
    · refine ⟨es, e, [], rfl, huse, ht, fun mid c rest hmid => ?_⟩
      simp at hmid
    · refine ⟨pre, e', post ++ [e], by simp, huse, ht, fun mid c rest hmid => ?_⟩
      rcases List.eq_nil_or_concat rest with rfl | ⟨rest, d, rfl⟩
      · obtain ⟨rfl, hc⟩ := List.append_inj' hmid rfl
        cases hc
        exact ⟨hunused, hcheck⟩
      · rw [List.concat_eq_append, ← List.cons_append, ← List.append_assoc] at hmid
        exact hpost mid c rest (List.append_inj' hmid rfl).1

/-- **Leases.**  The thing is there with a lease until `t + term` exactly if it was last used at
`t`, and has not been taken away since then. -/
lemma Leased.lease_iff {thing : List ε → Option σ} {expiry : σ → ℤ}
    (h : Leased now uses checks term thing expiry) (es : List ε) (t : ℤ) :
    (∃ s, thing es = some s ∧ expiry s = t + term) ↔ Lease now uses checks term es t := by
  induction es using List.reverseRecOn with
  | nil =>
    simp only [h.start, reduceCtorEq, false_and, exists_false, false_iff]
    exact not_lease_nil
  | append_singleton es e ih =>
    rw [lease_concat]
    cases huse : uses es e with
    | true =>
      obtain ⟨s, hs, hexpiry⟩ := h.used es e huse
      simp only [hs, Option.some.injEq, exists_eq_left', hexpiry, true_and, Bool.true_eq_false,
        false_and, or_false]
      omega
    | false =>
      simp only [Bool.false_eq_true, false_and, true_and, false_or]
      rw [← ih]
      cases hthing : thing es with
      | none => simp [h.absent es e huse hthing]
      | some s =>
        by_cases hend : checks e = true ∧ expiry s ≤ now e
        · simp only [h.expired es e s huse hthing hend.1 hend.2, reduceCtorEq, false_and,
            exists_false, Option.some.injEq, exists_eq_left', false_iff, hend.1, true_imp_iff]
          omega
        · obtain ⟨s', hs', hexpiry⟩ := h.kept es e s huse hthing fun hcheck =>
            Int.not_le.1 fun hle => hend ⟨hcheck, hle⟩
          simp only [hs', Option.some.injEq, exists_eq_left', hexpiry]
          refine ⟨fun heq => ⟨heq, fun hcheck => ?_⟩, And.left⟩
          rw [← heq]
          exact Int.not_le.1 fun hle => hend ⟨hcheck, hle⟩

lemma Lease.exists_use (h : Lease now uses checks term es t) : ∃ e ∈ es, now e = t := by
  obtain ⟨pre, e, post, rfl, -, ht, -⟩ := h
  exact ⟨e, List.mem_append_right _ List.mem_cons_self, ht⟩

/-- A check that comes long after everything else takes the thing away. -/
lemma Leased.gone {thing : List ε → Option σ} {expiry : σ → ℤ}
    (h : Leased now uses checks term thing expiry) (hunused : uses es e = false)
    (hcheck : checks e = true) (hpast : ∀ e' ∈ es, now e' + term ≤ now e) :
    thing (es ++ [e]) = none := by
  cases hthing : thing es with
  | none => exact h.absent es e hunused hthing
  | some s =>
    have hlease := (h.lease_iff es (expiry s - term)).1 ⟨s, hthing, by omega⟩
    obtain ⟨e', he', hnow⟩ := hlease.exists_use
    have hend := hpast e' he'
    exact h.expired es e s hunused hthing hcheck (by omega)

end

end Ipcf
