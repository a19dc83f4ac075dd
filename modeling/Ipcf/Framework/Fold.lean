import Mathlib.Data.List.Basic
import Mathlib.Tactic.Common

/-!
# Loops over the keys of a table, and logs of runs

A loop that visits the keys of a table one by one and, at each key, looks only at the entry of
that key: afterwards every visited entry has been changed once, from what it was before the loop
(`foldl_entry`), and what the loop has put out is what the entries, as they were before the loop,
put out (`foldl_output`).

An observer of a run changes nothing of it (`foldl_observer`), and what it says of an entry of its
log and of those behind it has to be asked only of the last entry (`exists_split_concat`).
-/

namespace Ipcf

variable {σ ι α β : Type*}

section

variable [DecidableEq ι] (entry : σ → ι → α) {body : σ → ι → σ} (change : ι → α → α)

/-- After the loop every visited entry has been changed once. -/
lemma foldl_entry
    (hbody : ∀ s i k, entry (body s i) k = if k = i then change i (entry s i) else entry s k)
    {keys : List ι} (hkeys : keys.Nodup) (s : σ) (k : ι) :
    entry (keys.foldl body s) k = if k ∈ keys then change k (entry s k) else entry s k := by
  induction keys generalizing s with
  | nil => simp
  | cons i keys ih =>
    obtain ⟨hi, hkeys⟩ := List.nodup_cons.1 hkeys
    rw [List.foldl_cons, ih hkeys, hbody]
    by_cases hk : k = i
    · subst hk
      simp [hi]
    · simp [hk]

/-- The loop puts out what the entries put out before it. -/
lemma foldl_output (out : σ → List β) (emit : ι → α → List β)
    (hbody : ∀ s i k, entry (body s i) k = if k = i then change i (entry s i) else entry s k)
    (hout : ∀ s i, out (body s i) = out s ++ emit i (entry s i))
    {keys : List ι} (hkeys : keys.Nodup) (s : σ) :
    out (keys.foldl body s) = out s ++ keys.flatMap fun i => emit i (entry s i) := by
  induction keys generalizing s with
  | nil => simp
  | cons i keys ih =>
    obtain ⟨hi, hkeys⟩ := List.nodup_cons.1 hkeys
    have hrest : ∀ j ∈ keys, emit j (entry (body s i) j) = emit j (entry s j) := by
      intro j hj
      have hne : j ≠ i := fun h => hi (h ▸ hj)
      rw [hbody, if_neg hne]
    rw [List.foldl_cons, ih hkeys, hout, List.flatMap_cons, List.append_assoc]
    congr 2
    exact List.flatMap_congr hrest

end

/-- An observer that goes along with a state and looks at it does not change it. -/
lemma foldl_observer (step : σ → ι → σ) (note : σ → α → ι → α) (events : List ι) (s : σ) (a : α) :
    (events.foldl (fun r e => (step r.1 e, note r.1 r.2 e)) (s, a)).1 = events.foldl step s := by
  induction events generalizing s a with
  | nil => rfl
  | cons e events ih => exact ih (step s e) (note s a e)

/-- An entry of a log with one more event `x` is `x` itself or was there before. -/
lemma split_concat {log before after : List α} {e x : α} (h : log ++ [x] = before ++ e :: after) :
    (before = log ∧ e = x ∧ after = []) ∨
      ∃ after', after = after' ++ [x] ∧ log = before ++ e :: after' := by
  rcases List.eq_nil_or_concat after with rfl | ⟨after, y, rfl⟩
  · obtain ⟨hlog, hx⟩ := List.append_inj' h rfl
    exact .inl ⟨hlog.symm, (List.cons.inj hx).1.symm, rfl⟩
  · rw [List.concat_eq_append] at h ⊢
    have hsplit : log ++ [x] = (before ++ e :: after) ++ [y] := by
      rw [h, List.append_assoc]
      rfl
    obtain ⟨hlog, hx⟩ := List.append_inj' hsplit rfl
    obtain rfl := (List.cons.inj hx).1
    exact .inr ⟨after, rfl, hlog⟩

/-- What has happened since `e`, after one more event `x`. -/
lemma exists_split_concat {log : List α} {e x : α} {P : List α → Prop} :
    (∃ before after, log ++ [x] = before ++ e :: after ∧ P after) ↔
      (x = e ∧ P []) ∨ ∃ before after, log = before ++ e :: after ∧ P (after ++ [x]) := by
  constructor
  · rintro ⟨before, after, hlog, hP⟩
    rcases split_concat hlog with ⟨-, rfl, rfl⟩ | ⟨after', rfl, hlog'⟩
    · exact .inl ⟨rfl, hP⟩
    · exact .inr ⟨before, after', hlog', hP⟩
  · rintro (⟨rfl, hP⟩ | ⟨before, after, rfl, hP⟩)
    · exact ⟨log, [], rfl, hP⟩
    · exact ⟨before, after ++ [x], by simp, hP⟩

/-- What no iteration changes the loop does not change. -/
lemma foldl_const (f : σ → α) {body : σ → ι → σ} (hbody : ∀ s i, f (body s i) = f s)
    (keys : List ι) (s : σ) : f (keys.foldl body s) = f s := by
  induction keys generalizing s with
  | nil => rfl
  | cons i keys ih => rw [List.foldl_cons, ih, hbody]

/-- Of a list of keys without repetition only one puts anything out. -/
lemma flatMap_single {emit : ι → List β} {k : ι} {keys : List ι} (hemit : ∀ i, i ≠ k → emit i = [])
    (hkeys : keys.Nodup) (hk : k ∈ keys) : keys.flatMap emit = emit k := by
  induction keys with
  | nil => cases hk
  | cons i keys ih =>
    obtain ⟨hi, hkeys⟩ := List.nodup_cons.1 hkeys
    rw [List.flatMap_cons]
    rcases List.mem_cons.1 hk with rfl | hk
    · have hrest : keys.flatMap emit = [] := by
        rw [List.flatMap_eq_nil_iff]
        intro j hj
        exact hemit j fun h => hi (h ▸ hj)
      rw [hrest, List.append_nil]
    · rw [ih hkeys hk, hemit i fun h => hi (h ▸ hk), List.nil_append]

end Ipcf
