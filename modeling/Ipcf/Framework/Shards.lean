import Ipcf.Framework.Fold
import Mathlib.Data.List.Induction
import Mathlib.Data.List.Nodup
import Mathlib.Tactic.Common

/-!
# One machine that is many

A machine that keeps a part of its state for every key, where an event changes each part by itself
and what it puts out is what the parts put out, key by key (`Sharded`).  If an event that does not
concern a key leaves its part alone, and one that does leaves fresh parts of other keys alone, then
the machine is as many machines as there are keys, each of which sees only the events that concern
its key (`Sharded.apart`): the parts are theirs, and the output is theirs, interleaved.
-/

namespace Ipcf

variable {σ ε ι α β : Type*}

/-- The parts of a state change on their own. -/
structure Sharded (step : σ → ε → σ) (part : σ → ι → α) (out : σ → List β)
    (change : ι → ε → α → α × List β) (keys : List ι) : Prop where
  nodup : keys.Nodup
  complete : ∀ k, k ∈ keys
  parts : ∀ s e k, part (step s e) k = (change k e (part s k)).1
  outs : ∀ s e, out (step s e) = out s ++ keys.flatMap fun k => (change k e (part s k)).2

/-- The events that concern a key. -/
structure Concern (change : ι → ε → α → α × List β) (fresh : α) (concerns : ι → ε → Bool) :
    Prop where
  other : ∀ k e a, concerns k e = false → change k e a = (a, [])
  quiet : ∀ k j e, concerns k e = true → j ≠ k → change j e fresh = (fresh, [])

section

variable {step : σ → ε → σ} {part : σ → ι → α} {out : σ → List β}
  {change : ι → ε → α → α × List β} {keys : List ι} {fresh : α} {concerns : ι → ε → Bool} {s s₀ : σ}
  {e : ε}

/-- A step of the machine that sees only the events of `k`: its other parts stay fresh. -/
lemma Sharded.solo_step (h : Sharded step part out change keys)
    (hc : Concern change fresh concerns) {k : ι} (he : concerns k e = true)
    (hfresh : ∀ j, j ≠ k → part s j = fresh) :
    (∀ j, j ≠ k → part (step s e) j = fresh) ∧
      out (step s e) = out s ++ (change k e (part s k)).2 := by
  have hquiet : ∀ j, j ≠ k → change j e (part s j) = (fresh, []) := by
    intro j hj
    rw [hfresh j hj]
    exact hc.quiet k j e he hj
  refine ⟨fun j hj => ?_, ?_⟩
  · rw [h.parts, hquiet j hj]
  · rw [h.outs, flatMap_single (k := k) (fun j hj => by rw [hquiet j hj]) h.nodup (h.complete k)]

/-- The state of the machine of `k`. -/
def solo (step : σ → ε → σ) (concerns : ι → ε → Bool) (s₀ : σ) (k : ι) (es : List ε) : σ :=
  (es.filter (concerns k)).foldl step s₀

lemma solo_append (k : ι) (es : List ε) (e : ε) :
    solo step concerns s₀ k (es ++ [e]) =
      if concerns k e then step (solo step concerns s₀ k es) e
      else solo step concerns s₀ k es := by
  rw [solo, List.filter_append, List.foldl_append, solo]
  cases he : concerns k e <;> simp [he]

lemma Sharded.solo_fresh (h : Sharded step part out change keys)
    (hc : Concern change fresh concerns) (hpart : ∀ k, part s₀ k = fresh) (k : ι) (es : List ε) :
    ∀ j, j ≠ k → part (solo step concerns s₀ k es) j = fresh := by
  induction es using List.reverseRecOn with
  | nil => exact fun j _ => hpart j
  | append_singleton es e ih =>
    rw [solo_append]
    split_ifs with he
    · exact (h.solo_step hc he ih).1
    · exact ih

/-- One more event: the machine of `k` does what the event does to a part of `k`, be it nothing. -/
lemma Sharded.solo_concat (h : Sharded step part out change keys)
    (hc : Concern change fresh concerns) (hpart : ∀ k, part s₀ k = fresh) (k : ι) (es : List ε)
    (e : ε) :
    part (solo step concerns s₀ k (es ++ [e])) k =
        (change k e (part (solo step concerns s₀ k es) k)).1 ∧
      out (solo step concerns s₀ k (es ++ [e])) =
        out (solo step concerns s₀ k es) ++
          (change k e (part (solo step concerns s₀ k es) k)).2 := by
  have hfresh := h.solo_fresh hc hpart k es
  rw [solo_append]
  split_ifs with he
  · exact ⟨h.parts _ e k, (h.solo_step hc he hfresh).2⟩
  · rw [hc.other k e _ (Bool.not_eq_true _ ▸ he), List.append_nil]
    exact ⟨rfl, rfl⟩

variable [DecidableEq ι]

/-- The output of one step, with the key of each entry. -/
lemma filter_tagged (hkeys : keys.Nodup) {k : ι} (hk : k ∈ keys) (f : ι → List β) :
    ((keys.flatMap fun j => (f j).map (Prod.mk j)).filter fun x => x.1 = k).map Prod.snd = f k := by
  rw [List.filter_flatMap, flatMap_single (k := k) _ hkeys hk]
  · simp [List.filter_map, Function.comp_def]
  · intro j hj
    simp [List.filter_map, Function.comp_def, hj]

/-- **Each key on its own.** -/
lemma Sharded.apart (h : Sharded step part out change keys) (hc : Concern change fresh concerns)
    (s₀ : σ) (hpart : ∀ k, part s₀ k = fresh) (hout : out s₀ = []) (es : List ε) :
    (∀ k, part (es.foldl step s₀) k = part (solo step concerns s₀ k es) k) ∧
      ∃ tagged : List (ι × β), tagged.map Prod.snd = out (es.foldl step s₀) ∧
        ∀ k, (tagged.filter fun x => x.1 = k).map Prod.snd = out (solo step concerns s₀ k es) := by
  induction es using List.reverseRecOn with
  | nil => exact ⟨fun _ => rfl, [], by simp [hout], by simp [solo, hout]⟩
  | append_singleton es e ih =>
    obtain ⟨hparts, tagged, htagged, hkeys⟩ := ih
    have hsolo := fun k => h.solo_concat hc hpart k es e
    refine ⟨fun k => ?_, tagged ++ keys.flatMap fun k =>
      (change k e (part (es.foldl step s₀) k)).2.map (Prod.mk k), ?_, fun k => ?_⟩
    · rw [List.foldl_append, List.foldl_cons, List.foldl_nil, h.parts, (hsolo k).1, hparts k]
    · rw [List.foldl_append, List.foldl_cons, List.foldl_nil, h.outs, List.map_append, htagged,
        List.map_flatMap]
      simp [Function.comp_def]
    · rw [List.filter_append, List.map_append, hkeys k,
        filter_tagged h.nodup (h.complete k) fun k => (change k e (part (es.foldl step s₀) k)).2,
        (hsolo k).2, hparts k]

end

end Ipcf
