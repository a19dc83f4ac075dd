import Mathlib.Data.Option.Basic
import Mathlib.Logic.Function.Basic

/-!
# Keys that messages open and use

A party keeps an owner for some keys, and its messages arrive in the order of a queue.  A message
may open a key, which must have no owner by then, or use a key, which must belong to the owner that
the message means.  `Orderly` says that every message in the queue finds what it needs when its turn
comes, if the table is changed by nothing else, and `ownerAfter` is the table that is left.

What changes the two from outside: the queue gets longer at its end (`orderly_append`), its first
message is handled (by definition), and the party forgets a key, which is harmless when no message
in the queue is about it (`Orderly.forget`).  A key that has an owner and is not used in an orderly
queue is not opened either (`Orderly.not_opened`).
-/

namespace Ipcf

/-- What a message needs: `k` without an owner, to make `v` its owner; `k` with the owner `v`; or
nothing. -/
inductive Demand (κ υ : Type*)
  | opens (k : κ) (v : υ)
  | uses (k : κ) (v : υ)
  | idle

variable {κ υ : Type*} [DecidableEq κ]

namespace Demand

/-- The table has what the message needs. -/
def Meets (owner : κ → Option υ) : Demand κ υ → Prop
  | opens k _ => owner k = none
  | uses k v => owner k = some v
  | idle => True

/-- The table after the message. -/
def after (owner : κ → Option υ) : Demand κ υ → κ → Option υ
  | opens k v => Function.update owner k (some v)
  | uses _ _ => owner
  | idle => owner

/-- The key that the message is about. -/
def key : Demand κ υ → Option κ
  | opens k _ => some k
  | uses k _ => some k
  | idle => none

end Demand

/-- Every message finds what it needs. -/
def Orderly (owner : κ → Option υ) : List (Demand κ υ) → Prop
  | [] => True
  | d :: q => d.Meets owner ∧ Orderly (d.after owner) q

/-- The table after all messages. -/
def ownerAfter (owner : κ → Option υ) (q : List (Demand κ υ)) : κ → Option υ :=
  q.foldl Demand.after owner

section

variable {owner owner' : κ → Option υ} {q q' : List (Demand κ υ)} {k : κ} {v : υ}

/-! ## More messages -/

lemma orderly_append :
    Orderly owner (q ++ q') ↔ Orderly owner q ∧ Orderly (ownerAfter owner q) q' := by
  induction q generalizing owner with
  | nil => simp [Orderly, ownerAfter]
  | cons d q ih =>
    rw [List.cons_append, Orderly, Orderly, ih, and_assoc]
    rfl

lemma ownerAfter_append : ownerAfter owner (q ++ q') = ownerAfter (ownerAfter owner q) q' :=
  List.foldl_append

/-- Messages that use one key of their owner. -/
lemma orderly_of_uses (hown : owner k = some v) (hq : ∀ d ∈ q, d = .uses k v) :
    Orderly owner q ∧ ownerAfter owner q = owner := by
  induction q with
  | nil => exact ⟨trivial, rfl⟩
  | cons d q ih =>
    obtain rfl := hq d List.mem_cons_self
    obtain ⟨horderly, hafter⟩ := ih fun d hd => hq d (List.mem_cons_of_mem _ hd)
    exact ⟨⟨hown, horderly⟩, hafter⟩

/-! ## One key -/

/-- Only the owner of the key and the messages matter for its owner in the end. -/
lemma ownerAfter_congr (h : owner k = owner' k) : ownerAfter owner q k = ownerAfter owner' q k := by
  induction q generalizing owner owner' with
  | nil => exact h
  | cons d q ih =>
    apply ih
    cases d with
    | opens j v =>
      simp only [Demand.after, Function.update_apply, h]
    | uses j v => exact h
    | idle => exact h

/-- A key that no message opens keeps its owner. -/
lemma ownerAfter_of_not_opened (h : ∀ v, Demand.opens k v ∉ q) :
    ownerAfter owner q k = owner k := by
  induction q generalizing owner with
  | nil => rfl
  | cons d q ih =>
    have hrest : ∀ v, Demand.opens k v ∉ q := fun v hv => h v (List.mem_cons_of_mem _ hv)
    have hstep : ownerAfter owner (d :: q) k = d.after owner k := ih hrest
    rw [hstep]
    cases d with
    | opens j v =>
      have hne : k ≠ j := by
        rintro rfl
        exact h v List.mem_cons_self
      exact Function.update_of_ne hne _ _
    | uses j v => rfl
    | idle => rfl

/-! ## Forgetting keys -/

/-- The table may change at keys that no message is about. -/
lemma Orderly.forget (h : Orderly owner q) (hkeep : ∀ d ∈ q, ∀ k ∈ d.key, owner' k = owner k) :
    Orderly owner' q := by
  induction q generalizing owner owner' with
  | nil => trivial
  | cons d q ih =>
    have hhead := hkeep d List.mem_cons_self
    refine ⟨?_, ih h.2 fun d' hd' k hk => ?_⟩
    · have hmeets := h.1
      cases d with
      | opens j v => exact (hhead j rfl).trans hmeets
      | uses j v => exact (hhead j rfl).trans hmeets
      | idle => trivial
    · have hk' := hkeep d' (List.mem_cons_of_mem _ hd') k hk
      cases d with
      | opens j v => simp only [Demand.after, Function.update_apply, hk']
      | uses j v => exact hk'
      | idle => exact hk'

/-- An owned key that is not used is not opened: the first message about it would be refused. -/
lemma Orderly.not_opened (h : Orderly owner q) (hown : owner k = some v)
    (hunused : ∀ v, Demand.uses k v ∉ q) (w : υ) : Demand.opens k w ∉ q := by
  induction q generalizing owner with
  | nil => exact List.not_mem_nil
  | cons d q ih =>
    have hrest : ∀ v, Demand.uses k v ∉ q := fun v hv => hunused v (List.mem_cons_of_mem _ hv)
    rw [List.mem_cons, not_or]
    have hmeets := h.1
    cases d with
    | opens j u =>
      have hne : k ≠ j := by
        rintro rfl
        rw [Demand.Meets, hown] at hmeets
        cases hmeets
      refine ⟨?_, ih h.2 ((Function.update_of_ne hne _ _).trans hown) hrest⟩
      intro heq
      cases heq
      exact hne rfl
    | uses j u =>
      refine ⟨?_, ih h.2 hown hrest⟩
      intro heq
      cases heq
    | idle =>
      refine ⟨?_, ih h.2 hown hrest⟩
      intro heq
      cases heq

end

end Ipcf
