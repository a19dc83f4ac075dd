import Mathlib.Data.List.Nodup
import Mathlib.Data.List.Perm.Basic

/-!
# Lending in turn

Resources are lent in the order in which they became free: those of the beginning in the order of
their list, and then those that are given back.  `Lending` is the queue of the free ones, with the
ones that are lent (`out`) and all that were ever lent (`issued`); to give back what is not lent is
no request.

From the beginning on (`fair_run`) the free and the lent resources are those of the beginning, each
once, and what was ever lent, followed by what is free, is the list of the beginning followed by
what was given back.
-/

namespace Ipcf

inductive Request (α : Type*)
  | get
  | release (a : α)

/-- What is lent, and all that was ever lent, in order. -/
structure Lent (α : Type*) where
  out : List α
  issued : List α

variable {α : Type*}

def Lent.take (o : Option α) (x : Lent α) : Lent α := ⟨o.toList ++ x.out, x.issued ++ o.toList⟩

def Lent.giveBack [DecidableEq α] (a : α) (x : Lent α) : Lent α :=
  { x with out := x.out.erase a }

/-- The resources that are given back, in order. -/
def released : List (Request α) → List α
  | [] => []
  | .get :: rs => released rs
  | .release a :: rs => a :: released rs

/-- The queue of the free resources, and what is lent. -/
structure Lending (α : Type*) where
  free : List α
  lent : Lent α

namespace Lending

def init (all : List α) : Lending α := ⟨all, ⟨[], []⟩⟩

section

variable [DecidableEq α]

/-- The first of the queue is lent, if there is one; what is given back goes to its end. -/
def step : Request α → Lending α → Option (Lending α)
  | .get, x => some ⟨x.free.tail, x.lent.take x.free.head?⟩
  | .release a, x =>
    if a ∈ x.lent.out then some ⟨x.free ++ [a], x.lent.giveBack a⟩ else none

def run : List (Request α) → Lending α → Option (Lending α)
  | [], x => some x
  | r :: rs, x => (step r x).bind (run rs)

end

/-- Every resource is free or lent, and they were lent in the order in which they became free:
`freed` are all that did, in order. -/
structure Fair (all freed : List α) (x : Lending α) : Prop where
  all : (x.free ++ x.lent.out).Perm all
  order : x.lent.issued ++ x.free = freed

variable {all freed : List α} {x y : Lending α}

lemma fair_init (all : List α) : Fair all all (init all) where
  all := by rw [init, List.append_nil]
  order := rfl

/-- What is free is not lent. -/
lemma Fair.not_lent (h : Fair all freed x) (hall : all.Nodup) {a : α} (ha : a ∈ x.free) :
    a ∉ x.lent.out :=
  fun hout => (List.nodup_append.1 (h.all.nodup_iff.2 hall)).2.2 a ha a hout rfl

lemma Fair.length_eq (h : Fair all freed x) : x.free.length + x.lent.out.length = all.length := by
  rw [← h.all.length_eq, List.length_append]

section

variable [DecidableEq α]

lemma Fair.step (h : Fair all freed x) {r : Request α} (hstep : Lending.step r x = some y) :
    Fair all (freed ++ released [r]) y := by
  cases r with
  | get =>
    rw [Lending.step, Option.some.injEq] at hstep
    subst hstep
    have hperm := h.all
    have horder := h.order
    cases hfree : x.free with
    | nil =>
      rw [hfree] at hperm horder
      exact ⟨by simpa [Lent.take] using hperm, by simpa [Lent.take, released] using horder⟩
    | cons a free =>
      rw [hfree] at hperm horder
      refine ⟨List.perm_middle.trans hperm, ?_⟩
      simpa [Lent.take, released] using horder
  | release a =>
    rw [Lending.step] at hstep
    split_ifs at hstep with hout
    rw [Option.some.injEq] at hstep
    subst hstep
    refine ⟨?_, ?_⟩
    · simp only [Lent.giveBack, List.append_assoc, List.singleton_append]
      exact ((List.perm_cons_erase hout).symm.append_left x.free).trans h.all
    · simp only [Lent.giveBack, released, ← h.order, List.append_assoc]

/-- **Every run is fair.** -/
lemma fair_run {rs : List (Request α)} (h : Fair all freed x) (hrun : run rs x = some y) :
    Fair all (freed ++ released rs) y := by
  induction rs generalizing x freed with
  | nil =>
    rw [run, Option.some.injEq] at hrun
    subst hrun
    simpa [released] using h
  | cons r rs ih =>
    obtain ⟨z, hz, hrest⟩ := Option.bind_eq_some_iff.1 hrun
    have hall := ih (h.step hz) hrest
    cases r <;> simpa [released] using hall

end

end Lending

end Ipcf
