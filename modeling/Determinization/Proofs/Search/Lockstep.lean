import Determinization.Proofs.Search.Exhaustion
import Mathlib.Data.List.Forall2

/-!
# Two searches in lockstep

Two searches of differently named elements keep in step when the names correspond one to one and
corresponding elements list corresponding neighbours in the same order.  Then what one search finds
at a position of its log corresponds to what the other finds at that position.

The correspondence is a relation `R` that pairs each element with at most one other, in both
directions (`Relator.BiUnique`).  It need not pair all elements: a search only ever looks at those
that its seeds are joined to.

## How much of the order matters

A search looks at the order of neighbours only where they are new to it.  So the neighbours of
corresponding elements may come in different orders, as long as those correspond in their order that
a search has not found when it comes to them.  `InStep R F l l'` says this of two lists of
neighbours; here `F` is what the first search finds in the end, and nothing is asked about orders of
discovery other than that one.

## Main statements

* `forall₂_unknown`: leaving out what is known respects the correspondence.
* `InStep.flatMap`: lists of neighbours can be compared part by part.
* `lockstep_explore_of_inStep`: two searches in step, whatever their limits, if both have room
  enough; `lockstep_explore`: the case in which all neighbours come in corresponding orders.
* `idxOf_eq_of_forall₂`: corresponding elements stand at the same position of corresponding lists.
-/

namespace Determinization
namespace Search

open List (Forall₂)

variable {α β : Type} {R : α → β → Prop}

/-- The logs of two searches, entry by entry. -/
structure Lockstep (R : α → β → Prop) (s : Search α) (t : Search β) : Prop where
  found : Forall₂ R s.found t.found
  expanded : Forall₂ R s.expanded t.expanded
  pending : Forall₂ R s.pending t.pending

theorem forall₂_add (order : WorklistOrder) {new pending : List α} {new' pending' : List β}
    (hnew : Forall₂ R new new') (hpending : Forall₂ R pending pending') :
    Forall₂ R (order.add new pending) (order.add new' pending') := by
  cases order with
  | fifo => exact List.rel_append hpending hnew
  | lifo => exact List.rel_append (List.rel_reverse hnew) hpending

variable [DecidableEq α] [DecidableEq β]

/-- Leaving out what is known respects the correspondence. -/
theorem forall₂_unknown (hR : Relator.BiUnique R) {known l : List α} {known' l' : List β}
    (hknown : Forall₂ R known known') (hl : Forall₂ R l l') :
    Forall₂ R (unknown known l) (unknown known' l') := by
  induction hl generalizing known known' with
  | nil => exact Forall₂.nil
  | @cons a b l l' hab _ ih =>
      have hmem : a ∈ known ↔ b ∈ known' := List.rel_mem hR hab hknown
      by_cases ha : a ∈ known
      · rw [unknown, unknown, if_pos ha, if_pos (hmem.1 ha)]
        exact ih hknown
      · rw [unknown, unknown, if_neg ha, if_neg fun hb => ha (hmem.2 hb)]
        exact Forall₂.cons hab (ih (Forall₂.cons hab hknown))

/-- What is new in the one list corresponds to what is new in the other, for a search that finds the
elements of `F` in their order. -/
def InStep (R : α → β → Prop) (F l : List α) (l' : List β) : Prop :=
  ∀ ⦃known known'⦄, Forall₂ R known known' → known ++ unknown known l <+: F →
    Forall₂ R (unknown known l) (unknown known' l')

section InStep

variable {F l m : List α} {l' m' : List β}

theorem inStep_of_forall₂ (hR : Relator.BiUnique R) (hl : Forall₂ R l l') : InStep R F l l' :=
  fun _ _ hknown _ => forall₂_unknown hR hknown hl

theorem inStep_nil : InStep R F [] [] := fun _ _ _ _ => Forall₂.nil

theorem InStep.append (hl : InStep R F l l') (hm : InStep R F m m') :
    InStep R F (l ++ m) (l' ++ m') := by
  intro known known' hknown hF
  rw [unknown_append] at hF ⊢
  rw [unknown_append]
  rw [← List.append_assoc] at hF
  have hnew := hl hknown ((List.prefix_append _ _).trans hF)
  exact List.rel_append hnew (hm (List.rel_append hknown hnew) hF)

/-- Neighbours that are listed in parts can be compared part by part. -/
theorem InStep.flatMap {ι : Type} {f : ι → List α} {g : ι → List β}
    (h : ∀ i, InStep R F (f i) (g i)) (is : List ι) :
    InStep R F (is.flatMap f) (is.flatMap g) := by
  induction is with
  | nil => exact inStep_nil
  | cons i is ih =>
      rw [List.flatMap_cons, List.flatMap_cons]
      exact (h i).append ih

end InStep

/-! ## Searches -/

variable {order : WorklistOrder} {neighbours : α → List α} {neighbours' : β → List β}
  {seeds : List α} {seeds' : List β} {s : Search α} {t : Search β} {F : List α}

theorem lockstep_start (hR : Relator.BiUnique R) (hseeds : Forall₂ R seeds seeds') :
    Lockstep R (start order seeds) (start order seeds') := by
  have hnew := forall₂_unknown hR Forall₂.nil hseeds
  exact ⟨hnew, Forall₂.nil, forall₂_add order hnew Forall₂.nil⟩

/-- **One step keeps two searches in step.** -/
theorem Lockstep.expand (h : Lockstep R s t) {a : α} {b : β} {rest : List α} {rest' : List β}
    (hneighbours : InStep R F (neighbours a) (neighbours' b)) (hab : R a b)
    (hrest : Forall₂ R rest rest') (hF : (s.expand order neighbours a rest).found <+: F) :
    Lockstep R (s.expand order neighbours a rest) (t.expand order neighbours' b rest') := by
  have hnew := hneighbours h.found hF
  exact ⟨List.rel_append h.found hnew,
    List.rel_append h.expanded (Forall₂.cons hab Forall₂.nil), forall₂_add order hnew hrest⟩

theorem Lockstep.run (hneighbours : ∀ a b, R a b → InStep R F (neighbours a) (neighbours' b))
    (h : Lockstep R s t) (limit : Nat) (hF : (run order neighbours limit s).found <+: F) :
    Lockstep R (run order neighbours limit s) (run order neighbours' limit t) := by
  induction limit generalizing s t with
  | zero => exact h
  | succ limit ih =>
      have hpending := h.pending
      cases hs : s.pending with
      | nil =>
          rw [hs, List.forall₂_nil_left_iff] at hpending
          rwa [run_of_pending_nil hs, run_of_pending_nil hpending]
      | cons a rest =>
          rw [hs, List.forall₂_cons_left_iff] at hpending
          obtain ⟨b, rest', hab, hrest, ht⟩ := hpending
          rw [run_succ_of_pending_cons hs] at hF ⊢
          rw [run_succ_of_pending_cons ht]
          have hstep : (s.expand order neighbours a rest).found <+: F :=
            (found_prefix_run limit _).trans hF
          exact ih (h.expand (hneighbours a b hab) hab hrest hstep) hF

/-- **Searches keep in step if what is new to them among corresponding neighbours comes in the same
order.**  Their limits may differ, as long as neither is what ends its search. -/
theorem lockstep_explore_of_inStep (hR : Relator.BiUnique R) (hseeds : Forall₂ R seeds seeds')
    {m n : Nat} (hm : (explore order neighbours m seeds).pending = [])
    (hn : (explore order neighbours' n seeds').pending = [])
    (hneighbours : ∀ a b, R a b →
      InStep R (explore order neighbours m seeds).found (neighbours a) (neighbours' b)) :
    Lockstep R (explore order neighbours m seeds) (explore order neighbours' n seeds') := by
  rw [← explore_eq_of_le hm (Nat.le_max_left m n)] at hneighbours ⊢
  rw [← explore_eq_of_le hn (Nat.le_max_right m n)]
  exact (lockstep_start hR hseeds).run hneighbours (max m n) List.prefix_rfl

/-- **Searches through corresponding neighbours keep in step.**  Their limits may differ, as long
as neither is what ends its search. -/
theorem lockstep_explore (hR : Relator.BiUnique R)
    (hneighbours : ∀ a b, R a b → Forall₂ R (neighbours a) (neighbours' b))
    (hseeds : Forall₂ R seeds seeds') {m n : Nat}
    (hm : (explore order neighbours m seeds).pending = [])
    (hn : (explore order neighbours' n seeds').pending = []) :
    Lockstep R (explore order neighbours m seeds) (explore order neighbours' n seeds') :=
  lockstep_explore_of_inStep hR hseeds hm hn fun a b hab =>
    inStep_of_forall₂ hR (hneighbours a b hab)

/-- Corresponding elements stand at the same position of corresponding lists. -/
theorem idxOf_eq_of_forall₂ (hR : Relator.BiUnique R) {l : List α} {l' : List β}
    (hl : Forall₂ R l l') {a : α} {b : β} (hab : R a b) : l.idxOf a = l'.idxOf b := by
  induction hl with
  | nil => rfl
  | @cons c d l l' hcd _ ih =>
      have heq : c = a ↔ d = b := Relator.rel_eq hR hcd hab
      by_cases hc : c = a
      · rw [hc, heq.1 hc, List.idxOf_cons_self, List.idxOf_cons_self]
      · rw [List.idxOf_cons_ne _ hc, List.idxOf_cons_ne _ fun hd => hc (heq.2 hd), ih]

end Search
end Determinization
