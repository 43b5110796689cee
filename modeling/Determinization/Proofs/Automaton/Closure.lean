import Determinization.Proofs.Automaton.Walk

/-!
# Closures as sets of ends of silent walks

The closure of some states is computed by one search that starts from all of them at once and goes
around circles as the transitions take it.  What comes out does not show any of that: it is the set
of the states that walks on the empty word lead to from one of the given states, so it is the union
of the closures of these states, one at a time (`mem_closure_iff_exists_seed`).

The given states may be repeated and need not be declared.  A state that no silent move leaves is
its own closure, whether or not the automaton knows it.

* `silent_iff_exists_walk`: silent paths are walks all of whose labels are the empty word, because
  that is what it takes to spell the empty word.
* `closure_subset_of_closed`: the closure lies in every set that holds the given states and that no
  silent move leaves.
* `isSilentClosure_closure`: what `closure` computes, and the laws of a closure operator that follow
  from it.
-/

open Relation (ReflTransGen)

namespace Determinization
namespace Automaton

variable {a : Automaton} {s t : State} {p : List Transition} {seeds more : List State}

/-- Every transition of the walk carries the empty word. -/
def IsSilent (p : List Transition) : Prop := ∀ e ∈ p, e.label = .epsilon

theorem isSilent_iff_spelled_eq_nil : IsSilent p ↔ spelled p = [] := by
  unfold IsSilent spelled
  rw [List.filterMap_eq_nil_iff]
  simp only [Symbol.char?_eq_none_iff]

/-- **Silent paths are the walks on the empty word.** -/
theorem silent_iff_exists_walk :
    ReflTransGen a.Silent s t ↔ ∃ p, a.Walk s p t ∧ IsSilent p := by
  rw [← leads_nil_iff, leads_iff_exists_walk]
  simp only [isSilent_iff_spelled_eq_nil]

/-! ## Closures of several states -/

/-- **A closure is a union of closures of single states.** -/
theorem mem_closure_iff_exists_seed : t ∈ a.closure seeds ↔ ∃ s ∈ seeds, t ∈ a.closure [s] := by
  simp only [mem_closure, List.mem_singleton, exists_eq_left]

theorem mem_closure_of_mem (h : s ∈ seeds) : s ∈ a.closure seeds :=
  mem_closure.2 ⟨s, h, ReflTransGen.refl⟩

theorem closure_mono (h : seeds ⊆ more) (ht : t ∈ a.closure seeds) : t ∈ a.closure more := by
  obtain ⟨s, hs, hst⟩ := mem_closure.1 ht
  exact mem_closure.2 ⟨s, h hs, hst⟩

theorem closure_closure (a : Automaton) (seeds : List State) :
    a.closure (a.closure seeds).toList = a.closure seeds := by
  refine SortedSet.ext fun t => ⟨fun ht => ?_, fun ht => mem_closure_of_mem ht⟩
  obtain ⟨u, hu, hut⟩ := mem_closure.1 ht
  obtain ⟨s, hs, hsu⟩ := mem_closure.1 hu
  exact mem_closure.2 ⟨s, hs, hsu.trans hut⟩

/-- No silent move leaves a closure. -/
theorem mem_closure_of_silent (hs : s ∈ a.closure seeds) (h : a.Silent s t) :
    t ∈ a.closure seeds := by
  obtain ⟨r, hr, hrs⟩ := mem_closure.1 hs
  exact mem_closure.2 ⟨r, hr, hrs.tail h⟩

/-- The closure is the smallest set that holds the given states and that no silent move leaves. -/
theorem closure_subset_of_closed {S : SortedSet State} (hseeds : ∀ s ∈ seeds, s ∈ S)
    (hclosed : ∀ s ∈ S, ∀ t, a.Silent s t → t ∈ S) (ht : t ∈ a.closure seeds) : t ∈ S := by
  obtain ⟨s, hs, hst⟩ := mem_closure.1 ht
  induction hst with
  | refl => exact hseeds s hs
  | @tail u t hsu step ih => exact hclosed u (ih (mem_closure.2 ⟨s, hs, hsu⟩)) t step

/-- The operation sends each list of states to what silent walks lead to from them, and it is a
closure operator. -/
structure IsSilentClosure (a : Automaton) (close : List State → SortedSet State) : Prop where
  mem_iff_exists_walk : ∀ seeds t,
    t ∈ close seeds ↔ ∃ s ∈ seeds, ∃ p, a.Walk s p t ∧ IsSilent p
  mem_iff_exists_seed : ∀ seeds t, t ∈ close seeds ↔ ∃ s ∈ seeds, t ∈ close [s]
  extensive : ∀ seeds, ∀ s ∈ seeds, s ∈ close seeds
  monotone : ∀ seeds more, seeds ⊆ more → ∀ t ∈ close seeds, t ∈ close more
  idempotent : ∀ seeds, close (close seeds).toList = close seeds
  closed : ∀ seeds, ∀ s ∈ close seeds, ∀ t, a.Silent s t → t ∈ close seeds
  /-- No smaller set holds the given states and is left by no silent move. -/
  least : ∀ seeds (S : SortedSet State), (∀ s ∈ seeds, s ∈ S) →
    (∀ s ∈ S, ∀ t, a.Silent s t → t ∈ S) → ∀ t ∈ close seeds, t ∈ S

/-- **The closure of some states is exactly what walks on the empty word lead to from them.**  This
is so for every automaton and every list of states, with repetitions or not, declared or not. -/
theorem isSilentClosure_closure (a : Automaton) : a.IsSilentClosure a.closure where
  mem_iff_exists_walk seeds t := by
    simp only [mem_closure, silent_iff_exists_walk]
  mem_iff_exists_seed _ _ := mem_closure_iff_exists_seed
  extensive _ _ := mem_closure_of_mem
  monotone _ _ h _ := closure_mono h
  idempotent := a.closure_closure
  closed _ _ hs _ := mem_closure_of_silent hs
  least _ _ hseeds hclosed _ := closure_subset_of_closed hseeds hclosed

/-- Around a silent circle, from a state that is given twice and from one that is not declared. -/
example : tangle.closure [.dead, .simple 7, .dead] =
    SortedSet.ofList [.simple 0, .simple 7, .dead] := by decide +kernel

end Automaton
end Determinization
