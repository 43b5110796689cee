import Determinization.Proofs.Automaton.Alike
import Determinization.Proofs.Automaton.Isomorphism
import Determinization.Proofs.Automaton.Walk

/-!
# The reachable part

Pruning computes the reachable states by a search and keeps the transitions that have both of their
ends among them.  Here its result is described without the search: `IsReachablePart a b` says that
`b` consists of the states that walks of `a` lead to, whatever labels are on the way, and of
everything in `a` that is about these states.

* Nothing that leaves a kept state is lost (`isReachablePart_removeUnreachable`).  The test of the
  target never fails where the test of the source holds, because a walk that ends at the source goes
  on to the target.
* The reachable part of an automaton is the reachable part of itself, so pruning a second time has
  nothing to do (`removeUnreachable_removeUnreachable`).
* Words only ever follow walks from the initial state, so they lead to the same sets before and
  after (`after_removeUnreachable`).  Hence the same words are accepted, and the subset
  construction, which asks for nothing but these sets, makes the very same machine
  (`toDfa_removeUnreachable`).
-/

namespace Determinization
namespace Automaton

variable {a b : Automaton} {s : State}

/-! ## Walks and reachable states -/

/-- **What is reachable is what walks from the initial state lead to.** -/
theorem reachable_iff_exists_walk : a.Reachable s ↔ ∃ p, a.Walk a.initial p s := by
  constructor
  · rintro ⟨w, hw⟩
    obtain ⟨p, hp, -⟩ := hw.exists_walk
    exact ⟨p, hp⟩
  · rintro ⟨p, hp⟩
    exact ⟨spelled p, hp.leads⟩

/-- The second automaton consists of the states that walks of the first one lead to from its initial
state, of the transitions that leave them, and of those among them that are accepting. -/
structure IsReachablePart (a b : Automaton) : Prop where
  alphabet_eq : b.alphabet = a.alphabet
  initial_eq : b.initial = a.initial
  mem_states : ∀ s, s ∈ b.states ↔ ∃ p, a.Walk a.initial p s
  mem_transitions : ∀ t, t ∈ b.transitions ↔
    t ∈ a.transitions ∧ ∃ p, a.Walk a.initial p t.source
  mem_accepting : ∀ s, s ∈ b.accepting ↔ s ∈ a.accepting ∧ ∃ p, a.Walk a.initial p s

/-- **Pruning computes the reachable part.** -/
theorem isReachablePart_removeUnreachable (a : Automaton) :
    IsReachablePart a a.removeUnreachable where
  alphabet_eq := rfl
  initial_eq := rfl
  mem_states s := by rw [mem_states_removeUnreachable, reachable_iff_exists_walk]
  mem_transitions t := by
    obtain ⟨s, x, u⟩ := t
    rw [mem_transitions_removeUnreachable, reachable_iff_exists_walk]
  mem_accepting s := by rw [mem_accepting_removeUnreachable, reachable_iff_exists_walk]

/-! ## Pruning again -/

/-- The states that are kept stay reachable. -/
theorem reachable_removeUnreachable (hs : s ∈ a.removeUnreachable.states) :
    a.removeUnreachable.Reachable s :=
  (isImage_removeUnreachable a).reachable tellsApart_id id hs

/-- **Pruning a second time changes nothing.** -/
theorem removeUnreachable_removeUnreachable (ha : a.Consistent) :
    a.removeUnreachable.removeUnreachable = a.removeUnreachable :=
  removeUnreachable_eq_self ((isImage_removeUnreachable a).consistent ha)
    fun _ => reachable_removeUnreachable

/-! ## Everything together -/

/-- **Pruning keeps exactly what matters.**  Its result is the reachable part, which is its own
reachable part; the accepted words are what they were; and determinizing gives the same machine
before and after, for either worklist order. -/
theorem removeUnreachable_keeps (ha : a.Consistent) :
    IsReachablePart a a.removeUnreachable ∧
      a.removeUnreachable.removeUnreachable = a.removeUnreachable ∧
      (∀ w, a.removeUnreachable.accepts w = a.accepts w) ∧
      ∀ order order', a.removeUnreachable.toDfa order = a.toDfa order' := by
  refine ⟨isReachablePart_removeUnreachable a, removeUnreachable_removeUnreachable ha, fun w => ?_,
    toDfa_removeUnreachable ha⟩
  have hrenaming := (isImage_removeUnreachable a).isRenaming tellsApart_id
  exact (hrenaming.accepts_eq w).symm

/-- An automaton with several targets on one symbol, one of them the source itself, and a state that
only a silent move leads to.  From a circle of two more states, one of them accepting, a transition
leads to the initial state, and none leads back. -/
def backwater : Automaton :=
  ofParts [.simple 5, .simple 2, .simple 9, .dead, .simple 7, .simple 8]
    (SortedSet.ofList ['a', 'b'])
    [⟨.simple 5, .char 'a', .simple 9⟩, ⟨.simple 5, .char 'a', .simple 5⟩,
      ⟨.simple 5, .char 'a', .simple 2⟩, ⟨.simple 9, .epsilon, .dead⟩,
      ⟨.dead, .char 'b', .simple 5⟩, ⟨.simple 7, .epsilon, .simple 8⟩,
      ⟨.simple 8, .char 'a', .simple 7⟩, ⟨.simple 7, .char 'b', .simple 5⟩]
    (.simple 5) [.dead, .simple 8]

theorem build_backwater :
    build [.simple 5, .simple 2, .simple 9, .dead, .simple 7, .simple 8]
      (SortedSet.ofList ['a', 'b'])
      [⟨.simple 5, .char 'a', .simple 9⟩, ⟨.simple 5, .char 'a', .simple 5⟩,
        ⟨.simple 5, .char 'a', .simple 2⟩, ⟨.simple 9, .epsilon, .dead⟩,
        ⟨.dead, .char 'b', .simple 5⟩, ⟨.simple 7, .epsilon, .simple 8⟩,
        ⟨.simple 8, .char 'a', .simple 7⟩, ⟨.simple 7, .char 'b', .simple 5⟩]
      (.simple 5) [.dead, .simple 8] = .ok backwater := rfl

theorem removeUnreachable_keeps_backwater :
    backwater.Consistent ∧ (∃ p, backwater.Walk backwater.initial p .dead) ∧
      (¬ ∃ p, backwater.Walk backwater.initial p (.simple 8)) ∧
      backwater.removeUnreachable.removeUnreachable = backwater.removeUnreachable ∧
      backwater.removeUnreachable.accepts ['a', 'b', 'a'] = backwater.accepts ['a', 'b', 'a'] ∧
      backwater.removeUnreachable.toDfa .lifo = backwater.toDfa .fifo := by
  have hcons := consistent_of_build build_backwater
  obtain ⟨hpart, hagain, haccepts, htoDfa⟩ := removeUnreachable_keeps hcons
  refine ⟨hcons, (hpart.mem_states _).1 ?_, fun h => ?_, hagain, haccepts _, htoDfa .lifo .fifo⟩
  · decide +kernel
  · have hkept : State.simple 8 ∈ backwater.removeUnreachable.states := (hpart.mem_states _).2 h
    exact absurd hkept (by decide +kernel)

end Automaton
end Determinization
