import Determinization.Proofs.Automaton.Increasing
import Determinization.Proofs.Automaton.Pruning

/-!
# Numbering and pruning absorb each other

Numbering the states of an automaton a second time changes nothing, and neither does pruning before
or after the states are numbered (`canonicalize_absorbs`).  For pruning this is a matter of names:
pruned states keep theirs, so they come in the same order as before, and a canonical form has no
unreachable states to lose.

## Numbering twice

An automaton that is not functional may list several targets on one symbol.  The first search goes
through them in the order of their old names, the second one in the order of their numbers, and
these orders differ wherever targets that have a number already are mixed with targets that have
none.  The second search nevertheless finds the states in the order of the first.  Among the targets
of one state on one symbol, those without a number get the next ones, in the order in which they are
listed; so their numbers increase in that order, and the second search lists them like this too
(`IsImage.unknown_orderedTargets`).  What is new to the one search corresponds to what is new to the
other, and that is all that a search ever looks at (`lockstep_canonicalSearch_canonicalize`).

Hence a number is its own number (`canonicalName_canonicalName`).  The transitions of the second
canonical form may be given in another order than those of the first, but they are the same ones.
-/

namespace Determinization
namespace Automaton

open List (Forall₂)

variable {part : State → Prop} {name : State → State} {a b : Automaton} {s s' : State} {x : Symbol}
  {known known' l : List State}

/-! ## Names in the order of discovery -/

/-- The search follows the targets on one symbol after those on another. -/
theorem map_snd_orderedMoves (a : Automaton) (s : State) :
    (a.orderedMoves s).map Prod.snd = a.alphabet.labels.flatMap (a.orderedTargets s) := by
  rw [orderedMoves_eq_flatMap, List.map_flatMap]
  simp only [List.map_map, Function.comp_def, List.map_id']

/-- Numbers increase along the list that they are positions in. -/
theorem pairwise_map_numbered (hl : l.Nodup) (hsize : l.length ≤ 2 ^ 32) :
    (l.map (numbered l)).Pairwise Ordered.Lt := by
  rw [map_numbered hl, List.pairwise_map]
  refine List.pairwise_lt_range.imp_of_mem fun {m n} hm hn hlt => ?_
  have hm' : m < 2 ^ 32 := Nat.lt_of_lt_of_le (List.mem_range.1 hm) hsize
  have hn' : n < 2 ^ 32 := Nat.lt_of_lt_of_le (List.mem_range.1 hn) hsize
  rwa [State.lt_simple_iff, UInt32.toNat_ofNat_of_lt' hm', UInt32.toNat_ofNat_of_lt' hn']

/-- **New targets are listed in the same order under their names**, as soon as the names of the new
ones come in that order. -/
theorem IsImage.unknown_orderedTargets (h : IsImage part name a b) (hname : TellsApart part name)
    (hs : part s) (hknown : ∀ t, part t → (name t ∈ known' ↔ t ∈ known))
    (hincreasing : ((Search.unknown known (a.orderedTargets s x)).map name).Pairwise Ordered.Lt) :
    Search.unknown known' (b.orderedTargets (name s) x) =
      (Search.unknown known (a.orderedTargets s x)).map name := by
  have hincreasing' : (Search.unknown known' (b.orderedTargets (name s) x)).Pairwise Ordered.Lt :=
    (SortedSet.increasing _).sublist (Search.unknown_sublist _ _)
  -- both lists increase, so it is enough that they have the same members
  suffices hsets : (⟨_, hincreasing'⟩ : SortedSet State) = ⟨_, hincreasing⟩ from
    congrArg SortedSet.toList hsets
  refine SortedSet.ext fun t' => ?_
  show t' ∈ Search.unknown known' _ ↔ t' ∈ (Search.unknown known _).map name
  simp only [List.mem_map, Search.mem_unknown, mem_orderedTargets,
    h.mem_transitions_iff hname hs]
  constructor
  · rintro ⟨⟨t, hstep, rfl⟩, hnew⟩
    exact ⟨t, ⟨hstep, fun ht => hnew ((hknown t (h.part_target hs hstep)).2 ht)⟩, rfl⟩
  · rintro ⟨t, ⟨hstep, hnew⟩, rfl⟩
    exact ⟨⟨t, hstep, rfl⟩, fun ht => hnew ((hknown t (h.part_target hs hstep)).1 ht)⟩

/-! ## Numbering twice -/

section Twice

variable (ha : a.Consistent) (hsize : a.reachable.size ≤ 2 ^ 32)

include ha hsize

/-- What is found in its order has increasing numbers. -/
theorem pairwise_map_canonicalName (hl : l.Sublist a.canonicalSearch.found) :
    (l.map a.canonicalName).Pairwise Ordered.Lt := by
  have hlength : a.canonicalSearch.found.length ≤ 2 ^ 32 :=
    length_found_canonicalSearch ha ▸ hsize
  exact (pairwise_map_numbered a.nodup_found_canonicalSearch hlength).sublist (hl.map _)

/-- What is new among the targets of a state on a symbol is new among the numbers of these targets,
in the same order. -/
theorem inStep_orderedTargets (hs : a.Reachable s) (x : Symbol) :
    Search.InStep (fun s s' => a.Reachable s ∧ s' = a.canonicalName s) a.canonicalSearch.found
      (a.orderedTargets s x) (a.canonicalize.orderedTargets (a.canonicalName s) x) := by
  intro known known' hknown hfound
  have himage := isImage_canonicalize ha
  have hname := tellsApart_canonicalName ha hsize
  have hunique := (renaming_canonicalize ha hsize).unique
  have hknown' : ∀ t, a.Reachable t → (a.canonicalName t ∈ known' ↔ t ∈ known) :=
    fun t ht => (List.rel_mem hunique ⟨ht, rfl⟩ hknown).symm
  have hincreasing := pairwise_map_canonicalName ha hsize
    ((List.sublist_append_right _ _).trans hfound.sublist)
  rw [himage.unknown_orderedTargets hname hs hknown' hincreasing, List.forall₂_map_right_iff,
    List.forall₂_same]
  intro t ht
  exact ⟨hs.target (mem_orderedTargets.1 (Search.mem_unknown.1 ht).1), rfl⟩

/-- **The search that numbers the numbers keeps in step with the search that handed them out.** -/
theorem lockstep_canonicalSearch_canonicalize :
    Search.Lockstep (fun s s' => a.Reachable s ∧ s' = a.canonicalName s) a.canonicalSearch
      a.canonicalize.canonicalSearch := by
  have hrenaming := renaming_canonicalize ha hsize
  have hcons := (isImage_canonicalize ha).consistent ha
  refine Search.lockstep_explore_of_inStep hrenaming.unique
    (Forall₂.cons hrenaming.initial Forall₂.nil) (pending_canonicalSearch ha)
    (pending_canonicalSearch hcons) ?_
  rintro s s' ⟨hs, rfl⟩
  rw [map_snd_orderedMoves, map_snd_orderedMoves]
  exact Search.InStep.flatMap (inStep_orderedTargets ha hsize hs) _

/-- **A number is its own number.** -/
theorem canonicalName_canonicalName (hs : a.Reachable s) :
    a.canonicalize.canonicalName (a.canonicalName s) = a.canonicalName s := by
  have hunique := (renaming_canonicalize ha hsize).unique
  have hfound := (lockstep_canonicalSearch_canonicalize ha hsize).found
  have hposition := Search.idxOf_eq_of_forall₂ hunique hfound ⟨hs, rfl⟩
  calc a.canonicalize.canonicalName (a.canonicalName s)
    _ = State.simple (UInt32.ofNat (a.canonicalSearch.found.idxOf s)) := by
        rw [canonicalName, numbered, hposition]
    _ = a.canonicalName s := rfl

end Twice

/-- An image under the names that its states have already is the same automaton. -/
theorem IsImage.same (h : IsImage part name a b) (ha : a.Consistent)
    (hpart : ∀ s, part s ↔ s ∈ a.states) (hname : ∀ s, part s → name s = s) :
    b.same a = true := by
  refine same_iff.2 ⟨SortedSet.ext fun t => ?_, h.alphabet_eq.symm, fun t => ?_, ?_,
    SortedSet.ext fun t => ?_⟩
  · rw [h.mem_states, ← hpart]
    constructor
    · rintro ⟨s, hs, rfl⟩
      rwa [hname s hs]
    · intro ht
      exact ⟨t, ht, (hname t ht).symm⟩
  · rw [h.mem_transitions]
    constructor
    · rintro ⟨s, x, u, hs, hstep, rfl⟩
      rwa [hname s hs, hname u (h.part_target hs hstep)]
    · intro ht
      obtain ⟨s, x, u⟩ := t
      have hs : part s := (hpart s).2 (ha.source_mem _ ht)
      refine ⟨s, x, u, hs, ht, ?_⟩
      rw [hname s hs, hname u (h.part_target hs ht)]
  · rw [h.initial_eq, hname _ h.part_initial]
  · rw [h.mem_accepting]
    constructor
    · rintro ⟨s, hs, hacc, rfl⟩
      rwa [hname s hs]
    · intro hacc
      have ht : part t := (hpart t).2 (ha.accepting_mem t hacc)
      exact ⟨t, ht, hacc, (hname t ht).symm⟩

/-- Every number is reachable. -/
theorem reachable_canonicalize_iff (ha : a.Consistent) (hsize : a.reachable.size ≤ 2 ^ 32) :
    a.canonicalize.Reachable s ↔ s ∈ a.canonicalize.states := by
  have himage := isImage_canonicalize ha
  refine ⟨(himage.consistent ha).mem_states_of_reachable, fun hs => ?_⟩
  exact himage.reachable (tellsApart_canonicalName ha hsize) id hs

/-- **Numbering a second time changes nothing** but perhaps the order in which the transitions are
given. -/
theorem same_canonicalize_canonicalize (ha : a.Consistent) (hsize : a.reachable.size ≤ 2 ^ 32) :
    a.canonicalize.canonicalize.same a.canonicalize = true := by
  have hcons := (isImage_canonicalize ha).consistent ha
  refine (isImage_canonicalize hcons).same hcons (fun _ => reachable_canonicalize_iff ha hsize) ?_
  intro t ht
  obtain ⟨s, hs, rfl⟩ := (isImage_canonicalize ha).mem_states.1
    ((reachable_canonicalize_iff ha hsize).1 ht)
  exact canonicalName_canonicalName ha hsize hs

/-! ## Pruning -/

/-- **Pruning first changes nothing**, since the states that are kept keep their order. -/
theorem canonicalize_removeUnreachable (ha : a.Consistent) :
    a.removeUnreachable.canonicalize = a.canonicalize :=
  (isImage_removeUnreachable a).canonicalize_eq (fun _ _ _ _ hlt => hlt) ha

/-- **Pruning afterwards changes nothing**, since there is nothing to lose. -/
theorem removeUnreachable_canonicalize (ha : a.Consistent) (hsize : a.reachable.size ≤ 2 ^ 32) :
    a.canonicalize.removeUnreachable = a.canonicalize :=
  removeUnreachable_eq_self ((isImage_canonicalize ha).consistent ha)
    fun _ hs => (reachable_canonicalize_iff ha hsize).2 hs

/-! ## Everything together -/

/-- **Numbering and pruning absorb each other**, for automata of any kind with numbers enough for
their reachable states.  Where pruning takes part, the results are equal down to the order in which
their transitions are given. -/
theorem canonicalize_absorbs (ha : a.Consistent) (hsize : a.reachable.size < 2 ^ 32) :
    a.canonicalize.canonicalize.same a.canonicalize = true ∧
      a.removeUnreachable.canonicalize = a.canonicalize ∧
      a.canonicalize.removeUnreachable = a.canonicalize :=
  ⟨same_canonicalize_canonicalize ha (Nat.le_of_lt hsize), canonicalize_removeUnreachable ha,
    removeUnreachable_canonicalize ha (Nat.le_of_lt hsize)⟩

/-- The second search goes through the targets of the initial state in another order. -/
example : backwater.canonicalize.canonicalize.transitions.toList ≠
    backwater.canonicalize.transitions.toList := by decide +kernel

theorem canonicalize_absorbs_backwater :
    backwater.Consistent ∧ backwater.reachable.size = 4 ∧
      backwater.canonicalize.canonicalize.same backwater.canonicalize = true ∧
      backwater.removeUnreachable.canonicalize = backwater.canonicalize ∧
      backwater.canonicalize.removeUnreachable = backwater.canonicalize := by
  have hcons := consistent_of_build build_backwater
  have hsize : backwater.reachable.size = 4 := by decide +kernel
  exact ⟨hcons, hsize, canonicalize_absorbs hcons (by rw [hsize]; decide)⟩

end Automaton
end Determinization
