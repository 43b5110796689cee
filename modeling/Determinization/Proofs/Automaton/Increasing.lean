import Determinization.Proofs.Automaton.Numbering

/-!
# Names in the order of the states

The canonical form of an automaton that is not functional depends on the names of its states, since
they decide in which order several targets on one symbol are visited.  It depends on nothing else
about the names.  So names that come in the order of the states they name make no difference to it
(`IsImage.canonicalize_eq`), in whatever type of automaton.

The positions of states in the listing of a set are such names (`increasing_numbered`), as long as
there are numbers enough.
-/

namespace Determinization

/-- Numbered states are compared by their numbers. -/
theorem State.lt_simple_iff {m n : UInt32} :
    Ordered.Lt (State.simple m) (State.simple n) ↔ m.toNat < n.toNat := Ordered.lt_nat

namespace Automaton

open List (Forall₂)

variable {part : State → Prop} {name : State → State} {a b : Automaton} {s : State}

/-- The names of the part come in the order of its states. -/
def Increasing (part : State → Prop) (name : State → State) : Prop :=
  ∀ ⦃s t⦄, part s → part t → Ordered.Lt s t → Ordered.Lt (name s) (name t)

theorem Increasing.tellsApart (h : Increasing part name) : TellsApart part name := by
  intro s t hs ht heq
  rcases Ordered.lt_trichotomy s t with hlt | hst | hgt
  · exact absurd heq (Ordered.ne_of_lt (h hs ht hlt))
  · exact hst
  · exact absurd heq.symm (Ordered.ne_of_lt (h ht hs hgt))

/-- Up to as many states as there are numbers, a position is a number as it is. -/
theorem exists_numbered_eq_simple {S : SortedSet State} (hsize : S.size ≤ 2 ^ 32) (hs : s ∈ S) :
    ∃ n, numbered S.toList s = .simple n ∧ n.toNat = S.toList.idxOf s := by
  have hlimit : S.toList.idxOf s < 2 ^ 32 :=
    Nat.lt_of_lt_of_le (List.idxOf_lt_length_of_mem hs) hsize
  exact ⟨UInt32.ofNat (S.toList.idxOf s), rfl, UInt32.toNat_ofNat_of_lt' hlimit⟩

/-- **Positions come in the order of the states.** -/
theorem increasing_numbered {S : SortedSet State} (hsize : S.size ≤ 2 ^ 32) :
    Increasing (· ∈ S) (numbered S.toList) := by
  intro s t hs ht hlt
  obtain ⟨m, hm, hposition⟩ := exists_numbered_eq_simple hsize hs
  obtain ⟨n, hn, hposition'⟩ := exists_numbered_eq_simple hsize ht
  rw [hm, hn, State.lt_simple_iff, hposition, hposition']
  exact SortedSet.idxOf_lt_idxOf hs ht hlt

namespace IsImage

variable (h : IsImage part name a b) (hname : Increasing part name)

include h hname

/-- Targets are listed in the same order under their names. -/
theorem orderedTargets_eq (hs : part s) (x : Symbol) :
    b.orderedTargets (name s) x = (a.orderedTargets s x).map name := by
  have hset : SortedSet.ofList (b.transitions.targets (name s) x) =
      (SortedSet.ofList (a.transitions.targets s x)).image name := by
    refine SortedSet.ext fun t => ?_
    simp only [SortedSet.mem_ofList, SortedSet.mem_image, Relation.mem_targets,
      h.mem_transitions_iff hname.tellsApart hs, eq_comm]
  have htarget : ∀ t ∈ SortedSet.ofList (a.transitions.targets s x), part t := by
    intro t ht
    rw [SortedSet.mem_ofList, Relation.mem_targets] at ht
    exact h.part_target hs ht
  rw [orderedTargets, orderedTargets, hset]
  exact SortedSet.toList_image fun t ht u hu => hname (htarget t ht) (htarget u hu)

theorem inOrder : InOrder (fun s s' => part s ∧ s' = name s) a b := by
  rintro s s' ⟨hs, rfl⟩ x
  rw [h.orderedTargets_eq hname hs, List.forall₂_map_right_iff, List.forall₂_same]
  intro t ht
  exact ⟨h.part_target hs (mem_orderedTargets.1 ht), rfl⟩

/-- **Names in the order of the states do not change the canonical form.** -/
theorem canonicalize_eq (ha : a.Consistent) : b.canonicalize = a.canonicalize :=
  ((h.isRenaming hname.tellsApart).canonicalize_eq_of_inOrder (h.inOrder hname) ha
    (h.consistent ha)).symm

end IsImage

end Automaton
end Determinization
