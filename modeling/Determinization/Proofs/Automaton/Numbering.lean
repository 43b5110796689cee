import Determinization.Proofs.Automaton.Image
import Determinization.Proofs.Search.Lockstep
import Mathlib.Algebra.Group.Nat.Defs

/-!
# The canonical numbering

Canonical numbering names the reachable states, each by its place in the order of discovery
(`isImage_canonicalize`).  The names are 32-bit numbers, so they tell states apart as long as there
are not more reachable states than such numbers (`tellsApart_canonicalName`); everything else is
free of the number of states.

## When names do not matter

The search that hands out the numbers follows the symbols in order, and the targets on one symbol in
the order of states.  Only the latter looks at names.  So the searches of two automata that differ
in names run in lockstep and hand out the same numbers, as long as corresponding states list
corresponding targets in the same order (`InOrder`, `Renaming.canonicalize_eq_of_inOrder`).

In a functional automaton, where a symbol leads from a state to one state at most, there is nothing
to order, so names never matter (`Renaming.canonicalize_eq`).
-/

namespace Determinization
namespace Automaton

open List (Forall₂)

variable {a b : Automaton} {R : State → State → Prop} {s s' t u : State} {x : Symbol}
  {l : List State}

/-! ## The search -/

theorem mem_orderedTargets : t ∈ a.orderedTargets s x ↔ ⟨s, x, t⟩ ∈ a.transitions := by
  rw [orderedTargets, SortedSet.mem_toList, SortedSet.mem_ofList, Relation.mem_targets]

theorem mem_orderedMoves (ha : a.Consistent) :
    (x, t) ∈ a.orderedMoves s ↔ ⟨s, x, t⟩ ∈ a.transitions := by
  simp only [orderedMoves_eq_flatMap, List.mem_flatMap, List.mem_map, Prod.mk.injEq,
    mem_orderedTargets, Alphabet.mem_labels]
  constructor
  · rintro ⟨y, -, u, hu, rfl, rfl⟩
    exact hu
  · intro h
    exact ⟨x, ha.label_mem _ h, t, h, rfl, rfl⟩

theorem mem_map_snd_orderedMoves (ha : a.Consistent) (s t : State) :
    t ∈ (a.orderedMoves s).map Prod.snd ↔ ∃ x, ⟨s, x, t⟩ ∈ a.transitions := by
  simp only [List.mem_map, Prod.exists, exists_eq_right, mem_orderedMoves ha]

theorem pending_canonicalSearch (ha : a.Consistent) : a.canonicalSearch.pending = [] := by
  obtain ⟨whole, hlength, hwhole⟩ := exists_universe_of_joined (mem_map_snd_orderedMoves ha)
  exact Search.pending_explore hwhole hlength

/-- **The states that get a number are the reachable ones.** -/
theorem mem_found_canonicalSearch (ha : a.Consistent) :
    s ∈ a.canonicalSearch.found ↔ a.Reachable s := by
  obtain ⟨whole, hlength, hwhole⟩ := exists_universe_of_joined (mem_map_snd_orderedMoves ha)
  rw [canonicalSearch, Search.mem_found_explore hwhole hlength,
    joined_iff_reachable (mem_map_snd_orderedMoves ha)]

theorem mem_expanded_canonicalSearch (ha : a.Consistent) :
    s ∈ a.canonicalSearch.expanded ↔ a.Reachable s := by
  rw [← mem_found_canonicalSearch ha]
  exact (Search.sound_explore _ _ _ _).mem_expanded (pending_canonicalSearch ha)

theorem nodup_found_canonicalSearch (a : Automaton) : a.canonicalSearch.found.Nodup :=
  (Search.sound_explore _ _ _ _).nodup

/-- Every reachable state is found once. -/
theorem length_found_canonicalSearch (ha : a.Consistent) :
    a.canonicalSearch.found.length = a.reachable.size := by
  have hperm : a.canonicalSearch.found.Perm a.reachable.toList := by
    refine (List.perm_ext_iff_of_nodup a.nodup_found_canonicalSearch a.reachable.nodup).2 ?_
    intro s
    rw [mem_found_canonicalSearch ha, SortedSet.mem_toList, mem_reachable]
  exact hperm.length_eq

theorem size_reachable_le (ha : a.Consistent) : a.reachable.size ≤ a.states.size := by
  have hsub : a.reachable.toList ⊆ a.states.toList := fun s hs =>
    ha.mem_states_of_reachable (mem_reachable.1 hs)
  exact (List.subperm_of_subset a.reachable.nodup hsub).length_le

/-! ## The names -/

/-- The name of a state in the canonical form. -/
def canonicalName (a : Automaton) (s : State) : State := numbered a.canonicalSearch.found s

/-- Positions below the number of 32-bit numbers are told apart by their names. -/
theorem eq_of_numbered_eq (hl : l.length ≤ 2 ^ 32) (hs : s ∈ l) (ht : t ∈ l)
    (h : numbered l s = numbered l t) : s = t := by
  have hs' := List.idxOf_lt_length_of_mem hs
  have ht' := List.idxOf_lt_length_of_mem ht
  have hid : UInt32.ofNat (l.idxOf s) = UInt32.ofNat (l.idxOf t) := State.simple_injective h
  have hnat : (l.idxOf s) % 2 ^ 32 = (l.idxOf t) % 2 ^ 32 := by
    simpa using congrArg UInt32.toNat hid
  rw [Nat.mod_eq_of_lt (by omega), Nat.mod_eq_of_lt (by omega)] at hnat
  exact (List.idxOf_inj hs).1 hnat

theorem canonicalName_initial (a : Automaton) : a.canonicalName a.initial = .simple 0 := by
  rw [canonicalName, numbered, canonicalSearch, Search.idxOf_found_explore_singleton]
  rfl

/-- The names are the numbers below the number of states found. -/
theorem map_numbered (hl : l.Nodup) :
    l.map (numbered l) = (List.range l.length).map fun i => .simple (UInt32.ofNat i) := by
  refine List.ext_getElem (by simp) fun i h₁ h₂ => ?_
  rw [List.length_map] at h₁
  simp only [List.getElem_map, List.getElem_range, numbered, hl.idxOf_getElem i h₁]

/-- The transitions that the canonical form has for the moves from a state. -/
def canonicalMoves (a : Automaton) (s : State) : List Transition :=
  (a.orderedMoves s).map fun m => ⟨a.canonicalName s, m.1, a.canonicalName m.2⟩

theorem states_canonicalize (a : Automaton) :
    a.canonicalize.states = SortedSet.ofList (a.canonicalSearch.found.map a.canonicalName) := rfl

theorem transitions_canonicalize (a : Automaton) :
    a.canonicalize.transitions =
      Relation.ofList (a.canonicalSearch.expanded.flatMap a.canonicalMoves) := rfl

/-- **The states of the canonical form are the numbers below the number of reachable states.** -/
theorem mem_states_canonicalize (ha : a.Consistent) :
    t ∈ a.canonicalize.states ↔ ∃ n < a.reachable.size, t = .simple (UInt32.ofNat n) := by
  have hnames : a.canonicalSearch.found.map a.canonicalName =
      (List.range a.reachable.size).map fun i => .simple (UInt32.ofNat i) := by
    rw [← length_found_canonicalSearch ha]
    exact map_numbered a.nodup_found_canonicalSearch
  rw [states_canonicalize, SortedSet.mem_ofList, hnames, List.mem_map]
  constructor
  · rintro ⟨n, hn, rfl⟩
    exact ⟨n, List.mem_range.1 hn, rfl⟩
  · rintro ⟨n, hn, rfl⟩
    exact ⟨n, List.mem_range.2 hn, rfl⟩

/-- **The canonical form consists of the names of the reachable states.** -/
theorem isImage_canonicalize (ha : a.Consistent) :
    IsImage a.Reachable a.canonicalName a a.canonicalize where
  alphabet_eq := rfl
  part_initial := a.reachable_initial
  part_target hs hstep := hs.target hstep
  initial_eq := a.canonicalName_initial.symm
  mem_states := by
    intro t
    rw [states_canonicalize, SortedSet.mem_ofList, List.mem_map]
    constructor
    · rintro ⟨s, hs, rfl⟩
      exact ⟨s, (mem_found_canonicalSearch ha).1 hs, rfl⟩
    · rintro ⟨s, hs, rfl⟩
      exact ⟨s, (mem_found_canonicalSearch ha).2 hs, rfl⟩
  mem_transitions := by
    intro t
    simp only [transitions_canonicalize, canonicalMoves, Relation.mem_ofList, List.mem_flatMap,
      List.mem_map, Prod.exists, mem_expanded_canonicalSearch ha, mem_orderedMoves ha]
    constructor
    · rintro ⟨s, hs, x, u, hstep, rfl⟩
      exact ⟨s, x, u, hs, hstep, rfl⟩
    · rintro ⟨s, x, u, hs, hstep, rfl⟩
      exact ⟨s, hs, x, u, hstep, rfl⟩
  mem_accepting := by
    intro t
    refine SortedSet.mem_image.trans ?_
    simp only [SortedSet.mem_filter, decide_eq_true_iff, mem_found_canonicalSearch ha]
    constructor
    · rintro ⟨s, ⟨hacc, hs⟩, rfl⟩
      exact ⟨s, hs, hacc, rfl⟩
    · rintro ⟨s, hs, hacc, rfl⟩
      exact ⟨s, ⟨hacc, hs⟩, rfl⟩

/-- Up to as many states as there are 32-bit numbers, no two of them get the same number. -/
theorem tellsApart_canonicalName (ha : a.Consistent) (hsize : a.reachable.size ≤ 2 ^ 32) :
    TellsApart a.Reachable a.canonicalName := fun _ _ hs ht h =>
  eq_of_numbered_eq (length_found_canonicalSearch ha ▸ hsize)
    ((mem_found_canonicalSearch ha).2 hs) ((mem_found_canonicalSearch ha).2 ht) h

/-- The canonical form is the automaton under other names. -/
theorem renaming_canonicalize (ha : a.Consistent) (hsize : a.reachable.size ≤ 2 ^ 32) :
    Renaming (fun s s' => a.Reachable s ∧ s' = a.canonicalName s) a a.canonicalize :=
  (isImage_canonicalize ha).isRenaming (tellsApart_canonicalName ha hsize)

/-! ## Searches in lockstep -/

/-- Corresponding states list corresponding targets in the same order. -/
def InOrder (R : State → State → Prop) (a b : Automaton) : Prop :=
  ∀ ⦃s s'⦄, R s s' → ∀ x, Forall₂ R (a.orderedTargets s x) (b.orderedTargets s' x)

namespace Renaming

section Lockstep

variable (h : Renaming R a b) (horder : InOrder R a b)

include h horder

/-- Corresponding states list corresponding moves in the same order. -/
theorem forall₂_orderedMoves (hs : R s s') :
    Forall₂ (fun m m' => m.1 = m'.1 ∧ R m.2 m'.2) (a.orderedMoves s) (b.orderedMoves s') := by
  rw [orderedMoves_eq_flatMap, orderedMoves_eq_flatMap, h.alphabet_eq]
  refine List.rel_flatMap (List.forall₂_same.2 fun x _ => Eq.refl x) ?_
  rintro x - rfl
  rw [List.forall₂_map_left_iff, List.forall₂_map_right_iff]
  exact (horder hs x).imp fun _ _ ht => ⟨rfl, ht⟩

variable (ha : a.Consistent) (hb : b.Consistent)

include ha hb

theorem lockstep_canonicalSearch : Search.Lockstep R a.canonicalSearch b.canonicalSearch := by
  refine Search.lockstep_explore h.unique (fun s s' hs => ?_)
    (Forall₂.cons h.initial Forall₂.nil) (pending_canonicalSearch ha) (pending_canonicalSearch hb)
  rw [List.forall₂_map_left_iff, List.forall₂_map_right_iff]
  exact (h.forall₂_orderedMoves horder hs).imp fun _ _ hm => hm.2

/-- Corresponding states get the same number. -/
theorem canonicalName_eq (hs : R s s') : a.canonicalName s = b.canonicalName s' := by
  have hsearch := h.lockstep_canonicalSearch horder ha hb
  rw [canonicalName, canonicalName, numbered, numbered,
    Search.idxOf_eq_of_forall₂ h.unique hsearch.found hs]

theorem canonicalMoves_eq (hs : R s s') : a.canonicalMoves s = b.canonicalMoves s' := by
  rw [canonicalMoves, canonicalMoves, ← List.forall₂_eq_eq_eq, List.forall₂_map_left_iff,
    List.forall₂_map_right_iff]
  refine (h.forall₂_orderedMoves horder hs).imp fun m m' hm => ?_
  rw [h.canonicalName_eq horder ha hb hs, hm.1, h.canonicalName_eq horder ha hb hm.2]

theorem states_canonicalize_eq : a.canonicalize.states = b.canonicalize.states := by
  have hsearch := h.lockstep_canonicalSearch horder ha hb
  rw [states_canonicalize, states_canonicalize]
  refine congrArg SortedSet.ofList ?_
  rw [← List.forall₂_eq_eq_eq, List.forall₂_map_left_iff, List.forall₂_map_right_iff]
  exact hsearch.found.imp fun _ _ => h.canonicalName_eq horder ha hb

theorem transitions_canonicalize_eq :
    a.canonicalize.transitions = b.canonicalize.transitions := by
  have hsearch := h.lockstep_canonicalSearch horder ha hb
  rw [transitions_canonicalize, transitions_canonicalize]
  refine congrArg Relation.ofList ?_
  rw [← List.forall₂_eq_eq_eq]
  refine List.rel_flatMap hsearch.expanded fun s s' hs => ?_
  rw [List.forall₂_eq_eq_eq]
  exact h.canonicalMoves_eq horder ha hb hs

theorem accepting_canonicalize_eq : a.canonicalize.accepting = b.canonicalize.accepting := by
  refine SortedSet.ext fun t => ?_
  rw [(isImage_canonicalize ha).mem_accepting, (isImage_canonicalize hb).mem_accepting]
  constructor
  · rintro ⟨s, hs, hacc, rfl⟩
    obtain ⟨s', hs'⟩ := h.exists_of_reachable hs
    exact ⟨s', (h.reachable_iff hs').1 hs, (h.accepting_iff hs').1 hacc,
      h.canonicalName_eq horder ha hb hs'⟩
  · rintro ⟨s', hs', hacc, rfl⟩
    obtain ⟨s, hs⟩ := h.symm.exists_of_reachable hs'
    exact ⟨s, (h.reachable_iff hs).2 hs', (h.accepting_iff hs).2 hacc,
      (h.canonicalName_eq horder ha hb hs).symm⟩

/-- **Automata that differ in names and list targets in the same order have the same canonical
form.** -/
theorem canonicalize_eq_of_inOrder : a.canonicalize = b.canonicalize :=
  eq_of_parts_eq (h.states_canonicalize_eq horder ha hb) h.alphabet_eq
    (h.transitions_canonicalize_eq horder ha hb) rfl (h.accepting_canonicalize_eq horder ha hb)

end Lockstep

end Renaming

/-! ## Functional automata -/

/-- On one symbol there is one target at most. -/
def Functional (a : Automaton) : Prop :=
  ∀ {s x t u}, ⟨s, x, t⟩ ∈ a.transitions → ⟨s, x, u⟩ ∈ a.transitions → t = u

theorem functional_iff :
    a.Functional ↔ ∀ t ∈ a.transitions.toList, ∀ u ∈ a.transitions.toList,
      t.source = u.source → t.label = u.label → t.target = u.target := by
  constructor
  · rintro h ⟨s, x, t⟩ ht ⟨_, _, u⟩ hu rfl rfl
    exact h ht hu
  · intro h s x t u ht hu
    exact h _ ht _ hu rfl rfl

instance (a : Automaton) : Decidable a.Functional := decidable_of_iff _ functional_iff.symm

theorem Deterministic.functional (ha : a.Deterministic) (hcons : a.Consistent) :
    a.Functional := by
  intro s x t u ht hu
  cases x with
  | epsilon => exact absurd ht ha.not_silent
  | char c =>
      have hc : c ∈ a.alphabet := (Alphabet.admits_char _ c).1 (hcons.label_mem _ ht)
      obtain ⟨r, hr⟩ := (deterministic_iff.1 ha).2 s (hcons.source_mem _ ht) c hc
      rw [(hr t).1 ht, (hr u).1 hu]

theorem orderedTargets_eq_nil (h : ∀ t, ⟨s, x, t⟩ ∉ a.transitions) : a.orderedTargets s x = [] :=
  List.eq_nil_iff_forall_not_mem.2 fun t ht => h t (mem_orderedTargets.1 ht)

theorem Functional.orderedTargets_eq (ha : a.Functional) (h : ⟨s, x, t⟩ ∈ a.transitions) :
    a.orderedTargets s x = [t] := by
  have hset : SortedSet.ofList (a.transitions.targets s x) = SortedSet.ofList [t] := by
    refine SortedSet.ofList_eq_ofList.2 fun u => ?_
    rw [Relation.mem_targets, List.mem_singleton]
    constructor
    · intro hu
      exact ha hu h
    · rintro rfl
      exact h
  rw [orderedTargets, hset]
  rfl

namespace Renaming

variable (h : Renaming R a b) (hfa : a.Functional) (hfb : b.Functional)

include h hfa hfb

theorem inOrder_of_functional : InOrder R a b := by
  intro s s' hs x
  by_cases hx : ∃ t, ⟨s, x, t⟩ ∈ a.transitions
  · obtain ⟨t, ht⟩ := hx
    obtain ⟨t', htt', ht'⟩ := h.forth hs ht
    rw [hfa.orderedTargets_eq ht, hfb.orderedTargets_eq ht']
    exact Forall₂.cons htt' Forall₂.nil
  · -- what the second automaton has, `back` brings to the first
    have hnone : ∀ t', ⟨s', x, t'⟩ ∉ b.transitions := fun t' ht' =>
      have ⟨t, _, ht⟩ := h.back hs ht'
      hx ⟨t, ht⟩
    rw [orderedTargets_eq_nil fun t ht => hx ⟨t, ht⟩, orderedTargets_eq_nil hnone]
    exact Forall₂.nil

/-- **Functional automata that differ in names have the same canonical form.** -/
theorem canonicalize_eq (ha : a.Consistent) (hb : b.Consistent) :
    a.canonicalize = b.canonicalize :=
  h.canonicalize_eq_of_inOrder (h.inOrder_of_functional hfa hfb) ha hb

end Renaming

end Automaton
end Determinization
